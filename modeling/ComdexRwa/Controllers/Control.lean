import ComdexRwa.Controllers.Hooks
import ComdexRwa.Foundation.Run

/-! Hooks and their administrator over time: who changes what, and which hooks are registered in the end. -/
namespace ComdexRwa.Controllers
open Foundation Txn
open ComdexRwa.Core (Addr StdError MessageInfo Response)

inductive ControlCall where
  | set (owner : Option Addr)
  | updateAdmin (info : MessageInfo) (newAdmin : Option Addr)
  | addHook (info : MessageInfo) (addr : Addr)
  | removeHook (info : MessageInfo) (addr : Addr)
  deriving DecidableEq, Repr

namespace ControlCall

def opens : ControlCall → Bool
  | .set _ => true
  | _ => false

def sender : ControlCall → Option Addr
  | .set _ => none
  | .updateAdmin info _ | .addHook info _ | .removeHook info _ => some info.sender

end ControlCall

/-- A contract that sets its administrator when it is instantiated, and leaves the rest to the controllers. -/
def controls (admin : Admin) (hooks : Hooks) : System ControlStorage ControlCall HookError (Response Empty) where
  initial := ⟨none, none⟩
  opens c := c.opens = true
  continues c := c.opens = false
  exec
    | .set owner => do
      (admin.set owner).mapErr .std
      pure Response.new
    | .updateAdmin info newAdmin => (admin.executeUpdateAdmin info newAdmin).mapErr .admin
    | .addHook info addr => hooks.executeAddHook admin info addr
    | .removeHook info addr => hooks.executeRemoveHook admin info addr

abbrev ControlEvent := Event ControlStorage ControlCall HookError (Response Empty)

/-- What a later call does when it returns. -/
inductive ControlStep (admin : Admin) (s : ControlStorage) : ControlCall → ControlStorage → Prop where
  | updated {info : MessageInfo} {newAdmin : Option Addr} : s.refuses admin info.sender = none →
      ControlStep admin s (.updateAdmin info newAdmin) { s with admin := some newAdmin }
  | added {info : MessageInfo} {addr : Addr} : s.refuses admin info.sender = none → addr ∉ s.registered →
      ControlStep admin s (.addHook info addr) { s with hooks := some (s.registered ++ [addr]) }
  | removed {info : MessageInfo} {addr : Addr} : s.refuses admin info.sender = none → addr ∈ s.registered →
      ControlStep admin s (.removeHook info addr) { s with hooks := some (s.registered.erase addr) }

section Steps
variable {admin : Admin} {hooks : Hooks} {s s' : ControlStorage} {c : ControlCall} {caller : Addr}

private theorem refuses_none (h : s.refuses admin caller = none) : s.admin = some (some caller) := by
  unfold ControlStorage.refuses at h
  split at h
  next => cases h
  next hadmin =>
    split at h
    next hcaller => rw [hadmin, hcaller]
    next => cases h

/-- Whoever is refused is refused everything, with nothing done. -/
private theorem exec_refused (hooks : Hooks) {e : AdminError} (hc : c.sender = some caller)
    (h : s.refuses admin caller = some e) :
    ((controls admin hooks).exec c).Aborts s (.error (.admin e)) s := by
  cases c with
  | set owner => cases hc
  | updateAdmin info newAdmin =>
    cases hc
    have hguard := assertAdmin_aborts h
    have hupdate : (admin.executeUpdateAdmin info newAdmin).Aborts s (.error e) s :=
      (aborts_bind_of_aborts hguard _ _ _).mpr ⟨rfl, rfl⟩
    exact hupdate.mapErr HookError.admin
  | addHook info addr =>
    cases hc
    exact (aborts_bind_of_aborts ((assertAdmin_aborts h).mapErr HookError.admin) _ _ _).mpr ⟨rfl, rfl⟩
  | removeHook info addr =>
    cases hc
    exact (aborts_bind_of_aborts ((assertAdmin_aborts h).mapErr HookError.admin) _ _ _).mpr ⟨rfl, rfl⟩

private theorem returns_of_step (hooks : Hooks) (h : ControlStep admin s c s') :
    ∃ r, ((controls admin hooks).exec c).Returns s r s' := by
  cases h with
  | @updated info newAdmin hadmin =>
    have hupdate : ∃ r, (admin.executeUpdateAdmin info newAdmin).Returns s r { s with admin := some newAdmin } :=
      ⟨_, (returns_bind_of_run (assertAdmin_returns hadmin) _ _ _).mpr rfl⟩
    obtain ⟨r, hupdate⟩ := hupdate
    exact ⟨r, hupdate.mapErr HookError.admin⟩
  | @added info addr hadmin hnew =>
    have hguard := (assertAdmin_returns hadmin).mapErr HookError.admin
    exact ⟨_, (returns_bind_of_run hguard _ _ _).mpr ((returns_bind_of_run (addHook_returns hnew) _ _ _).mpr rfl)⟩
  | @removed info addr hadmin hold =>
    have hguard := (assertAdmin_returns hadmin).mapErr HookError.admin
    exact ⟨_, (returns_bind_of_run hguard _ _ _).mpr ((returns_bind_of_run (removeHook_returns hold) _ _ _).mpr rfl)⟩

/-- A later call returns as one of these steps. -/
private theorem step_of_returns {r : Response Empty} (hc : c.opens = false)
    (h : ((controls admin hooks).exec c).Returns s r s') :
    ControlStep admin s c s' := by
  have hstep {t : ControlStorage} (ht : ControlStep admin s c t) : ControlStep admin s c s' := by
    obtain ⟨_, hret⟩ := returns_of_step hooks ht
    rwa [(h.unique hret).2]
  have hadmin (caller : Addr) (hsender : c.sender = some caller) : s.refuses admin caller = none := by
    rw [Option.eq_none_iff_forall_ne_some]
    intro e he
    exact h.not_aborts (exec_refused hooks hsender he)
  cases c with
  | set owner => cases hc
  | updateAdmin info newAdmin => exact hstep (.updated (hadmin _ rfl))
  | addHook info addr =>
    have hguard := (assertAdmin_returns (hadmin _ rfl)).mapErr HookError.admin
    by_cases hmem : addr ∈ s.registered
    · exact (h.not_aborts ((aborts_bind_of_run hguard _ _ _).mpr
        ((aborts_bind_of_aborts (addHook_aborts hmem) _ _ _).mpr ⟨rfl, rfl⟩))).elim
    · exact hstep (.added (hadmin _ rfl) hmem)
  | removeHook info addr =>
    have hguard := (assertAdmin_returns (hadmin _ rfl)).mapErr HookError.admin
    by_cases hmem : addr ∈ s.registered
    · exact hstep (.removed (hadmin _ rfl) hmem)
    · exact (h.not_aborts ((aborts_bind_of_run hguard _ _ _).mpr
        ((aborts_bind_of_aborts (removeHook_aborts hmem) _ _ _).mpr ⟨rfl, rfl⟩))).elim

/-- Each step is taken by the administrator. -/
private theorem ControlStep.by_admin (h : ControlStep admin s c s') :
    ∃ caller, c.sender = some caller ∧ s.admin = some (some caller) := by
  cases h with
  | updated hadmin => exact ⟨_, rfl, refuses_none hadmin⟩
  | added hadmin => exact ⟨_, rfl, refuses_none hadmin⟩
  | removed hadmin => exact ⟨_, rfl, refuses_none hadmin⟩

private theorem sender_of_later (hc : c.opens = false) : ∃ caller, c.sender = some caller := by
  cases c with
  | set owner => cases hc
  | updateAdmin info newAdmin => exact ⟨_, rfl⟩
  | addHook info addr => exact ⟨_, rfl⟩
  | removeHook info addr => exact ⟨_, rfl⟩

end Steps

/-! The laws of whole runs. -/

namespace ControlEvent

def adds (e : ControlEvent) (addr : Addr) : Prop := ∃ info r, e.call = .addHook info addr ∧ e.reply = .ok r

def removes (e : ControlEvent) (addr : Addr) : Prop := ∃ info r, e.call = .removeHook info addr ∧ e.reply = .ok r

end ControlEvent

/-- The hook was added, and not removed since. -/
def Standing (h : List ControlEvent) (addr : Addr) : Prop :=
  ∃ h₁ e h₂, h = h₁ ++ e :: h₂ ∧ ControlEvent.adds e addr ∧ ∀ f ∈ h₂, ¬ ControlEvent.removes f addr

section Laws
variable {admin : Admin} {hooks : Hooks} {h : List ControlEvent} {s : ControlStorage}

private theorem standing_append (h : List ControlEvent) (e : ControlEvent) (addr : Addr) : Standing (h ++ [e]) addr ↔
    ControlEvent.adds e addr ∨ Standing h addr ∧ ¬ ControlEvent.removes e addr := by
  constructor
  · rintro ⟨h₁, f, h₂, heq, hadds, hnot⟩
    rcases List.eq_nil_or_concat h₂ with rfl | ⟨h₃, x, rfl⟩
    · obtain ⟨_, hs⟩ := List.append_inj' heq rfl
      cases hs
      exact .inl hadds
    · rw [List.concat_eq_append] at heq hnot
      rw [← List.cons_append, ← List.append_assoc] at heq
      obtain ⟨rfl, hs⟩ := List.append_inj' heq rfl
      cases hs
      exact .inr ⟨⟨h₁, f, h₃, rfl, hadds, fun g hg => hnot g (List.mem_append_left _ hg)⟩, hnot e (by simp)⟩
  · rintro (hadds | ⟨⟨h₁, f, h₂, rfl, hadds, hnot⟩, hrem⟩)
    · exact ⟨h, e, [], rfl, hadds, by simp⟩
    · refine ⟨h₁, f, h₂ ++ [e], by simp, hadds, ?_⟩
      intro g hg
      rcases List.mem_append.mp hg with hg | hg
      · exact hnot g hg
      · rwa [List.mem_singleton.mp hg]

private theorem not_standing_nil (addr : Addr) : ¬ Standing [] addr := by
  rintro ⟨h₁, e, h₂, heq, _⟩
  exact List.append_ne_nil_of_right_ne_nil h₁ (List.cons_ne_nil e h₂) heq.symm

/-- What neither adds nor removes hooks leaves the standing ones. -/
private theorem standing_of_idle {e : ControlEvent} {addr : Addr} (hadds : ¬ ControlEvent.adds e addr)
    (hremoves : ¬ ControlEvent.removes e addr) : Standing (h ++ [e]) addr ↔ Standing h addr := by
  rw [standing_append]
  exact ⟨fun hs => (hs.resolve_left hadds).1, fun hs => .inr ⟨hs, hremoves⟩⟩

/-- One step keeps the list of hooks to those that stand, each once. -/
private theorem registered_step {c : ControlCall} {r : Response Empty} {s' : ControlStorage}
    (hstep : ControlStep admin s c s')
    (hi : s.registered.Nodup ∧ ∀ addr, addr ∈ s.registered ↔ Standing h addr) :
    s'.registered.Nodup ∧ ∀ addr, addr ∈ s'.registered ↔ Standing (h ++ [⟨s, c, .ok r, s'⟩]) addr := by
  obtain ⟨hnodup, hmem⟩ := hi
  cases hstep with
  | updated hadmin =>
    refine ⟨hnodup, fun addr => (hmem addr).trans (standing_of_idle ?_ ?_).symm⟩
    · rintro ⟨_, _, hcall, _⟩
      cases hcall
    · rintro ⟨_, _, hcall, _⟩
      cases hcall
  | @added info new hadmin hnew =>
    change (s.registered ++ [new]).Nodup ∧ ∀ addr, addr ∈ s.registered ++ [new] ↔ _
    refine ⟨hnodup.append (List.nodup_singleton new) (by simpa using hnew), fun addr => ?_⟩
    rw [List.mem_append, List.mem_singleton, hmem, standing_append]
    constructor
    · rintro (hs | rfl)
      · refine .inr ⟨hs, ?_⟩
        rintro ⟨_, _, hcall, _⟩
        cases hcall
      · exact .inl ⟨info, r, rfl, rfl⟩
    · rintro (⟨_, _, hcall, _⟩ | ⟨hs, _⟩)
      · cases hcall
        exact .inr rfl
      · exact .inl hs
  | @removed info old hadmin hold =>
    change (s.registered.erase old).Nodup ∧ ∀ addr, addr ∈ s.registered.erase old ↔ _
    refine ⟨hnodup.erase old, fun addr => ?_⟩
    rw [hnodup.mem_erase_iff, hmem, standing_append]
    constructor
    · rintro ⟨hne, hs⟩
      refine .inr ⟨hs, ?_⟩
      rintro ⟨_, _, hcall, _⟩
      cases hcall
      exact hne rfl
    · rintro (⟨_, _, hcall, _⟩ | ⟨hs, hnot⟩)
      · cases hcall
      · refine ⟨?_, hs⟩
        rintro rfl
        exact hnot ⟨info, r, rfl, rfl⟩

private theorem registered_standing (hr : Run (controls admin hooks) h s) :
    s.registered.Nodup ∧ ∀ addr, addr ∈ s.registered ↔ Standing h addr := by
  refine Run.rule (I := fun h s => s.registered.Nodup ∧ ∀ addr, addr ∈ s.registered ↔ Standing h addr) ?_ ?_ ?_ hr
  · intro c r s' hopens hret
    cases c with
    | set owner =>
      have hs' : s' = ⟨some owner, none⟩ := by
        cases hret
        rfl
      rw [hs']
      refine ⟨List.nodup_nil, fun addr => iff_of_false List.not_mem_nil fun hs => not_standing_nil addr ?_⟩
      apply (standing_of_idle (h := []) ?_ ?_).mp hs
      · rintro ⟨_, _, hcall, _⟩
        cases hcall
      · rintro ⟨_, _, hcall, _⟩
        cases hcall
    | updateAdmin info newAdmin => cases hopens
    | addHook info addr => cases hopens
    | removeHook info addr => cases hopens
  · intro h s c r s' _ hi hc hret
    exact registered_step (step_of_returns hc hret) hi
  · intro h s c f _ hi _ _
    refine ⟨hi.1, fun addr => (hi.2 addr).trans (standing_of_idle ?_ ?_).symm⟩
    · rintro ⟨_, _, _, hreply⟩
      cases hreply
    · rintro ⟨_, _, _, hreply⟩
      cases hreply

/-- After every run the hooks that were added and not removed since are registered, once each: the query answers
yes for these and for no others, and messages are prepared for each of them. -/
theorem hooks_standing (hr : Run (controls admin hooks) h s) :
    s.registered.Nodup ∧ (∀ addr, addr ∈ s.registered ↔ Standing h addr) ∧
    (∀ addr, (hooks.queryHook addr.text).Returns s true s ↔ Standing h addr) ∧
    ∀ {μ : Type} (f : Addr → μ), (hooks.prepareHooks fun addr => pure (f addr)).Returns s (s.registered.map f) s := by
  obtain ⟨hnodup, hmem⟩ := registered_standing hr
  refine ⟨hnodup, hmem, fun addr => ?_, prepareHooks_returns⟩
  have hanswer : (hooks.queryHook addr.text).Returns s (decide (addr ∈ s.registered)) s := queryHook_returns addr.text
  rw [← hmem addr]
  constructor
  · intro hret
    exact of_decide_eq_true (hanswer.unique hret).1
  · intro hs
    rwa [decide_eq_true hs] at hanswer

/-- Once there is no administrator, nothing changes any more. -/
private theorem frozen {h₁ h₂ : List ControlEvent} {e : ControlEvent}
    (hr : Run (controls admin hooks) (h₁ ++ e :: h₂) s)
    (hnone : e.after.admin = some none) : s = e.after := by
  refine Run.since (I := fun t => t = e.after) (Q := fun _ => True) rfl ?_ hr fun _ _ => trivial
  intro t c r t' ht hc hret _
  obtain ⟨caller, _, hadmin⟩ := (step_of_returns hc hret).by_admin
  rw [ht, hnone] at hadmin
  cases hadmin

private theorem admin_set (hr : Run (controls admin hooks) h s) : ∃ owner, s.admin = some owner := by
  refine Run.invariant (I := fun s => ∃ owner, s.admin = some owner) ?_ ?_ hr
  · intro c r s' hopens hret
    cases c with
    | set owner =>
      cases hret
      exact ⟨owner, rfl⟩
    | updateAdmin info newAdmin => cases hopens
    | addHook info addr => cases hopens
    | removeHook info addr => cases hopens
  · intro s c r s' hi hc hret
    cases step_of_returns hc hret with
    | updated _ => exact ⟨_, rfl⟩
    | added _ _ => exact hi
    | removed _ _ => exact hi

/-- The administrator can be asked for at any time. Whatever changes after it was set is changed by the
administrator of the moment; and once there is none, every later call is refused and nothing changes any more. -/
theorem administered (hr : Run (controls admin hooks) h s) :
    (∃ owner, s.admin = some owner ∧ admin.queryAdmin.Returns s (owner.map Addr.text) s) ∧
    (∀ e ∈ h, e.call.opens = false → e.after ≠ e.before →
      ∃ caller, e.call.sender = some caller ∧ e.before.admin = some (some caller)) ∧
    ∀ h₁ e h₂, h = h₁ ++ e :: h₂ → e.after.admin = some none →
      s = e.after ∧ ∀ f ∈ h₂, f.after = e.after ∧ f.reply = .error (.error (.admin .notAdmin)) := by
  refine ⟨?_, ?_, ?_⟩
  · obtain ⟨owner, howner⟩ := admin_set hr
    exact ⟨owner, howner, queryAdmin_returns howner⟩
  · intro e he hlater hne
    rcases hr.origin he with ⟨_, hopens, _⟩ | ⟨_, _, hc, heq⟩
    · cases hlater.symm.trans hopens
    · rcases (controls admin hooks).transact_cases e.before e.call with ⟨r, s', hret, ht⟩ | ⟨f, _, ht⟩
      · exact (step_of_returns hc hret).by_admin
      · rw [heq, ht] at hne
        exact (hne rfl).elim
  · rintro h₁ e h₂ rfl hnone
    refine ⟨frozen hr hnone, fun f hf => ?_⟩
    obtain ⟨h₃, h₄, rfl⟩ := List.append_of_mem hf
    rw [← List.cons_append, ← List.append_assoc] at hr
    rcases (hr.cut).last.2 with ⟨_, hnil, _⟩ | ⟨hbefore, hc, heq⟩
    · cases List.append_ne_nil_of_right_ne_nil h₁ (List.cons_ne_nil e h₃) hnil
    · obtain ⟨caller, hsender⟩ := sender_of_later hc
      have hrefuses : f.before.refuses admin caller = some .notAdmin := by
        rw [frozen hbefore hnone, ControlStorage.refuses, hnone]
        rfl
      have hrolled := System.transact_of_error (exec_refused hooks hsender hrefuses)
      rw [heq, hrolled]
      exact ⟨frozen hbefore hnone, rfl⟩

end Laws

/-! Alice adds two hooks and removes one; Bob may not add any, and in the end nobody may. -/

namespace Sample

def control : Admin := ⟨"admin"⟩
def hooks : Hooks := ⟨"hooks"⟩

def admin : Addr := ⟨"alice"⟩
def byAdmin : MessageInfo := ⟨admin, []⟩

def controlCalls : List ControlCall :=
  [.addHook byAdmin ⟨"one"⟩, .addHook byAdmin ⟨"two"⟩, .removeHook byAdmin ⟨"one"⟩, .addHook ⟨⟨"bob"⟩, []⟩ ⟨"three"⟩,
    .updateAdmin byAdmin none, .addHook byAdmin ⟨"four"⟩]

def controlHistory : List ControlEvent :=
  [⟨⟨none, none⟩, .set (some admin), .ok Response.new, ⟨some (some admin), none⟩⟩] ++
    ((controls control hooks).replay ⟨some (some admin), none⟩ controlCalls).1

def controlStorage : ControlStorage := ((controls control hooks).replay ⟨some (some admin), none⟩ controlCalls).2

private theorem controlRun : Run (controls control hooks) controlHistory controlStorage := by
  have hset : ((controls control hooks).exec (.set (some admin))).Returns ⟨none, none⟩ Response.new
    ⟨some (some admin), none⟩ := rfl
  have hlater : ∀ c ∈ controlCalls, c.opens = false := by decide
  exact (Run.opened rfl hset).replay hlater

/-- Alice gives up. -/
def resignation : ControlEvent :=
  ⟨⟨some (some admin), some [⟨"two"⟩]⟩, .updateAdmin byAdmin none,
    .ok ⟨[], [("action", "update_admin"), ("admin", "None"), ("sender", "alice")]⟩, ⟨some none, some [⟨"two"⟩]⟩⟩

private theorem resigned : controlHistory = controlHistory.take 5 ++ resignation :: controlHistory.drop 6 := by
  rfl

end Sample

theorem hooks_standing_of_sample : Sample.controlStorage.registered = [⟨"two"⟩] ∧
    (Sample.hooks.queryHook "two").Returns Sample.controlStorage true Sample.controlStorage ∧
    ¬ Standing Sample.controlHistory ⟨"one"⟩ := by
  obtain ⟨_, hmem, hquery, _⟩ := hooks_standing Sample.controlRun
  have hregistered : Sample.controlStorage.registered = [⟨"two"⟩] := by decide
  rw [hregistered] at hmem
  exact ⟨hregistered, (hquery ⟨"two"⟩).mpr ((hmem ⟨"two"⟩).mp (by decide)),
    fun hs => absurd ((hmem ⟨"one"⟩).mpr hs) (by decide)⟩

theorem administered_of_sample : (∃ owner, Sample.controlStorage.admin = some owner ∧
      Sample.control.queryAdmin.Returns Sample.controlStorage (owner.map Addr.text) Sample.controlStorage) ∧
    (∀ e ∈ Sample.controlHistory, e.call.opens = false → e.after ≠ e.before →
      ∃ caller, e.call.sender = some caller ∧ e.before.admin = some (some caller)) ∧
    Sample.controlStorage = Sample.resignation.after ∧ (Sample.controlHistory.drop 6).length = 1 ∧
    ∀ f ∈ Sample.controlHistory.drop 6,
      f.after = Sample.resignation.after ∧ f.reply = .error (.error (.admin .notAdmin)) := by
  obtain ⟨hasked, hchanged, hfrozen⟩ := administered Sample.controlRun
  obtain ⟨hstorage, hrefused⟩ := hfrozen _ _ _ Sample.resigned rfl
  exact ⟨hasked, hchanged, hstorage, by decide, hrefused⟩

end ComdexRwa.Controllers
