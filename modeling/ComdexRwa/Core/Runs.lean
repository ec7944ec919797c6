import ComdexRwa.Core.Contract

/-! The rules of runs, for this contract: the opening call leaves `Storage.start`, and a later call
that returns has one of the effects listed. -/
namespace ComdexRwa.Core
open Foundation

section Runs
variable {env : Env} {h : History} {s : Storage} {e : CallEvent}

theorem rwa_rule {I : History → Storage → Prop}
    (opened : ∀ info, I [⟨.empty, .instantiate info, .ok Response.new, .start⟩] .start)
    (returned : ∀ h s c r s', Run (rwa env) h s → I h s → c.opens = false → Effect env s c r s' →
      I (h ++ [⟨s, c, .ok r, s'⟩]) s')
    (failed : ∀ h s c e, Run (rwa env) h s → I h s → c.opens = false → (∀ r s', ¬ Effect env s c r s') →
      I (h ++ [⟨s, c, .error e, s⟩]) s)
    (hr : Run (rwa env) h s) : I h s := by
  apply hr.rule
  · intro c r s ho hx
    obtain ⟨⟨info, rfl⟩, rfl, rfl⟩ := opening_returns ho hx
    exact opened info
  · intro h s c r s' hr hi hc hx
    exact returned h s c r s' hr hi hc ((dispatch_returns env c s r s').mp hx)
  · intro h s c e hr hi hc hx
    exact failed h s c e hr hi hc fun r s' he => hx r s' ((dispatch_returns env c s r s').mpr he)

/-- What holds at the start and is kept by every effect holds in every state reached. -/
theorem rwa_invariant {I : Storage → Prop} (opened : I .start)
    (kept : ∀ s c r s', I s → c.opens = false → Effect env s c r s' → I s') (hr : Run (rwa env) h s) : I s := by
  apply hr.invariant
  · intro c r s ho hx
    obtain ⟨_, _, rfl⟩ := opening_returns ho hx
    exact opened
  · intro s c r s' hi hc hx
    exact kept s c r s' hi hc ((dispatch_returns env c s r s').mp hx)

/-- The same when every call of the run meets a condition on the storage before it. -/
theorem rwa_invariant_under {G : Storage → Call → Prop} {I : Storage → Prop} (opened : I .start)
    (kept : ∀ h s c r s', Run (rwa env) h s → I s → c.opens = false → G s c → Effect env s c r s' → I s')
    (hr : Run (rwa env) h s) (hg : ∀ e ∈ h, G e.before e.call) : I s := by
  refine hr.invariant_under (G := G) ?_ ?_ hg
  · intro c r s ho _ hx
    obtain ⟨_, _, rfl⟩ := opening_returns ho hx
    exact opened
  · intro h s c r s' hr hi hc hg hx
    exact kept h s c r s' hr hi hc hg ((dispatch_returns env c s r s').mp hx)

theorem rwa_events {P : CallEvent → Prop}
    (opened : ∀ info, P ⟨.empty, .instantiate info, .ok Response.new, .start⟩)
    (returned : ∀ h s c r s', Run (rwa env) h s → c.opens = false → Effect env s c r s' → P ⟨s, c, .ok r, s'⟩)
    (failed : ∀ h s c e, Run (rwa env) h s → c.opens = false → (∀ r s', ¬ Effect env s c r s') →
      P ⟨s, c, .error e, s⟩)
    (hr : Run (rwa env) h s) : ∀ e ∈ h, P e := by
  intro e he
  refine hr.events ?_ ?_ ?_ he
  · intro c r s ho hx
    obtain ⟨⟨info, rfl⟩, rfl, rfl⟩ := opening_returns ho hx
    exact opened info
  · intro h s c r s' hr hc hx
    exact returned h s c r s' hr hc ((dispatch_returns env c s r s').mp hx)
  · intro h s c e hr hc hx
    exact failed h s c e hr hc fun r s' he => hx r s' ((dispatch_returns env c s r s').mpr he)

theorem rwa_exactly {I : History → Storage → Prop} {G : Storage → Call → Prop}
    (opened : ∀ info, I [⟨.empty, .instantiate info, .ok Response.new, .start⟩] .start ↔
      G .empty (.instantiate info))
    (returned : ∀ h s c r s', Run (rwa env) h s → c.opens = false → Effect env s c r s' →
      (I (h ++ [⟨s, c, .ok r, s'⟩]) s' ↔ I h s ∧ G s c))
    (failed : ∀ h s c e, Run (rwa env) h s → c.opens = false → (∀ r s', ¬ Effect env s c r s') →
      (I (h ++ [⟨s, c, .error e, s⟩]) s ↔ I h s ∧ G s c))
    (hr : Run (rwa env) h s) : I h s ↔ ∀ e ∈ h, G e.before e.call := by
  apply hr.exactly
  · intro c r s ho hx
    obtain ⟨⟨info, rfl⟩, rfl, rfl⟩ := opening_returns ho hx
    exact opened info
  · intro h s c r s' hr hc hx
    exact returned h s c r s' hr hc ((dispatch_returns env c s r s').mp hx)
  · intro h s c e hr hc hx
    exact failed h s c e hr hc fun r s' he => hx r s' ((dispatch_returns env c s r s').mpr he)

/-- A law of single events that some calls break: they all return, and a call that fails keeps the law. -/
theorem rwa_throughout {P : CallEvent → Prop} {L : Storage → Prop} {B : Storage → Call → Prop}
    (leaves : ∀ e, P e → L e.after)
    (returns : ∀ s c, c.opens = false → B s c → ∃ r s', Effect env s c r s')
    (opened : ∀ info, P ⟨.empty, .instantiate info, .ok Response.new, .start⟩ ↔ ¬ B .empty (.instantiate info))
    (returned : ∀ h s c r s', Run (rwa env) h s → L s → Effect env s c r s' → (P ⟨s, c, .ok r, s'⟩ ↔ ¬ B s c))
    (failed : ∀ s c e, L s → P ⟨s, c, .error e, s⟩)
    (hr : Run (rwa env) h s) : (∀ e ∈ h, P e) ↔ ∀ e ∈ h, ¬ B e.before e.call := by
  refine hr.throughout (G := fun s c => ¬ B s c) leaves ?_ ?_ ?_
  · intro c r s ho hx
    obtain ⟨⟨info, rfl⟩, rfl, rfl⟩ := opening_returns ho hx
    exact opened info
  · intro h s c r s' hr hl _ hx
    exact returned h s c r s' hr hl ((dispatch_returns env c s r s').mp hx)
  · intro h s c e _ hl hc hx
    refine iff_of_true (failed s c e hl) fun hb => ?_
    obtain ⟨r, s', he⟩ := returns s c hc hb
    exact hx r s' ((dispatch_returns env c s r s').mpr he)

/-- An invoice that passes the guards is raised, whatever law it may break by that. -/
theorem effect_of_raises {c : Call} {Q : MessageInfo → InvoiceTerms → InvoiceBasis → Prop}
    (hx : ∃ info terms b, c = .execute info (.createInvoice terms) ∧ InvoiceReady s info terms b ∧ Q info terms b) :
    ∃ r s', Effect env s c r s' := by
  obtain ⟨info, terms, b, rfl, hready, _⟩ := hx
  exact ⟨_, _, .createInvoice hready⟩

theorem not_raises_of_opens {c : Call} {Q : MessageInfo → InvoiceTerms → InvoiceBasis → Prop}
    (ho : c.opens = true) :
    ¬ ∃ info terms b, c = .execute info (.createInvoice terms) ∧ InvoiceReady s info terms b ∧ Q info terms b := by
  intro hx
  obtain ⟨_, _, _, rfl, _⟩ := hx
  cases ho

theorem effect_of_reply (hr : Run (rwa env) h s) (he : e ∈ h) {r : Reply} (ok : e.reply = .ok r) :
    Effect env e.before e.call r e.after :=
  (dispatch_returns env _ _ _ _).mp (hr.returns_of_reply he ok)

/-- Every later call was made on a storage that some run ends in. -/
theorem rwa_reaches_before (hr : Run (rwa env) h s) (he : e ∈ h) (hc : e.call.opens = false) :
    ∃ h', Run (rwa env) h' e.before := by
  rcases hr.origin he with ⟨_, ho, _, _⟩ | ⟨h', hb, _, _⟩
  · exact (Bool.false_ne_true (hc.symm.trans ho)).elim
  · exact ⟨h', hb⟩

/-- The answer and the store left behind are those of the effect the call has. -/
theorem reply_of_effect (hr : Run (rwa env) h s) (he : e ∈ h) {c : Call} (hc : e.call = c) (hl : c.opens = false)
    {r : Reply} {s' : Storage} (heff : Effect env e.before c r s') : e.reply = .ok r ∧ e.after = s' := by
  subst hc
  rcases hr.origin he with ⟨_, ho, _, _⟩ | ⟨_, _, _, heq⟩
  · exact (Bool.false_ne_true (hl.symm.trans ho)).elim
  · rw [System.transact_of_returns ((dispatch_returns env _ _ _ _).mpr heff)] at heq
    rw [heq]
    exact ⟨rfl, rfl⟩

theorem rwa_evolves {R : Storage → Storage → Prop} (refl : ∀ s, R s s)
    (trans : ∀ s t u, R s t → R t u → R s u)
    (kept : ∀ h s c r s', Run (rwa env) h s → c.opens = false → Effect env s c r s' → R s s')
    (hr : Run (rwa env) h s) : ∀ e ∈ h, R e.after s := by
  apply hr.evolves refl trans
  intro h s c r s' hr hc hx
  exact kept h s c r s' hr hc ((dispatch_returns env c s r s').mp hx)

/-- An event opened the run on the empty storage, or its call came later, where the run before it ended. -/
theorem rwa_before {h₁ h₂ : History} (hr : Run (rwa env) (h₁ ++ e :: h₂) s) :
    (e.before = .empty ∧ e.call.opens = true) ∨ (Run (rwa env) h₁ e.before ∧ e.call.opens = false) := by
  rcases hr.origin (List.mem_append_right _ List.mem_cons_self) with ⟨r, ho, _, he⟩ | ⟨_, _, hc, _⟩
  · exact .inl ⟨by rw [he]; rfl, ho⟩
  · have hno : ¬ (rwa env).opens e.call := fun ho => Bool.false_ne_true (hc.symm.trans ho)
    exact .inr ⟨hr.before hno, hc⟩

end Runs

/-! Runs with given calls: one opening, then the calls in order, whether they return or not. -/

def historyOf (env : Env) (info : MessageInfo) (cs : List Call) : History :=
  ⟨.empty, .instantiate info, .ok Response.new, .start⟩ :: ((rwa env).replay .start cs).1

def storageAfter (env : Env) (cs : List Call) : Storage := ((rwa env).replay .start cs).2

private theorem run_of_calls (env : Env) (info : MessageInfo) (cs : List Call) (hc : ∀ c ∈ cs, c.opens = false) :
    Run (rwa env) (historyOf env info cs) (storageAfter env cs) := by
  have hx : ((rwa env).exec (.instantiate info)).Returns (rwa env).initial Response.new .start :=
    (dispatch_returns env _ _ _ _).mpr (.instantiate info)
  have hr := Run.opened (M := rwa env) (c := .instantiate info) rfl hx
  exact hr.replay hc

theorem call_mem_of_mem {env : Env} {info : MessageInfo} {cs : List Call} {e : CallEvent}
    (he : e ∈ historyOf env info cs) : e.call = .instantiate info ∨ e.call ∈ cs := by
  rcases List.mem_cons.mp he with rfl | he
  · exact .inl rfl
  · have hc := List.mem_map_of_mem (f := Event.call) he
    rw [System.calls_replay] at hc
    exact .inr hc

/-! Two accounts that have become contacts, under a configuration with two assets. -/

namespace Sample

def env : Env := ⟨⟨"rwa"⟩⟩
def owner : Addr := ⟨"owner"⟩
def alice : Addr := ⟨"alice"⟩
def bob : Addr := ⟨"bob"⟩

def call (sender : Addr) (msg : ExecuteMsg) : Call := .execute ⟨sender, []⟩ msg

def assets : List Asset := [⟨"Dollar", "uusd", 6, none⟩, ⟨"Euro", "ueur", 6, none⟩]

def profiles : List Call :=
  [call alice (.createProfile "Alice" "" "" "" ""), call bob (.createProfile "Bob" "" "" "" "")]

def befriended : List Call :=
  profiles ++ [call alice (.createRequest bob), call bob (.acceptRequest alice)]

def configured : List Call := befriended ++ [call owner (.setConfig ⟨"nft"⟩ owner assets)]

/-- An invoice over a hundred dollars, of which `declared` are stated to be paid. -/
def terms (declared : Uint128) : InvoiceTerms :=
  { payeeAddress := bob, receivable := ⟨"uusd", 100⟩, amountPaid := ⟨"uusd", declared⟩
    serviceType := .goods, docUri := "doc" }

def invoiceId : U64 := 1000001

def invoiced : List Call :=
  configured ++ [call alice (.createInvoice (terms 0)), call bob (.acceptInvoice invoiceId)]

def pay (denom : String) (amount : Uint128) : Call := .execute ⟨bob, [⟨denom, amount⟩]⟩ (.payInvoice invoiceId)

/-- The run that makes these calls. -/
def history (cs : List Call) : History := historyOf env ⟨owner, []⟩ cs

def storage (cs : List Call) : Storage := storageAfter env cs

theorem run (cs : List Call) (hc : ∀ c ∈ cs, c.opens = false) : Run (rwa env) (history cs) (storage cs) :=
  run_of_calls env ⟨owner, []⟩ cs hc

end Sample

end ComdexRwa.Core
