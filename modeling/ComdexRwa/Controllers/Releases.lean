import ComdexRwa.Controllers.Claim
import Mathlib.Algebra.Order.BigOperators.Group.Multiset

/-! Claims over time: any addresses create and collect claims in any order, and every claim is waiting or has
been released, once and when it was due. -/
namespace ComdexRwa.Controllers
open Foundation Txn
open ComdexRwa.Core (Addr Uint128 StdError)

inductive ClaimCall (ξ β : Type) where
  | create (addr : Addr) (amount : Uint128) (releaseAt : ξ)
  | collect (addr : Addr) (block : β) (cap : Option Uint128)
  deriving DecidableEq, Repr

/-- A contract that uses the controller. -/
def claims {ξ β : Type} (self : Claims) (isExpired : ξ → β → Bool) :
    System (ClaimStorage ξ) (ClaimCall ξ β) StdError Uint128 where
  initial := ∅
  opens _ := True
  continues _ := True
  exec
    | .create addr amount releaseAt => do
      self.createClaim addr amount releaseAt
      pure 0
    | .collect addr block cap => self.claimTokens isExpired addr block cap

abbrev ClaimEvent (ξ β : Type) := Event (ClaimStorage ξ) (ClaimCall ξ β) StdError Uint128

section History
variable {ξ β : Type}

def ClaimEvent.created (e : ClaimEvent ξ β) (addr : Addr) : Multiset (Claim ξ) :=
  match e.call, e.reply with
  | .create a amount releaseAt, .ok _ => if a = addr then {⟨amount, releaseAt⟩} else 0
  | _, _ => 0

def ClaimEvent.released (e : ClaimEvent ξ β) (addr : Addr) : Nat :=
  match e.call, e.reply with
  | .collect a _ _, .ok total => if a = addr then total.val else 0
  | _, _ => 0

/-- Every claim an address was ever given. -/
def created (h : List (ClaimEvent ξ β)) (addr : Addr) : Multiset (Claim ξ) := (h.map fun e => e.created addr).sum

/-- Everything an address was ever paid. -/
def released (h : List (ClaimEvent ξ β)) (addr : Addr) : Nat := (h.map fun e => e.released addr).sum

private theorem created_append (h : List (ClaimEvent ξ β)) (e : ClaimEvent ξ β) (addr : Addr) :
    created (h ++ [e]) addr = created h addr + e.created addr := by
  simp [created]

private theorem released_append (h : List (ClaimEvent ξ β)) (e : ClaimEvent ξ β) (addr : Addr) :
    released (h ++ [e]) addr = released h addr + e.released addr := by
  simp [released]

end History

/-- The claims together come to this much. -/
def worth {ξ : Type} (claims : Multiset (Claim ξ)) : Nat := (claims.map fun c => c.amount.val).sum

section Laws
variable {ξ β : Type} {self : Claims} {isExpired : ξ → β → Bool} {h : List (ClaimEvent ξ β)} {s s' : ClaimStorage ξ}

/-- Each claim of an address is waiting or has been paid, and was due when it was. -/
structure Accounted (isExpired : ξ → β → Bool) (h : List (ClaimEvent ξ β)) (s : ClaimStorage ξ) (addr : Addr)
    (sent : Multiset (Claim ξ)) : Prop where
  parts : created h addr = ↑(waiting s addr) + sent
  paid : released h addr = worth sent
  due : ∀ c ∈ sent, ∃ e ∈ h, ∃ block cap, e.call = .collect addr block cap ∧ isExpired c.releaseAt block = true

private theorem accounted_start (addr : Addr) :
    Accounted isExpired [] (∅ : ClaimStorage ξ) addr (0 : Multiset (Claim ξ)) :=
  ⟨rfl, rfl, fun _ hc => nomatch Multiset.notMem_zero _ hc⟩

private theorem accounted_created {addr : Addr} {sent : Multiset (Claim ξ)} (hi : Accounted isExpired h s addr sent)
    (a : Addr) (amount : Uint128) (releaseAt : ξ) :
    Accounted isExpired (h ++ [⟨s, .create a amount releaseAt, .ok 0, s.insert a (waiting s a ++ [⟨amount, releaseAt⟩])⟩])
      (s.insert a (waiting s a ++ [⟨amount, releaseAt⟩])) addr sent := by
  refine ⟨?_, ?_, ?_⟩
  · rw [created_append, hi.parts, waiting_insert]
    change _ + (if a = addr then ({⟨amount, releaseAt⟩} : Multiset (Claim ξ)) else 0) = _
    by_cases ha : a = addr
    · subst ha
      rw [if_pos rfl, if_pos rfl, ← Multiset.coe_add, Multiset.coe_singleton, add_right_comm]
    · rw [if_neg ha, if_neg (Ne.symm ha), add_zero]
  · rw [released_append, hi.paid]
    rfl
  · intro c hc
    obtain ⟨e, he, hdue⟩ := hi.due c hc
    exact ⟨e, List.mem_append_left _ he, hdue⟩

private theorem accounted_collected {addr a : Addr} {sent : Multiset (Claim ξ)}
    (hi : Accounted isExpired h s addr sent)
    {block : β} {cap : Option Uint128} {total : Uint128} {paid left : List (Claim ξ)}
    (hc : Collected isExpired block cap (waiting s a) total paid left) :
    Accounted isExpired (h ++ [⟨s, .collect a block cap, .ok total, s.insert a left⟩]) (s.insert a left) addr
      (if a = addr then sent + paid else sent) := by
  refine ⟨?_, ?_, ?_⟩
  · rw [created_append, hi.parts, waiting_insert]
    change _ + 0 = _
    by_cases ha : a = addr
    · subst ha
      have hparts : (waiting s a : Multiset (Claim ξ)) = paid + left := Multiset.coe_eq_coe.mpr hc.parts
      rw [if_pos rfl, if_pos rfl, hparts, add_zero, add_comm (paid : Multiset (Claim ξ)), add_assoc, add_comm _ sent]
    · rw [if_neg ha, if_neg (Ne.symm ha), add_zero]
  · rw [released_append, hi.paid]
    change _ + (if a = addr then total.val else 0) = _
    by_cases ha : a = addr
    · rw [if_pos ha, if_pos ha, worth, worth, Multiset.map_add, Multiset.sum_add, hc.amount, Multiset.map_coe,
        Multiset.sum_coe]
    · rw [if_neg ha, if_neg ha, Nat.add_zero]
  · intro c hmem
    have hold : c ∈ sent → ∃ e ∈ h ++ [⟨s, .collect a block cap, .ok total, s.insert a left⟩], ∃ block cap,
        e.call = .collect addr block cap ∧ isExpired c.releaseAt block = true := by
      intro hc
      obtain ⟨e, he, hdue⟩ := hi.due c hc
      exact ⟨e, List.mem_append_left _ he, hdue⟩
    split at hmem
    next ha =>
      rcases Multiset.mem_add.mp hmem with hmem | hmem
      · exact hold hmem
      · subst ha
        exact ⟨_, List.mem_append_right _ List.mem_cons_self, block, cap, rfl, hc.mature c hmem⟩
    next => exact hold hmem

private theorem accounted_failed {addr : Addr} {sent : Multiset (Claim ξ)} (hi : Accounted isExpired h s addr sent)
    (c : ClaimCall ξ β) (f : Abort StdError) : Accounted isExpired (h ++ [⟨s, c, .error f, s⟩]) s addr sent := by
  refine ⟨?_, ?_, ?_⟩
  · rw [created_append, hi.parts]
    cases c <;> exact add_zero _
  · rw [released_append, hi.paid]
    cases c <;> exact Nat.add_zero _
  · intro c hc
    obtain ⟨e, he, hdue⟩ := hi.due c hc
    exact ⟨e, List.mem_append_left _ he, hdue⟩

/-- One call that returns, as one of the two above. -/
private theorem accounted_returned {addr : Addr} {sent : Multiset (Claim ξ)} (hi : Accounted isExpired h s addr sent)
    {c : ClaimCall ξ β} {r : Uint128} (hret : ((claims self isExpired).exec c).Returns s r s') :
    ∃ sent, Accounted isExpired (h ++ [⟨s, c, .ok r, s'⟩]) s' addr sent := by
  cases c with
  | create a amount releaseAt =>
    obtain ⟨u, t, hcreate, hpure⟩ := (returns_bind _ _ _ _ _).mp hret
    obtain ⟨rfl, rfl⟩ := (returns_pure _ _ _ _).mp hpure
    rw [(createClaim_returns a amount releaseAt s u t).mp hcreate]
    exact ⟨sent, accounted_created hi a amount releaseAt⟩
  | collect a block cap =>
    obtain ⟨paid, left, hparts, rfl⟩ := (claimTokens_returns a s r s').mp hret
    exact ⟨_, accounted_collected hi (collected_of_parts hparts)⟩

/-- In every run, each claim an address was ever given is waiting or was paid, never both; what was paid is what
those claims come to, and each of them was due in a block in which the address collected. -/
private theorem claims_parts (hr : Run (claims self isExpired) h s) (addr : Addr) :
    ∃ sent, Accounted isExpired h s addr sent := by
  refine Run.rule (I := fun h s => ∃ sent, Accounted isExpired h s addr sent) ?_ ?_ ?_ hr
  · intro c r s' _ hret
    exact accounted_returned (accounted_start addr) hret
  · intro h s c r s' _ hi _ hret
    obtain ⟨sent, hi⟩ := hi
    exact accounted_returned hi hret
  · intro h s c f _ hi _ _
    obtain ⟨sent, hi⟩ := hi
    exact ⟨sent, accounted_failed hi c f⟩

/-- What was paid was due by the last collection. -/
private theorem Accounted.due_by [Preorder β] {addr : Addr} {sent : Multiset (Claim ξ)}
    (hi : Accounted isExpired h s addr sent) (hlater : ∀ e : ξ, Monotone (isExpired e)) {last : β}
    (hbefore : ∀ e ∈ h, ∀ block cap, e.call = .collect addr block cap → block ≤ last) :
    ∀ c ∈ sent, isExpired c.releaseAt last = true := by
  intro c hmem
  obtain ⟨e, he, block, cap, hcall, hdue⟩ := hi.due c hmem
  exact hlater c.releaseAt (hbefore e he block cap hcall) hdue

/-- A collection without a cap pays all that is due. -/
private theorem accounted_full {addr : Addr} {sent : Multiset (Claim ξ)} (hi : Accounted isExpired h s addr sent)
    {last : β} (hdue : ∀ c ∈ sent, isExpired c.releaseAt last = true) {total : Uint128}
    (hret : (self.claimTokens isExpired addr last none).Returns s total s') :
    ↑(waiting s' addr) = (created h addr).filter (fun c => ¬ isExpired c.releaseAt last = true) ∧
      released h addr + total.val = worth ((created h addr).filter fun c => isExpired c.releaseAt last = true) := by
  obtain ⟨paid, left, hparts, rfl⟩ := (claimTokens_returns addr s total s').mp hret
  have hc := collected_of_parts hparts
  have hall : ∀ c ∈ sent + (paid : Multiset (Claim ξ)), isExpired c.releaseAt last = true := by
    intro c hmem
    rcases Multiset.mem_add.mp hmem with hmem | hmem
    · exact hdue c hmem
    · exact hc.mature c hmem
  have hundue : ∀ c ∈ (left : Multiset (Claim ξ)), ¬ isExpired c.releaseAt last = true := by
    intro c hmem hmature
    obtain ⟨limit, hcap, _⟩ := hc.rest c hmem hmature
    cases hcap
  have hcreated : created h addr = left + (sent + paid) := by
    have hwaiting : (waiting s addr : Multiset (Claim ξ)) = paid + left := Multiset.coe_eq_coe.mpr hc.parts
    rw [hi.parts, hwaiting, add_comm (paid : Multiset (Claim ξ)), add_assoc, add_comm _ sent]
  obtain ⟨hrest, hpaid⟩ := filter_parts hcreated hundue hall
  rw [hrest, hpaid, waiting_insert, if_pos rfl]
  refine ⟨rfl, ?_⟩
  rw [hi.paid, worth, worth, Multiset.map_add, Multiset.sum_add, hc.amount, Multiset.map_coe, Multiset.sum_coe]

private theorem worth_add (c d : Multiset (Claim ξ)) : worth (c + d) = worth c + worth d := by
  rw [worth, Multiset.map_add, Multiset.sum_add, worth, worth]

/-- What is due of what was ever given is what was paid, and what is due of what is waited for. -/
private theorem worth_due {addr : Addr} {sent : Multiset (Claim ξ)} (hi : Accounted isExpired h s addr sent)
    {last : β} (hdue : ∀ c ∈ sent, isExpired c.releaseAt last = true) :
    worth ((created h addr).filter fun c => isExpired c.releaseAt last = true) = released h addr +
      (((waiting s addr).filter fun c => isExpired c.releaseAt last).map fun c => c.amount.val).sum := by
  rw [hi.parts, hi.paid, Multiset.filter_add, worth_add, Multiset.filter_eq_self.mpr hdue, Nat.add_comm]
  simp [worth]

/-- However an address has collected before, early, in parts or under caps: one collection that has no cap is
answered exactly if what is due and not yet paid is in range. It has then been paid every claim it was ever given
that is due by then, and it is told that it waits for exactly the others. -/
theorem collected_in_full [Preorder β] (hlater : ∀ e : ξ, Monotone (isExpired e)) (hr : Run (claims self isExpired) h s)
    {addr : Addr} {last : β}
    (hbefore : ∀ e ∈ h, ∀ block cap, e.call = .collect addr block cap → block ≤ last) :
    ((∃ total s', (self.claimTokens isExpired addr last none).Returns s total s') ↔
      worth ((created h addr).filter fun c => isExpired c.releaseAt last = true) < released h addr + 2 ^ 128) ∧
    ∀ total s', (self.claimTokens isExpired addr last none).Returns s total s' →
      released h addr + total.val = worth ((created h addr).filter fun c => isExpired c.releaseAt last = true) ∧
      ∃ rest, (self.queryClaims addr).Returns s' rest s' ∧
        ↑rest = (created h addr).filter fun c => ¬ isExpired c.releaseAt last = true := by
  obtain ⟨sent, hi⟩ := claims_parts hr addr
  have hdue := hi.due_by hlater hbefore
  refine ⟨⟨?_, ?_⟩, ?_⟩
  · rintro ⟨total, s', hret⟩
    rw [← (accounted_full hi hdue hret).2]
    exact Nat.add_lt_add_left total.isLt _
  · intro hfits
    rw [worth_due hi hdue] at hfits
    exact claimTokens_answers addr last none s (Nat.lt_of_add_lt_add_left hfits)
  · intro total s' hret
    obtain ⟨hrest, hpaid⟩ := accounted_full hi hdue hret
    exact ⟨hpaid, _, queryClaims_returns addr s', hrest⟩

/-- In every run, an address has been paid what it was ever given less what it waits for, and never more than
what was due to it by its last collection. -/
theorem never_overpaid [Preorder β] (hlater : ∀ e : ξ, Monotone (isExpired e)) (hr : Run (claims self isExpired) h s)
    (addr : Addr) {last : β} (hbefore : ∀ e ∈ h, ∀ block cap, e.call = .collect addr block cap → block ≤ last) :
    released h addr + worth (waiting s addr : Multiset (Claim ξ)) = worth (created h addr) ∧
      released h addr ≤ worth ((created h addr).filter fun c => isExpired c.releaseAt last = true) := by
  obtain ⟨sent, hi⟩ := claims_parts hr addr
  have hdue := hi.due_by hlater hbefore
  rw [hi.parts, hi.paid, worth_add, Multiset.filter_add, Multiset.filter_eq_self.mpr hdue, worth_add]
  exact ⟨Nat.add_comm _ _, Nat.le_add_left _ _⟩

end Laws

/-! Two claims of one address, the first of which is collected early. -/

namespace Sample

def store : Claims := ⟨"claims"⟩

def alice : Addr := ⟨"alice"⟩

/-- A claim is due from a height on. -/
def due (height block : Nat) : Bool := decide (height ≤ block)

private theorem due_monotone (height : Nat) : Monotone (due height) := by
  intro b b' hle hdue
  exact decide_eq_true ((of_decide_eq_true hdue).trans hle)

def given : ClaimStorage Nat := Finmap.insert alice [⟨5, 3⟩] ∅

def history : List (ClaimEvent Nat Nat) :=
  [⟨∅, .create alice 5 3, .ok 0, given⟩] ++
    ((claims store due).replay given [.create alice 7 10, .collect alice 4 (some 20)]).1

def storage : ClaimStorage Nat :=
  ((claims store due).replay given [.create alice 7 10, .collect alice 4 (some 20)]).2

private theorem run : Run (claims store due) history storage := by
  have hr := Run.opened (M := claims store due) (c := .create alice 5 3) trivial (show Returns _ _ 0 given from rfl)
  exact hr.replay fun _ _ => trivial

private theorem collected_by (e : ClaimEvent Nat Nat) (he : e ∈ history) (block : Nat) (cap : Option Uint128)
    (hcall : e.call = .collect alice block cap) : block ≤ 12 := by
  have hmem : e.call ∈ [ClaimCall.create alice 5 3, .create alice 7 10, .collect alice 4 (some 20)] :=
    List.mem_map_of_mem (f := Event.call) he
  rw [hcall] at hmem
  simp only [List.mem_cons, reduceCtorEq, ClaimCall.collect.injEq, List.not_mem_nil, or_false, false_or] at hmem
  obtain ⟨_, rfl, _⟩ := hmem
  decide

end Sample

theorem never_overpaid_of_two :
    released Sample.history Sample.alice + worth (waiting Sample.storage Sample.alice : Multiset (Claim Nat)) =
      worth (created Sample.history Sample.alice) ∧
    released Sample.history Sample.alice ≤
      worth ((created Sample.history Sample.alice).filter fun c => Sample.due c.releaseAt 12 = true) :=
  never_overpaid Sample.due_monotone Sample.run Sample.alice Sample.collected_by

theorem collected_in_full_of_two : ∃ total s', (Sample.store.claimTokens Sample.due Sample.alice 12 none).Returns
      Sample.storage total s' ∧
    released Sample.history Sample.alice + total.val =
      worth ((created Sample.history Sample.alice).filter fun c => Sample.due c.releaseAt 12 = true) ∧
    ∃ rest, (Sample.store.queryClaims Sample.alice).Returns s' rest s' ∧
      ↑rest = (created Sample.history Sample.alice).filter fun c => ¬ Sample.due c.releaseAt 12 = true := by
  obtain ⟨hanswered, hfull⟩ := collected_in_full Sample.due_monotone Sample.run Sample.collected_by
  have hfits : worth ((created Sample.history Sample.alice).filter fun c => Sample.due c.releaseAt 12 = true) <
      released Sample.history Sample.alice + 2 ^ 128 := by decide
  obtain ⟨total, s', hret⟩ := hanswered.mpr hfits
  exact ⟨total, s', hret, hfull total s' hret⟩

end ComdexRwa.Controllers
