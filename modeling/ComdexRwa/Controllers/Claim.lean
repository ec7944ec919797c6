import ComdexRwa.Core.Chain
import ComdexRwa.Foundation.Partition
import ComdexRwa.Foundation.Run

/-! Claims: amounts that an address may collect after a time, and what is released of them. -/
namespace ComdexRwa.Controllers
open Foundation Txn
open ComdexRwa.Core (Addr Uint128 StdError)

/-- `ξ` are expirations. -/
structure Claim (ξ : Type) where
  amount : Uint128
  releaseAt : ξ
  deriving DecidableEq, Repr

abbrev ClaimStorage (ξ : Type) := Finmap fun _ : Addr => List (Claim ξ)

/-- The claims of all addresses, under the key that a contract keeps them at. -/
structure Claims where
  storageKey : String
  deriving DecidableEq, Repr

section Model
variable {ξ β : Type} (isExpired : ξ → β → Bool)

def Claims.map (self : Claims) : Table (ClaimStorage ξ) StdError Addr (List (Claim ξ)) :=
  ⟨id, fun m _ => m, fun addr => .notFound "Vec<Claim>" (.map self.storageKey (.addr addr))⟩

def Claims.createClaim (self : Claims) (addr : Addr) (amount : Uint128) (releaseAt : ξ) :
    Txn (ClaimStorage ξ) StdError Unit := do
  let old ← self.map.mayLoad addr
  self.map.save addr (old.getD [] ++ [⟨amount, releaseAt⟩])

/-- Whether one more claim is paid, and what is then sent in all: one that is mature and paid in full without
going over the cap. -/
def paysFully (block : β) (cap : Option Uint128) (toSend : Uint128) (c : Claim ξ) : Option (Bool × Uint128) :=
  if isExpired c.releaseAt block then
    match cap with
    | some limit => do
      let sum ← toSend.checkedAdd c.amount
      if limit < sum then pure (false, toSend) else pure (true, ← toSend.checkedAdd c.amount)
    | none => do pure (true, ← toSend.checkedAdd c.amount)
  else pure (false, toSend)

/-- The claims that are not paid go back to the store in their order. -/
def Claims.claimTokens (self : Claims) (addr : Addr) (block : β) (cap : Option Uint128) :
    Txn (ClaimStorage ξ) StdError Uint128 := do
  let claim ← self.map.mayLoad addr
  let (toSend, _send, waiting) ← expect (partitionBy (paysFully isExpired block cap) 0 (claim.getD []))
  self.map.save addr waiting
  pure toSend

def Claims.queryClaims (self : Claims) (address : Addr) : Txn (ClaimStorage ξ) StdError (List (Claim ξ)) := do
  let claims ← self.map.mayLoad address
  pure (claims.getD [])

end Model

section Specs
variable {ξ β : Type} {isExpired : ξ → β → Bool} {block : β} {cap : Option Uint128} {self : Claims}

/-- The claims of an address that have not been released. -/
def waiting (s : ClaimStorage ξ) (addr : Addr) : List (Claim ξ) := (s.lookup addr).getD []

theorem waiting_insert (s : ClaimStorage ξ) (addr a : Addr) (claims : List (Claim ξ)) :
    waiting (s.insert addr claims) a = if a = addr then claims else waiting s a := by
  unfold waiting
  split
  next h => rw [h, Finmap.lookup_insert, Option.getD_some]
  next h => rw [Finmap.lookup_insert_of_ne _ h]

theorem createClaim_returns (addr : Addr) (amount : Uint128) (releaseAt : ξ) (s : ClaimStorage ξ) (r : Unit)
    (s' : ClaimStorage ξ) : (self.createClaim addr amount releaseAt).Returns s r s' ↔
      s' = s.insert addr (waiting s addr ++ [⟨amount, releaseAt⟩]) := by
  unfold Claims.createClaim
  rw [Table.returns_mayLoad_bind]
  constructor
  · intro h
    cases h
    rfl
  · intro h
    rw [h]
    rfl

theorem claimTokens_returns (addr : Addr) (s : ClaimStorage ξ) (total : Uint128) (s' : ClaimStorage ξ) :
    (self.claimTokens isExpired addr block cap).Returns s total s' ↔
      ∃ sent left, partitionBy (paysFully isExpired block cap) 0 (waiting s addr) = some (total, sent, left) ∧
        s' = s.insert addr left := by
  unfold Claims.claimTokens
  rw [Table.returns_mayLoad_bind, returns_expect_bind]
  constructor
  · rintro ⟨⟨t, sent, left⟩, hparts, h⟩
    rw [Table.returns_save_bind, returns_pure] at h
    obtain ⟨rfl, rfl⟩ := h
    exact ⟨sent, left, hparts, rfl⟩
  · rintro ⟨sent, left, hparts, rfl⟩
    refine ⟨_, hparts, ?_⟩
    rw [Table.returns_save_bind, returns_pure]
    exact ⟨rfl, rfl⟩

theorem queryClaims_returns (addr : Addr) (s : ClaimStorage ξ) : (self.queryClaims addr).Returns s (waiting s addr) s :=
  rfl

/-- A claim is payable, after this much has been paid, when it is mature and the cap is enough for it too. -/
def Payable (isExpired : ξ → β → Bool) (block : β) (cap : Option Uint128) (paid : Nat) (c : Claim ξ) : Prop :=
  isExpired c.releaseAt block = true ∧ ∀ limit, cap = some limit → paid + c.amount.val ≤ limit.val

/-- Everything one claim can come to. -/
private theorem paysFully_cases {toSend t : Uint128} {c : Claim ξ} {pays : Bool}
    (h : paysFully isExpired block cap toSend c = some (pays, t)) :
    (pays = true ∧ Payable isExpired block cap toSend.val c ∧ t.val = toSend.val + c.amount.val) ∨
      (pays = false ∧ ¬ Payable isExpired block cap toSend.val c ∧ t = toSend) := by
  unfold paysFully at h
  split at h
  next hmature =>
    cases cap with
    | none =>
      obtain ⟨sum, hsum, h⟩ := Option.bind_eq_some_iff.mp h
      cases h
      exact .inl ⟨rfl, ⟨hmature, fun _ hcap => nomatch hcap⟩, (Word.checkedAdd_eq_some _ _ _).mp hsum⟩
    | some limit =>
      obtain ⟨sum, hsum, h⟩ := Option.bind_eq_some_iff.mp h
      have hval := (Word.checkedAdd_eq_some _ _ _).mp hsum
      split at h
      next hover =>
        cases h
        refine .inr ⟨rfl, fun hpayable => ?_, rfl⟩
        have hfits := hpayable.2 limit rfl
        rw [← hval] at hfits
        exact absurd hover (not_lt.mpr ((Word.le_iff _ _).mpr hfits))
      next hfits =>
        rw [hsum] at h
        cases h
        refine .inl ⟨rfl, ⟨hmature, fun limit' hcap => ?_⟩, hval⟩
        cases hcap
        rw [← hval]
        exact (Word.le_iff _ _).mp (not_lt.mp hfits)
  next himmature =>
    cases h
    exact .inr ⟨rfl, fun hpayable => himmature hpayable.1, rfl⟩

/-- A claim that stays in range is decided without a panic. -/
private theorem paysFully_some {toSend : Uint128} {c : Claim ξ}
    (h : toSend.val + (if isExpired c.releaseAt block then c.amount.val else 0) < 2 ^ 128) :
    ∃ pays t, paysFully isExpired block cap toSend c = some (pays, t) := by
  unfold paysFully
  split at h
  next hmature =>
    rw [if_pos hmature]
    have hsum : toSend.checkedAdd c.amount = some ⟨toSend.val + c.amount.val, h⟩ :=
      (Word.checkedAdd_eq_some _ _ _).mpr rfl
    rw [hsum]
    cases cap with
    | none => exact ⟨_, _, rfl⟩
    | some limit =>
      simp only [Option.bind_eq_bind, Option.bind_some, Option.pure_def]
      split <;> exact ⟨_, _, rfl⟩
  next himmature =>
    rw [if_neg himmature]
    exact ⟨_, _, rfl⟩

/-- What one collection makes of the claims before it: they are paid from the front on, each one that is then
payable. -/
structure Collected (isExpired : ξ → β → Bool) (block : β) (cap : Option Uint128) (before : List (Claim ξ))
    (total : Uint128) (sent left : List (Claim ξ)) : Prop where
  front : Divided (fun paid => Payable isExpired block cap (paid.map fun c => c.amount.val).sum) [] before sent left
  parts : before.Perm (sent ++ left)
  paidInOrder : sent.Sublist before
  leftInOrder : left.Sublist before
  amount : total.val = (sent.map fun c => c.amount.val).sum
  mature : ∀ c ∈ sent, isExpired c.releaseAt block = true
  within : ∀ limit, cap = some limit → total ≤ limit
  rest : ∀ c ∈ left, isExpired c.releaseAt block = true →
    ∃ limit, cap = some limit ∧ limit.val < total.val + c.amount.val

private theorem sum_paid (paid : List (Claim ξ)) (c : Claim ξ) : ((paid ++ [c]).map fun c => c.amount.val).sum =
    (paid.map fun c => c.amount.val).sum + c.amount.val := by
  rw [List.map_append, List.sum_append, List.map_singleton, List.sum_singleton]

theorem collected_of_parts {before sent left : List (Claim ξ)} {total : Uint128}
    (h : partitionBy (paysFully isExpired block cap) 0 before = some (total, sent, left)) :
    Collected isExpired block cap before total sent left := by
  have hparts := partitionBy_divided (fun paid => Payable isExpired block cap (paid.map fun c => c.amount.val).sum)
    (fun toSend paid => toSend.val = (paid.map fun c => c.amount.val).sum) ?_ ?_ [] Word.val_zero h
  · obtain ⟨hfront, hamount⟩ := hparts
    rw [List.nil_append] at hamount
    refine ⟨hfront, hfront.perm, hfront.taken_sublist, hfront.left_sublist, hamount, ?_, ?_, ?_⟩
    · intro c hc
      obtain ⟨_, hpayable⟩ := hfront.may_of_taken c hc
      exact hpayable.1
    · intro limit hcap
      rw [Word.le_iff, hamount]
      refine hfront.rule (P := fun paid => (paid.map fun c => c.amount.val).sum ≤ limit.val) ?_ (Nat.zero_le _)
      intro paid c _ hpayable
      rw [sum_paid]
      exact hpayable.2 limit hcap
    · intro c hc hmature
      obtain ⟨earlier, later, hsent, hnot⟩ := hfront.not_may_of_left c hc
      rw [List.nil_append] at hsent
      by_contra hnone
      refine hnot ⟨hmature, fun limit hcap => ?_⟩
      have hroom : total.val + c.amount.val ≤ limit.val := not_lt.mp fun hover => hnone ⟨limit, hcap, hover⟩
      rw [hamount, hsent, List.map_append, List.sum_append] at hroom
      exact (Nat.add_le_add_right (Nat.le_add_right _ _) _).trans hroom
  · intro toSend paid c t htells hstep
    rcases paysFully_cases hstep with ⟨_, hpayable, hval⟩ | ⟨hno, _⟩
    · rw [sum_paid, ← htells]
      exact ⟨hpayable, hval⟩
    · cases hno
  · intro toSend paid c t htells hstep
    rcases paysFully_cases hstep with ⟨hno, _⟩ | ⟨_, hnot, rfl⟩
    · cases hno
    · exact ⟨htells ▸ hnot, htells⟩

/-- What is left would not be paid out of the rest of the cap either. -/
private theorem Collected.untaken {before sent left : List (Claim ξ)} {total : Uint128}
    (h : Collected isExpired block cap before total sent left) :
    ∀ c ∈ left, paysFully isExpired block (cap.map fun limit => limit.minus total) 0 c = some (false, 0) := by
  intro c hc
  unfold paysFully
  split
  next hmature =>
    obtain ⟨limit, rfl, hlimit⟩ := h.rest c hc hmature
    have hsum : (0 : Uint128).checkedAdd c.amount = some c.amount := by
      rw [Word.checkedAdd_eq_some, Word.val_zero, Nat.zero_add]
    have hover : limit.minus total < c.amount := by
      have hle := (Word.le_iff _ _).mp (h.within limit rfl)
      rw [Word.lt_iff, Word.val_minus]
      omega
    simp only [Option.map_some, hsum, Option.bind_eq_bind, Option.bind_some, if_pos hover]
    rfl
  next => rfl

/-- A collection is answered as long as the mature claims together are in range. -/
theorem claimTokens_answers (addr : Addr) (block : β) (cap : Option Uint128) (s : ClaimStorage ξ)
    (hfits : (((waiting s addr).filter fun c => isExpired c.releaseAt block).map fun c => c.amount.val).sum < 2 ^ 128) :
    ∃ total s', (self.claimTokens isExpired addr block cap).Returns s total s' := by
  have hparts : ∃ t sent left,
      partitionBy (paysFully isExpired block cap) 0 (waiting s addr) = some (t, sent, left) := by
    apply partitionBy_some Word.val (fun c => if isExpired c.releaseAt block then c.amount.val else 0) ?_
      (fun _ _ => paysFully_some)
    · rw [List.sum_map_ite]
      simpa using hfits
    · intro toSend c pays t hstep
      rcases paysFully_cases hstep with ⟨_, hpayable, hval⟩ | ⟨_, _, rfl⟩
      · rw [if_pos hpayable.1, hval]
      · exact Nat.le_add_right _ _
  obtain ⟨total, sent, left, hparts⟩ := hparts
  exact ⟨total, _, (claimTokens_returns addr s _ _).mpr ⟨sent, left, hparts, rfl⟩⟩

/-- One collection goes through the claims in order and pays each one, in full, that is mature and that the cap is
still enough for; collecting again at once, with what is left of the cap, pays nothing and changes nothing. It
panics at most where the mature claims together are out of range. -/
theorem claimTokens_collects (self : Claims) (addr : Addr) (block : β) (cap : Option Uint128) (s : ClaimStorage ξ) :
    (∀ total s', (self.claimTokens isExpired addr block cap).Returns s total s' →
      ∃ sent left, Collected isExpired block cap (waiting s addr) total sent left ∧ s' = s.insert addr left ∧
        (self.claimTokens isExpired addr block (cap.map fun limit => limit.minus total)).Returns s' 0 s') ∧
    ((((waiting s addr).filter fun c => isExpired c.releaseAt block).map fun c => c.amount.val).sum < 2 ^ 128 →
      ∃ total s', (self.claimTokens isExpired addr block cap).Returns s total s') := by
  constructor
  · intro total s' h
    obtain ⟨sent, left, hparts, rfl⟩ := (claimTokens_returns addr s total s').mp h
    have hcollected := collected_of_parts hparts
    refine ⟨sent, left, hcollected, rfl, ?_⟩
    rw [claimTokens_returns, waiting_insert, if_pos rfl]
    exact ⟨[], left, partitionBy_untaken hcollected.untaken, (Finmap.insert_insert _).symm⟩
  · exact claimTokens_answers addr block cap s

end Specs
end ComdexRwa.Controllers
