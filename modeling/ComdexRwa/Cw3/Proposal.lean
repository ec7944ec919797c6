import ComdexRwa.Core.Chain
import ComdexRwa.Foundation.Rounding

/-! Proposals of a multisig: counting votes, how many are needed, and when a proposal counts as passed or
rejected. A computation without a result panics. -/
namespace ComdexRwa.Cw3
open Foundation
open ComdexRwa.Core (U64 Uint128)

/-- What is used of the chain's decimals: one, a difference, and a share of an amount. -/
structure Decimals (δ : Type) where
  one : δ
  sub : δ → δ → Option δ
  share : δ → Uint128 → Option Uint128

/-- Decimals as documented: whole numbers of units of the eighteenth place. A difference below zero and a
share out of range panic, and a share is rounded down. -/
structure Decimals.Documented {δ : Type} (decimals : Decimals δ) (atomics : δ → Nat) : Prop where
  one : atomics decimals.one = 10 ^ 18
  sub : ∀ p q, atomics q ≤ atomics p → ∃ r, decimals.sub p q = some r ∧ atomics r = atomics p - atomics q
  share : ∀ p n, atomics p * n.val / 10 ^ 18 < 2 ^ 128 →
    ∃ m, decimals.share p n = some m ∧ m.val = atomics p * n.val / 10 ^ 18

/-- Decimals as words of units of the eighteenth place. -/
def Decimals.atomic : Decimals Uint128 where
  one := ⟨10 ^ 18, by decide⟩
  sub := Word.checkedSub
  share p n := if h : p.val * n.val / 10 ^ 18 < 2 ^ 128 then some ⟨p.val * n.val / 10 ^ 18, h⟩ else none

theorem Decimals.atomic_documented : Decimals.atomic.Documented Word.val where
  one := rfl
  sub p q h := ⟨p.minus q, (Word.checkedSub_eq_some _ _ _).mpr ⟨h, rfl⟩, rfl⟩
  share _ _ h := ⟨_, dif_pos h, rfl⟩

inductive Status where
  | pending | «open» | rejected | passed | executed
  deriving DecidableEq, Repr

inductive Vote where
  | yes | no | abstain | veto
  deriving DecidableEq, Repr

structure Votes where
  yes : U64
  no : U64
  abstain : U64
  veto : U64
  deriving DecidableEq, Repr

namespace Votes

def total (votes : Votes) : Option U64 := do
  let sum ← votes.yes.checkedAdd votes.no
  let sum ← sum.checkedAdd votes.abstain
  sum.checkedAdd votes.veto

def addVote (votes : Votes) (vote : Vote) (weight : U64) : Option Votes :=
  match vote with
  | .yes => do pure { votes with yes := ← votes.yes.checkedAdd weight }
  | .abstain => do pure { votes with abstain := ← votes.abstain.checkedAdd weight }
  | .no => do pure { votes with no := ← votes.no.checkedAdd weight }
  | .veto => do pure { votes with veto := ← votes.veto.checkedAdd weight }

/-- All votes together, as a number that is not cut off anywhere. -/
def cast (votes : Votes) : Nat := votes.yes.val + votes.no.val + votes.abstain.val + votes.veto.val

end Votes

inductive Threshold (δ : Type) where
  | absoluteCount (weight : U64)
  | absolutePercentage (percentage : δ)
  | thresholdQuorum (threshold quorum : δ)
  deriving DecidableEq, Repr

/-- The fields of a proposal that its status depends on; `ξ` are expirations. -/
structure Proposal (δ ξ : Type) where
  expires : ξ
  status : Status
  threshold : Threshold δ
  totalWeight : U64
  votes : Votes
  deriving DecidableEq, Repr

/-- Votes are counted in billionths before they are rounded up. -/
def precisionFactor : Nat := 10 ^ 9

section Model
variable {δ ξ β : Type} (decimals : Decimals δ) (isExpired : ξ → β → Bool)

private theorem scaled_lt (weight : U64) : precisionFactor * weight.val < 2 ^ 128 := by
  have hlt := weight.isLt
  unfold precisionFactor
  omega

private theorem precisionFactor_lt : precisionFactor < 2 ^ 128 := by decide

/-- The conversion at the end truncates to the width of a weight. -/
def votesNeeded (weight : U64) (percentage : δ) : Option U64 := do
  let applied ← decimals.share percentage ⟨precisionFactor * weight.val, scaled_lt weight⟩
  let raised ← applied.checkedAdd ⟨precisionFactor, precisionFactor_lt⟩
  let raised ← raised.checkedSub 1
  pure ⟨raised.val / precisionFactor % 2 ^ 64, Nat.mod_lt _ (Nat.two_pow_pos 64)⟩

namespace Proposal

def isPassed (proposal : Proposal δ ξ) (block : β) : Option Bool :=
  match proposal.threshold with
  | .absoluteCount weightNeeded => pure (decide (weightNeeded ≤ proposal.votes.yes))
  | .absolutePercentage percentageNeeded => do
    let opinions ← proposal.totalWeight.checkedSub proposal.votes.abstain
    let needed ← votesNeeded decimals opinions percentageNeeded
    pure (decide (needed ≤ proposal.votes.yes))
  | .thresholdQuorum threshold quorum => do
    let total ← proposal.votes.total
    let needed ← votesNeeded decimals proposal.totalWeight quorum
    if total < needed then pure false
    else if isExpired proposal.expires block then do
      let opinions ← (← proposal.votes.total).checkedSub proposal.votes.abstain
      let needed ← votesNeeded decimals opinions threshold
      pure (decide (needed ≤ proposal.votes.yes))
    else do
      let possibleOpinions ← proposal.totalWeight.checkedSub proposal.votes.abstain
      let needed ← votesNeeded decimals possibleOpinions threshold
      pure (decide (needed ≤ proposal.votes.yes))

/-- Only the votes against are counted here, and not the vetoes. -/
def isRejected (proposal : Proposal δ ξ) (block : β) : Option Bool :=
  match proposal.threshold with
  | .absoluteCount weightNeeded => do
    let weight ← proposal.totalWeight.checkedSub weightNeeded
    pure (decide (weight < proposal.votes.no))
  | .absolutePercentage percentageNeeded => do
    let opinions ← proposal.totalWeight.checkedSub proposal.votes.abstain
    let needed ← votesNeeded decimals opinions (← decimals.sub decimals.one percentageNeeded)
    pure (decide (needed < proposal.votes.no))
  | .thresholdQuorum threshold _ =>
    if isExpired proposal.expires block then do
      let opinions ← (← proposal.votes.total).checkedSub proposal.votes.abstain
      let needed ← votesNeeded decimals opinions (← decimals.sub decimals.one threshold)
      pure (decide (needed < proposal.votes.no))
    else do
      let possibleOpinions ← proposal.totalWeight.checkedSub proposal.votes.abstain
      let needed ← votesNeeded decimals possibleOpinions (← decimals.sub decimals.one threshold)
      pure (decide (needed < proposal.votes.no))

/-- A proposal that is not open keeps its status, and nothing else is computed for it. -/
def currentStatus (proposal : Proposal δ ξ) (block : β) : Option Status := do
  let passed ← if proposal.status = .open then proposal.isPassed decimals isExpired block else pure false
  let status := if passed then .passed else proposal.status
  let rejected ← if status = .open then do
      let rejected ← proposal.isRejected decimals isExpired block
      pure (rejected || isExpired proposal.expires block)
    else pure false
  pure (if rejected then .rejected else status)

def updateStatus (proposal : Proposal δ ξ) (block : β) : Option (Proposal δ ξ) := do
  pure { proposal with status := ← proposal.currentStatus decimals isExpired block }

end Proposal
end Model

/-! What the functions compute, in numbers that are not cut off. -/

private theorem precisionFactor_sq : precisionFactor * precisionFactor = 10 ^ 18 := by
  norm_num [precisionFactor]

private theorem precisionFactor_pos : 0 < precisionFactor := by
  norm_num [precisionFactor]

/-- The number of votes that a share of a weight comes to; a share counts units of the eighteenth place. -/
def needed (share weight : Nat) : Nat := roundedUp precisionFactor (share * weight)

theorem needed_mono (share : Nat) {v w : Nat} (h : v ≤ w) : needed share v ≤ needed share w :=
  roundedUp_mono _ (Nat.mul_le_mul_left share h)

private theorem needed_le {share : Nat} (h : share ≤ 10 ^ 18) (weight : Nat) : needed share weight ≤ weight := by
  apply roundedUp_le precisionFactor_pos
  rw [precisionFactor_sq]
  exact Nat.mul_le_mul_right weight h

/-- A share and the rest of the whole need no fewer votes between them than there are. -/
theorem le_needed_add {share : Nat} (h : share ≤ 10 ^ 18) (weight : Nat) :
    weight ≤ needed share weight + needed (10 ^ 18 - share) weight := by
  apply le_roundedUp_add precisionFactor_pos
  rw [← Nat.add_mul, Nat.add_sub_cancel' h, precisionFactor_sq]

/-- The share is of the whole, or of less. -/
def Threshold.Valid {δ : Type} (atomics : δ → Nat) (totalWeight : U64) : Threshold δ → Prop
  | .absoluteCount weight => weight ≤ totalWeight
  | .absolutePercentage percentage => atomics percentage ≤ 10 ^ 18
  | .thresholdQuorum threshold quorum => atomics threshold ≤ 10 ^ 18 ∧ atomics quorum ≤ 10 ^ 18

private theorem one_val : (1 : Uint128).val = 1 := rfl

section Specs
variable {δ ξ β : Type} {decimals : Decimals δ} {isExpired : ξ → β → Bool} {atomics : δ → Nat}

private theorem Votes.total_eq {votes : Votes} (h : votes.cast < 2 ^ 64) : ∃ total, votes.total = some total ∧
    total.val = votes.cast := by
  unfold Votes.cast at h
  refine ⟨⟨votes.cast, h⟩, ?_, rfl⟩
  have hyesno : votes.yes.checkedAdd votes.no = some ⟨votes.yes.val + votes.no.val, by omega⟩ :=
    (Word.checkedAdd_eq_some _ _ _).mpr rfl
  simp only [Votes.total, hyesno, Option.bind_eq_bind, Option.bind_some]
  have habstain : (⟨votes.yes.val + votes.no.val, by omega⟩ : U64).checkedAdd votes.abstain =
      some ⟨votes.yes.val + votes.no.val + votes.abstain.val, by omega⟩ := (Word.checkedAdd_eq_some _ _ _).mpr rfl
  rw [habstain, Option.bind_some]
  exact (Word.checkedAdd_eq_some _ _ _).mpr rfl

/-- Adding one less than a word, by way of the word. -/
private theorem checkedAdd_pred {w p : Nat} {a b one : Word w} (hone : one.val = 1) (hb : b.val = p) (hp : 0 < p)
    (hsum : a.val + p < 2 ^ w) : ∃ raised r, a.checkedAdd b = some raised ∧ raised.checkedSub one = some r ∧
      r.val = a.val + p - 1 := by
  subst hb
  have hle : one ≤ ⟨a.val + b.val, hsum⟩ := by
    rw [Word.le_iff, hone]
    exact le_add_left hp
  refine ⟨⟨a.val + b.val, hsum⟩, _, (Word.checkedAdd_eq_some _ _ _).mpr rfl,
    (Word.checkedSub_eq_some _ _ _).mpr ⟨hle, rfl⟩, ?_⟩
  rw [Word.val_minus, hone]

/-- A share of a weight in billionths is a number that nothing is cut off of. -/
private theorem share_le {share : Nat} (h : share ≤ 10 ^ 18) (weight : Nat) :
    share * (precisionFactor * weight) / 10 ^ 18 = share * weight / precisionFactor ∧
      share * weight / precisionFactor ≤ precisionFactor * weight := by
  constructor
  · rw [← precisionFactor_sq, Nat.mul_left_comm, Nat.mul_div_mul_left _ _ precisionFactor_pos]
  · apply Nat.div_le_of_le_mul
    rw [← Nat.mul_assoc, precisionFactor_sq]
    exact Nat.mul_le_mul_right _ h

private theorem share_eq (hdoc : decimals.Documented atomics) {percentage : δ} (h : atomics percentage ≤ 10 ^ 18)
    (weight : U64) : ∃ applied,
      decimals.share percentage ⟨precisionFactor * weight.val, scaled_lt weight⟩ = some applied ∧
        applied.val = atomics percentage * weight.val / precisionFactor ∧
          applied.val + precisionFactor < 2 ^ 128 := by
  obtain ⟨hscaled, hle⟩ := share_le h weight.val
  obtain ⟨applied, happlied, hvalue⟩ := hdoc.share percentage ⟨precisionFactor * weight.val, scaled_lt weight⟩
    (lt_of_eq_of_lt hscaled (lt_of_le_of_lt hle (scaled_lt weight)))
  have hvalue : applied.val = atomics percentage * weight.val / precisionFactor := hvalue.trans hscaled
  refine ⟨applied, happlied, hvalue, ?_⟩
  have hweight := weight.isLt
  rw [hvalue]
  unfold precisionFactor at hle ⊢
  omega

/-- With a share of at most the whole, counting the votes needed neither panics nor truncates. -/
private theorem votesNeeded_eq (hdoc : decimals.Documented atomics) {percentage : δ}
    (h : atomics percentage ≤ 10 ^ 18)
    (weight : U64) : ∃ v, votesNeeded decimals weight percentage = some v ∧
      v.val = needed (atomics percentage) weight.val := by
  obtain ⟨applied, happlied, hvalue, hsum⟩ := share_eq hdoc h weight
  obtain ⟨raised, r, hadd, hsub, hr⟩ := checkedAdd_pred (b := ⟨precisionFactor, precisionFactor_lt⟩)
    one_val rfl precisionFactor_pos hsum
  have hneeded : r.val / precisionFactor = needed (atomics percentage) weight.val := by
    rw [needed, roundedUp, Nat.ceilDiv_eq_add_pred_div, hr, hvalue]
  unfold votesNeeded
  rw [happlied, Option.bind_eq_bind, Option.bind_some, hadd, Option.bind_some, hsub, Option.bind_some]
  have hlt : r.val / precisionFactor < 2 ^ 64 := by
    rw [hneeded]
    exact lt_of_le_of_lt (needed_le h weight.val) weight.isLt
  exact ⟨_, rfl, (Nat.mod_eq_of_lt hlt).trans hneeded⟩

/-- The votes needed are the share of the weight rounded up, unless it is less than a billionth of a vote past a
whole number: then they are rounded down. -/
theorem votesNeeded_rounds (hdoc : decimals.Documented atomics) {percentage : δ} (h : atomics percentage ≤ 10 ^ 18)
    (weight : U64) : ∃ v, votesNeeded decimals weight percentage = some v ∧ v ≤ weight ∧
      v.val = if 0 < atomics percentage * weight.val % 10 ^ 18 ∧ atomics percentage * weight.val % 10 ^ 18 < 10 ^ 9
        then atomics percentage * weight.val / 10 ^ 18
        else (atomics percentage * weight.val) ⌈/⌉ 10 ^ 18 := by
  obtain ⟨v, hv, hval⟩ := votesNeeded_eq hdoc h weight
  refine ⟨v, hv, ?_, ?_⟩
  · rw [Word.le_iff, hval]
    exact needed_le h weight.val
  · rw [hval, needed, roundedUp_eq precisionFactor_pos, precisionFactor_sq]
    rfl

/-- Half of two votes, and a little more, needs one vote and not two. -/
theorem votesNeeded_rounds_down : votesNeeded Decimals.atomic ⟨2, by decide⟩ ⟨5 * 10 ^ 17 + 1, by decide⟩ = some 1 := by
  have hvalid : Word.val (⟨5 * 10 ^ 17 + 1, by decide⟩ : Uint128) ≤ 10 ^ 18 := by decide
  obtain ⟨v, hv, -, hval⟩ := votesNeeded_rounds Decimals.atomic_documented hvalid ⟨2, by decide⟩
  rw [hv]
  apply congrArg some
  apply Word.ext
  rw [hval, if_pos (by decide)]
  decide

/-- Every vote is a vote of the total weight, and the threshold is one that can be met. -/
def Proposal.Sound (atomics : δ → Nat) (proposal : Proposal δ ξ) : Prop :=
  proposal.votes.cast ≤ proposal.totalWeight.val ∧ proposal.threshold.Valid atomics proposal.totalWeight

/-- The opinions that a share is taken of: while the vote lasts, those not given yet count too. -/
def Proposal.opinions (proposal : Proposal δ ξ) (expired : Bool) : Nat :=
  (if expired then proposal.votes.cast else proposal.totalWeight.val) - proposal.votes.abstain.val

/-- When a proposal counts as passed. -/
def Proposal.Passes (atomics : δ → Nat) (proposal : Proposal δ ξ) (expired : Bool) : Prop :=
  match proposal.threshold with
  | .absoluteCount weight => weight.val ≤ proposal.votes.yes.val
  | .absolutePercentage percentage =>
    needed (atomics percentage) (proposal.opinions false) ≤ proposal.votes.yes.val
  | .thresholdQuorum threshold quorum =>
    needed (atomics quorum) proposal.totalWeight.val ≤ proposal.votes.cast ∧
      needed (atomics threshold) (proposal.opinions expired) ≤ proposal.votes.yes.val

/-- When a proposal counts as rejected before the vote is over. -/
def Proposal.Fails (atomics : δ → Nat) (proposal : Proposal δ ξ) (expired : Bool) : Prop :=
  match proposal.threshold with
  | .absoluteCount weight => proposal.totalWeight.val - weight.val < proposal.votes.no.val
  | .absolutePercentage percentage =>
    needed (10 ^ 18 - atomics percentage) (proposal.opinions false) < proposal.votes.no.val
  | .thresholdQuorum threshold _ =>
    needed (10 ^ 18 - atomics threshold) (proposal.opinions expired) < proposal.votes.no.val

/-- The opinions are counted without a panic. -/
private theorem Proposal.opinions_eq {proposal : Proposal δ ξ} (h : proposal.votes.cast ≤ proposal.totalWeight.val) :
    (∃ total rest, proposal.votes.total = some total ∧ total.val = proposal.votes.cast ∧
      total.checkedSub proposal.votes.abstain = some rest ∧ rest.val = proposal.opinions true) ∧
    ∃ rest, proposal.totalWeight.checkedSub proposal.votes.abstain = some rest ∧
      rest.val = proposal.opinions false := by
  have habstain : proposal.votes.abstain.val ≤ proposal.votes.cast := by
    unfold Votes.cast
    omega
  obtain ⟨total, htotal, hcast⟩ := Votes.total_eq (lt_of_le_of_lt h proposal.totalWeight.isLt)
  constructor
  · refine ⟨total, _, htotal, hcast, (Word.checkedSub_eq_some _ _ _).mpr ⟨?_, rfl⟩, ?_⟩
    · rwa [Word.le_iff, hcast]
    · rw [Word.val_minus, hcast]
      rfl
  · refine ⟨_, (Word.checkedSub_eq_some _ _ _).mpr ⟨?_, rfl⟩, rfl⟩
    exact (Word.le_iff _ _).mpr (le_trans habstain h)

private theorem rest_eq (hdoc : decimals.Documented atomics) {percentage : δ} (h : atomics percentage ≤ 10 ^ 18)
    (weight : U64) : ∃ rest v, decimals.sub decimals.one percentage = some rest ∧
      votesNeeded decimals weight rest = some v ∧ v.val = needed (10 ^ 18 - atomics percentage) weight.val := by
  obtain ⟨rest, hsub, hrest⟩ := hdoc.sub decimals.one percentage (by rwa [hdoc.one])
  rw [hdoc.one] at hrest
  obtain ⟨v, hv, hval⟩ := votesNeeded_eq hdoc (hrest.trans_le (Nat.sub_le _ _)) weight
  exact ⟨rest, v, hsub, hv, by rw [hval, hrest]⟩

/-- `isPassed` does not panic, and tells whether the proposal passes. -/
theorem Proposal.isPassed_eq (isExpired : ξ → β → Bool) (hdoc : decimals.Documented atomics)
    {proposal : Proposal δ ξ} (hsound : proposal.Sound atomics) (block : β) :
    ∃ passed, proposal.isPassed decimals isExpired block = some passed ∧
      (passed = true ↔ proposal.Passes atomics (isExpired proposal.expires block)) := by
  obtain ⟨hcast, hvalid⟩ := hsound
  obtain ⟨⟨total, opinions, htotal, htotalval, hopinions, hopinionsval⟩, possible, hpossible, hpossibleval⟩ :=
    Proposal.opinions_eq hcast
  unfold Proposal.isPassed Proposal.Passes
  cases hthreshold : proposal.threshold with
  | absoluteCount weight => exact ⟨_, rfl, by rw [decide_eq_true_iff, Word.le_iff]⟩
  | absolutePercentage percentage =>
    rw [hthreshold] at hvalid
    obtain ⟨v, hv, hval⟩ := votesNeeded_eq hdoc hvalid possible
    rw [hpossibleval] at hval
    simp only [hpossible, hv, Option.bind_eq_bind, Option.bind_some]
    exact ⟨_, rfl, by rw [decide_eq_true_iff, Word.le_iff, hval]⟩
  | thresholdQuorum threshold quorum =>
    rw [hthreshold] at hvalid
    obtain ⟨v, hv, hval⟩ := votesNeeded_eq hdoc hvalid.2 proposal.totalWeight
    simp only [htotal, hv, hpossible, hopinions, Option.bind_eq_bind, Option.bind_some]
    rw [← hval, ← htotalval, ← Word.le_iff]
    by_cases hquorum : total < v
    · rw [if_pos hquorum]
      exact ⟨false, rfl, by simp [not_le.mpr hquorum]⟩
    · rw [if_neg hquorum]
      cases hexpired : isExpired proposal.expires block with
      | true =>
        obtain ⟨w, hw, hwval⟩ := votesNeeded_eq hdoc hvalid.1 opinions
        rw [hopinionsval] at hwval
        simp only [hw, Option.bind_some]
        exact ⟨_, rfl, by rw [decide_eq_true_iff, Word.le_iff, hwval, and_iff_right (not_lt.mp hquorum)]⟩
      | false =>
        obtain ⟨w, hw, hwval⟩ := votesNeeded_eq hdoc hvalid.1 possible
        rw [hpossibleval] at hwval
        simp only [hw, Option.bind_some]
        exact ⟨_, rfl, by rw [decide_eq_true_iff, Word.le_iff, hwval, and_iff_right (not_lt.mp hquorum)]⟩

/-- `isRejected` does not panic, and tells whether the proposal fails. -/
theorem Proposal.isRejected_eq (isExpired : ξ → β → Bool) (hdoc : decimals.Documented atomics)
    {proposal : Proposal δ ξ} (hsound : proposal.Sound atomics) (block : β) :
    ∃ rejected, proposal.isRejected decimals isExpired block = some rejected ∧
      (rejected = true ↔ proposal.Fails atomics (isExpired proposal.expires block)) := by
  obtain ⟨hcast, hvalid⟩ := hsound
  obtain ⟨⟨total, opinions, htotal, -, hopinions, hopinionsval⟩, possible, hpossible, hpossibleval⟩ :=
    Proposal.opinions_eq hcast
  unfold Proposal.isRejected Proposal.Fails
  cases hthreshold : proposal.threshold with
  | absoluteCount weight =>
    rw [hthreshold] at hvalid
    have hsub : proposal.totalWeight.checkedSub weight = some (proposal.totalWeight.minus weight) :=
      (Word.checkedSub_eq_some _ _ _).mpr ⟨hvalid, rfl⟩
    simp only [hsub, Option.bind_eq_bind, Option.bind_some]
    exact ⟨_, rfl, by rw [decide_eq_true_iff, Word.lt_iff, Word.val_minus]⟩
  | absolutePercentage percentage =>
    rw [hthreshold] at hvalid
    obtain ⟨rest, v, hrest, hv, hval⟩ := rest_eq hdoc hvalid possible
    rw [hpossibleval] at hval
    simp only [hpossible, hrest, hv, Option.bind_eq_bind, Option.bind_some]
    exact ⟨_, rfl, by rw [decide_eq_true_iff, Word.lt_iff, hval]⟩
  | thresholdQuorum threshold quorum =>
    rw [hthreshold] at hvalid
    simp only [htotal, hpossible, hopinions, Option.bind_eq_bind, Option.bind_some]
    cases hexpired : isExpired proposal.expires block with
    | true =>
      obtain ⟨rest, v, hrest, hv, hval⟩ := rest_eq hdoc hvalid.1 opinions
      rw [hopinionsval] at hval
      simp only [hrest, hv, Option.bind_some]
      exact ⟨_, rfl, by rw [decide_eq_true_iff, Word.lt_iff, hval]⟩
    | false =>
      obtain ⟨rest, v, hrest, hv, hval⟩ := rest_eq hdoc hvalid.1 possible
      rw [hpossibleval] at hval
      simp only [hrest, hv, Option.bind_some]
      exact ⟨_, rfl, by rw [decide_eq_true_iff, Word.lt_iff, hval]⟩

end Specs
end ComdexRwa.Cw3
