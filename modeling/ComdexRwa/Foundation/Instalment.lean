import Mathlib.Logic.Relation
import Mathlib.Tactic.Common

/-! Debts paid in instalments: agreed to once, then paid in parts until nothing is left.
The stage a debt is in tells how much of it has been paid. -/
namespace ComdexRwa.Foundation

/-- How far a debt has come. -/
inductive Stage where
  | proposed | agreed | partly | settled
  deriving DecidableEq, Repr

/-- The stages a debt can be in after one move, itself among them. -/
inductive Stage.Moves : Stage → Stage → Prop where
  | stay (stage : Stage) : Moves stage stage
  | agree : Moves .proposed .agreed
  | begin : Moves .agreed .partly
  | complete : Moves .agreed .settled
  | finish : Moves .partly .settled

/-- The amount owed in all, what has been paid of it, and what is recorded as still due. -/
@[ext] structure Debt where
  amount : Nat
  paid : Nat
  due : Nat
  stage : Stage
  deriving DecidableEq, Repr

namespace Debt

def agree (d : Debt) : Debt := { d with stage := .agreed }

/-- An instalment, after which the due amount is reckoned anew from what has been paid. -/
def pay (d : Debt) (n : Nat) : Debt :=
  { d with
    paid := d.paid + n
    due := d.amount - (d.paid + n)
    stage := if d.paid + n = d.amount then .settled else .partly }

/-- An instalment needs agreement, and never takes more than is left. -/
inductive Step : Debt → Debt → Prop where
  | agree {d : Debt} : d.stage = .proposed → Step d d.agree
  | pay {d : Debt} (n : Nat) : d.stage ≠ .proposed → d.stage ≠ .settled → d.paid + n ≤ d.amount →
      Step d (d.pay n)

/-- What each stage says about the amounts. -/
structure Sound (d : Debt) : Prop where
  unpaid : d.stage = .proposed ∨ d.stage = .agreed → d.paid = 0
  started : d.stage = .partly → 0 < d.paid ∧ d.paid < d.amount
  settled : d.stage = .settled → d.paid = d.amount ∧ d.due = 0

/-- Nothing is owed twice and nothing is forgotten. -/
def Balanced (d : Debt) : Prop := d.due + d.paid = d.amount

section Steps
variable {d d' : Debt}

theorem Sound.within (hs : d.Sound) : d.paid ≤ d.amount := by
  cases hst : d.stage with
  | proposed =>
    have := hs.unpaid (.inl hst)
    omega
  | agreed =>
    have := hs.unpaid (.inr hst)
    omega
  | partly => exact Nat.le_of_lt (hs.started hst).2
  | settled => exact Nat.le_of_eq (hs.settled hst).1

theorem Sound.agree (hs : d.Sound) (hp : d.stage = .proposed) : d.agree.Sound :=
  ⟨fun _ => hs.unpaid (.inl hp), fun h => (nomatch h), fun h => (nomatch h)⟩

/-- An instalment of something keeps every stage true to its amounts. -/
theorem Sound.pay {n : Nat} (hn : 0 < n) (hle : d.paid + n ≤ d.amount) : (d.pay n).Sound := by
  by_cases hfull : d.paid + n = d.amount
  · have hst : (d.pay n).stage = .settled := if_pos hfull
    refine ⟨?_, ?_, ?_⟩
    · rw [hst]
      rintro (h | h) <;> cases h
    · rw [hst]
      exact fun h => (nomatch h)
    · intro _
      exact ⟨hfull, Nat.sub_eq_zero_of_le (Nat.le_of_eq hfull.symm)⟩
  · have hst : (d.pay n).stage = .partly := if_neg hfull
    refine ⟨?_, ?_, ?_⟩
    · rw [hst]
      rintro (h | h) <;> cases h
    · intro _
      exact ⟨Nat.add_pos_right _ hn, Nat.lt_of_le_of_ne hle hfull⟩
    · rw [hst]
      exact fun h => (nomatch h)

private theorem Balanced.pay {n : Nat} (hle : d.paid + n ≤ d.amount) : (d.pay n).Balanced :=
  Nat.sub_add_cancel hle

theorem Step.paid_le (h : Step d d') : d.paid ≤ d'.paid := by
  cases h with
  | agree _ => exact Nat.le_refl _
  | pay n _ _ _ => exact Nat.le_add_right _ n

/-- Any number of steps, none included. -/
abbrev Steps : Debt → Debt → Prop := Relation.ReflTransGen Step

/-- What has been paid stays paid. -/
theorem Steps.paid_le (h : Steps d d') : d.paid ≤ d'.paid := by
  induction h with
  | refl => exact Nat.le_refl _
  | tail _ hs ih => exact Nat.le_trans ih hs.paid_le

theorem Step.moves (h : Step d d') : d.stage.Moves d'.stage := by
  cases h with
  | agree hp =>
    rw [hp]
    exact .agree
  | pay n hagreed hopen hle =>
    have hst : (d.pay n).stage = .settled ∨ (d.pay n).stage = .partly := by
      by_cases hfull : d.paid + n = d.amount
      · exact .inl (if_pos hfull)
      · exact .inr (if_neg hfull)
    cases hd : d.stage with
    | proposed => exact (hagreed hd).elim
    | settled => exact (hopen hd).elim
    | agreed =>
      rcases hst with h | h
      · rw [h]
        exact .complete
      · rw [h]
        exact .begin
    | partly =>
      rcases hst with h | h
      · rw [h]
        exact .finish
      · rw [h]
        exact .stay _

theorem Step.balanced (h : Step d d') (hb : d.Balanced) : d'.Balanced := by
  cases h with
  | agree _ => exact hb
  | pay n _ _ hle => exact .pay hle

end Steps
end Debt
end ComdexRwa.Foundation
