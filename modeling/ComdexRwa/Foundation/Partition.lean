import Mathlib.Algebra.BigOperators.Group.List.Basic
import Mathlib.Algebra.Order.Ring.Nat
import Mathlib.Data.Multiset.Filter
import Mathlib.Tactic.Common

/-! Lists that are divided from the front, by a condition that may depend on what was taken before and may
have no answer at all. -/
namespace ComdexRwa.Foundation

section Divided
variable {α : Type}

/-- Elements are taken and left from the front on. One is taken exactly if it may be, after those that were
taken before it. -/
inductive Divided (may : List α → α → Prop) : List α → List α → List α → List α → Prop where
  | nil {before : List α} : Divided may before [] [] []
  | take {before : List α} {a : α} {as taken left : List α} :
      may before a → Divided may (before ++ [a]) as taken left → Divided may before (a :: as) (a :: taken) left
  | leave {before : List α} {a : α} {as taken left : List α} :
      ¬ may before a → Divided may before as taken left → Divided may before (a :: as) taken (a :: left)

namespace Divided
variable {may : List α → α → Prop} {before as taken left : List α}

/-- Nothing gets lost and nothing is taken twice. -/
theorem perm (h : Divided may before as taken left) : as.Perm (taken ++ left) := by
  induction h with
  | nil => exact .nil
  | take _ _ ih => exact ih.cons _
  | leave _ _ ih => exact (ih.cons _).trans List.perm_middle.symm

theorem taken_sublist (h : Divided may before as taken left) : taken.Sublist as := by
  induction h with
  | nil => exact .slnil
  | take _ _ ih => exact ih.cons_cons _
  | leave _ _ ih => exact ih.cons _

theorem left_sublist (h : Divided may before as taken left) : left.Sublist as := by
  induction h with
  | nil => exact .slnil
  | take _ _ ih => exact ih.cons _
  | leave _ _ ih => exact ih.cons_cons _

/-- What each element that is taken hands on holds in the end. -/
theorem rule {P : List α → Prop} (hstep : ∀ before a, P before → may before a → P (before ++ [a]))
    (h : Divided may before as taken left) (hstart : P before) : P (before ++ taken) := by
  induction h with
  | nil => rwa [List.append_nil]
  | @take before a _ _ _ hmay _ ih =>
    have hend := ih (hstep before a hstart hmay)
    rwa [List.append_assoc] at hend
  | leave _ _ ih => exact ih hstart

theorem may_of_taken (h : Divided may before as taken left) : ∀ a ∈ taken, ∃ earlier, may earlier a := by
  induction h with
  | nil => exact fun a ha => (nomatch ha)
  | @take before b _ _ _ hmay _ ih =>
    intro a ha
    rcases List.mem_cons.mp ha with rfl | ha
    · exact ⟨before, hmay⟩
    · exact ih a ha
  | leave _ _ ih => exact ih

/-- What is left might not be taken after some of what was taken in the end. -/
theorem not_may_of_left (h : Divided may before as taken left) :
    ∀ a ∈ left, ∃ earlier later, before ++ taken = earlier ++ later ∧ ¬ may earlier a := by
  induction h with
  | nil => exact fun a ha => (nomatch ha)
  | @take before b _ taken _ _ _ ih =>
    intro a ha
    obtain ⟨earlier, later, heq, hno⟩ := ih a ha
    rw [List.append_assoc] at heq
    exact ⟨earlier, later, heq, hno⟩
  | @leave before b _ taken _ hnot _ ih =>
    intro a ha
    rcases List.mem_cons.mp ha with rfl | ha
    · exact ⟨before, taken, rfl, hnot⟩
    · exact ih a ha

end Divided
end Divided

section Partition
variable {σ α : Type}

/-- What is taken and what is left, each in its old order, with the state that the condition ends in. -/
def partitionBy (step : σ → α → Option (Bool × σ)) : σ → List α → Option (σ × List α × List α)
  | s, [] => some (s, [], [])
  | s, a :: as => do
    let (take, s) ← step s a
    let (s, taken, left) ← partitionBy step s as
    pure (s, if take then a :: taken else taken, if take then left else a :: left)

variable {step : σ → α → Option (Bool × σ)} {s t : σ} {as taken left : List α}

/-- A partition divides the list, when its state tells of what was taken whatever the condition asks. -/
theorem partitionBy_divided (may : List α → α → Prop) (tells : σ → List α → Prop)
    (htake : ∀ s before a u, tells s before → step s a = some (true, u) → may before a ∧ tells u (before ++ [a]))
    (hleave : ∀ s before a u, tells s before → step s a = some (false, u) → ¬ may before a ∧ tells u before)
    (before : List α) (hs : tells s before) (h : partitionBy step s as = some (t, taken, left)) :
    Divided may before as taken left ∧ tells t (before ++ taken) := by
  induction as generalizing s before taken left with
  | nil =>
    cases h
    exact ⟨.nil, by rwa [List.append_nil]⟩
  | cons a as ih =>
    obtain ⟨⟨b, u⟩, hstep, h⟩ := Option.bind_eq_some_iff.mp h
    obtain ⟨⟨t', taken', left'⟩, hrest, h⟩ := Option.bind_eq_some_iff.mp h
    cases b with
    | true =>
      cases h
      obtain ⟨hmay, hu⟩ := htake s before a u hs hstep
      obtain ⟨hdivided, ht⟩ := ih _ hu hrest
      rw [List.append_assoc] at ht
      exact ⟨.take hmay hdivided, ht⟩
    | false =>
      cases h
      obtain ⟨hnot, hu⟩ := hleave s before a u hs hstep
      obtain ⟨hdivided, ht⟩ := ih _ hu hrest
      exact ⟨.leave hnot hdivided, ht⟩

/-- There is a result when every step has one that starts below what is taken in the end, at most. -/
theorem partitionBy_some (measure : σ → Nat) (weight : α → Nat) {bound : Nat}
    (hmeasure : ∀ s a b u, step s a = some (b, u) → measure u ≤ measure s + weight a)
    (hstep : ∀ s a, measure s + weight a < bound → ∃ b u, step s a = some (b, u))
    (h : measure s + (as.map weight).sum < bound) : ∃ t taken left, partitionBy step s as = some (t, taken, left) := by
  induction as generalizing s with
  | nil => exact ⟨s, [], [], rfl⟩
  | cons a as ih =>
    rw [List.map_cons, List.sum_cons, ← Nat.add_assoc] at h
    obtain ⟨b, u, hu⟩ := hstep s a ((Nat.le_add_right _ _).trans_lt h)
    obtain ⟨t, taken, left, hrest⟩ := ih ((Nat.add_le_add_right (hmeasure _ _ _ _ hu) _).trans_lt h)
    refine ⟨t, _, _, Option.bind_eq_some_iff.mpr ⟨_, hu, Option.bind_eq_some_iff.mpr ⟨_, hrest, rfl⟩⟩⟩

/-- Where every element is left as it comes, all of them are. -/
theorem partitionBy_untaken (h : ∀ a ∈ as, step s a = some (false, s)) : partitionBy step s as = some (s, [], as) := by
  induction as with
  | nil => rfl
  | cons a as ih =>
    have hrest := ih fun b hb => h b (List.mem_cons_of_mem a hb)
    exact Option.bind_eq_some_iff.mpr ⟨_, h a List.mem_cons_self, Option.bind_eq_some_iff.mpr ⟨_, hrest, rfl⟩⟩

/-- Two parts of which one meets a condition and the other does not are told apart by it. -/
theorem filter_parts {p : α → Prop} [DecidablePred p] {whole without within : Multiset α} (h : whole = without + within)
    (hwithout : ∀ a ∈ without, ¬ p a) (hwithin : ∀ a ∈ within, p a) :
    whole.filter (fun a => ¬ p a) = without ∧ whole.filter p = within := by
  subst h
  rw [Multiset.filter_add, Multiset.filter_add, Multiset.filter_eq_self.mpr hwithout, Multiset.filter_eq_self.mpr hwithin,
    Multiset.filter_eq_nil.mpr hwithout, Multiset.filter_eq_nil.mpr fun a ha hno => hno (hwithin a ha)]
  exact ⟨Multiset.add_zero _, Multiset.zero_add _⟩

end Partition
end ComdexRwa.Foundation
