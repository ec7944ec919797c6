import ComdexRwa.Foundation.Register
import Mathlib.Algebra.BigOperators.Group.Finset.Piecewise
import Mathlib.Algebra.Order.BigOperators.Group.Finset
import Mathlib.Algebra.Order.Ring.Nat

/-! Sums over the entries of a table, along a register of some of them and split by owner. -/
namespace ComdexRwa.Foundation
open Finset

variable {κ α β : Type} [DecidableEq κ] [DecidableEq β]

/-- The weights of all entries of a table. -/
def tally (m : Finmap fun _ : κ => α) (w : α → Nat) : Nat := ∑ k ∈ m.keys, (m.lookup k).elim 0 w

variable {m : Finmap fun _ : κ => α}

/-- Summing along a register takes the entries that meet its condition. -/
theorem Registers.sum_eq [LinearOrder κ] {p : α → Prop} [DecidablePred p] {l : List κ} (h : Registers m p l)
    (w : α → Nat) : (l.map fun k => (m.lookup k).elim 0 w).sum = tally m fun a => if p a then w a else 0 := by
  have hnodup : l.Nodup := h.sorted.imp fun hlt => ne_of_lt hlt
  have hin (k : κ) (hk : k ∈ l.toFinset) : ∃ a, m.lookup k = some a ∧ p a :=
    (h.mem_iff k).mp (List.mem_toFinset.mp hk)
  have hlisted : ∑ k ∈ l.toFinset, (m.lookup k).elim 0 w =
      ∑ k ∈ l.toFinset, (m.lookup k).elim 0 fun a => if p a then w a else 0 := by
    apply sum_congr rfl
    intro k hk
    obtain ⟨a, ha, hp⟩ := hin k hk
    simp [ha, hp]
  rw [← List.sum_toFinset _ hnodup, hlisted]
  apply sum_subset
  · intro k hk
    obtain ⟨a, ha, _⟩ := hin k hk
    exact Finmap.mem_keys.mpr (Finmap.mem_of_lookup_eq_some ha)
  · intro k hk hout
    obtain ⟨a, ha⟩ := Finmap.mem_iff.mp (Finmap.mem_keys.mp hk)
    have hno : ¬ p a := by
      intro hp
      exact hout (List.mem_toFinset.mpr ((h.mem_iff k).mpr ⟨a, ha, hp⟩))
    simp [ha, hno]

/-- Summing by owner over all owners takes every entry once. -/
theorem sum_tally_owner (f : α → β) (w : α → Nat) (owners : Finset β)
    (hf : ∀ k a, m.lookup k = some a → f a ∈ owners) :
    ∑ b ∈ owners, tally m (fun a => if f a = b then w a else 0) = tally m w := by
  unfold tally
  rw [sum_comm]
  apply sum_congr rfl
  intro k hk
  obtain ⟨a, ha⟩ := Finmap.mem_iff.mp (Finmap.mem_keys.mp hk)
  rw [ha]
  change ∑ b ∈ owners, (if f a = b then w a else 0) = w a
  rw [sum_ite_eq, if_pos (hf k a ha)]

/-- A smaller weight has a smaller sum. -/
theorem tally_mono {v w : α → Nat} (h : ∀ a, v a ≤ w a) : tally m v ≤ tally m w := by
  apply sum_le_sum
  intro k _
  cases m.lookup k with
  | none => exact le_refl 0
  | some a => exact h a

private theorem keys_insert (m : Finmap fun _ : κ => α) (k : κ) (a : α) : (m.insert k a).keys = insert k m.keys := by
  ext j
  rw [Finmap.mem_keys, Finmap.mem_insert, Finset.mem_insert, Finmap.mem_keys]

/-- Under other keys, an insertion changes no weight. -/
private theorem sum_insert_of_notMem {keys : Finset κ} {k : κ} (hk : k ∉ keys) (a : α) (w : α → Nat) :
    ∑ j ∈ keys, ((m.insert k a).lookup j).elim 0 w = ∑ j ∈ keys, (m.lookup j).elim 0 w := by
  apply sum_congr rfl
  intro j hj
  have hne : j ≠ k := fun h => hk (h ▸ hj)
  rw [Finmap.lookup_insert_of_ne _ hne]

/-- A new entry adds its weight. -/
theorem tally_insert {k : κ} (hk : k ∉ m) (a : α) (w : α → Nat) : tally (m.insert k a) w = tally m w + w a := by
  have hk : k ∉ m.keys := fun h => hk (Finmap.mem_keys.mp h)
  unfold tally
  rw [keys_insert, sum_insert hk, Finmap.lookup_insert, sum_insert_of_notMem hk]
  exact Nat.add_comm _ _

/-- An entry that is overwritten gives up its weight for the new one. -/
theorem tally_update {k : κ} {b : α} (hk : m.lookup k = some b) (a : α) (w : α → Nat) :
    tally (m.insert k a) w + w b = tally m w + w a := by
  have hmem : k ∈ m.keys := Finmap.mem_keys.mpr (Finmap.mem_of_lookup_eq_some hk)
  unfold tally
  rw [keys_insert, insert_eq_of_mem hmem, ← add_sum_erase _ _ hmem, ← add_sum_erase m.keys _ hmem,
    Finmap.lookup_insert, hk, sum_insert_of_notMem (notMem_erase k m.keys)]
  change w a + _ + w b = w b + _ + w a
  omega

/-- An entry that is overwritten by one of no more weight raises no sum. -/
theorem tally_insert_le {k : κ} {a b : α} {w : α → Nat} (hk : m.lookup k = some b) (hw : w a ≤ w b) :
    tally (m.insert k a) w ≤ tally m w := by
  have hmem : k ∈ m.keys := Finmap.mem_keys.mpr (Finmap.mem_of_lookup_eq_some hk)
  unfold tally
  rw [keys_insert, insert_eq_of_mem hmem]
  apply sum_le_sum
  intro j _
  by_cases hj : j = k
  · rw [hj, Finmap.lookup_insert, hk]
    exact hw
  · rw [Finmap.lookup_insert_of_ne _ hj]

end ComdexRwa.Foundation
