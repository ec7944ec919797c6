import Mathlib.Data.Finmap
import Mathlib.Data.List.Sort

/-! Registers of a table: increasing lists of the keys whose entries meet a condition.
New keys are larger than all before, and an entry that changes keeps what it is registered for. -/
namespace ComdexRwa.Foundation
variable {κ α : Type} [DecidableEq κ]

/-- Looking up after one insertion. -/
theorem lookup_insert_eq_some {m : Finmap fun _ : κ => α} {k x : κ} {a b : α} :
    (m.insert k a).lookup x = some b ↔ (x = k ∧ a = b) ∨ (x ≠ k ∧ m.lookup x = some b) := by
  by_cases hx : x = k
  · subst hx
    simp
  · simp [hx, Finmap.lookup_insert_of_ne]

/-- Rewriting an entry adds no key. -/
theorem mem_insert_of_mem {m : Finmap fun _ : κ => α} {k j : κ} {a : α} (hk : k ∈ m) :
    j ∈ m.insert k a ↔ j ∈ m := by
  rw [Finmap.mem_insert]
  refine ⟨fun hj => ?_, .inr⟩
  rcases hj with rfl | hj
  · exact hk
  · exact hj

/-- A statement about all entries, split at one key: after that key was written, -/
theorem forall_lookup_insert {m : Finmap fun _ : κ => α} {k : κ} {a : α} {P : κ → α → Prop} :
    (∀ j b, (m.insert k a).lookup j = some b → P j b) ↔
      P k a ∧ ∀ j b, j ≠ k → m.lookup j = some b → P j b := by
  constructor
  · intro h
    exact ⟨h k a (Finmap.lookup_insert m), fun j b hj hb => h j b (lookup_insert_eq_some.mpr (.inr ⟨hj, hb⟩))⟩
  · rintro ⟨hk, h⟩ j b hb
    rcases lookup_insert_eq_some.mp hb with ⟨rfl, rfl⟩ | ⟨hj, hb⟩
    · exact hk
    · exact h j b hj hb

/-- when it holds an entry, -/
theorem forall_lookup_of_some {m : Finmap fun _ : κ => α} {k : κ} {a : α} {P : κ → α → Prop}
    (hk : m.lookup k = some a) :
    (∀ j b, m.lookup j = some b → P j b) ↔ P k a ∧ ∀ j b, j ≠ k → m.lookup j = some b → P j b := by
  constructor
  · exact fun h => ⟨h k a hk, fun j b _ hb => h j b hb⟩
  · rintro ⟨ha, h⟩ j b hb
    by_cases hj : j = k
    · subst hj
      cases hk.symm.trans hb
      exact ha
    · exact h j b hj hb

/-- and when it holds none. -/
theorem forall_lookup_of_none {m : Finmap fun _ : κ => α} {k : κ} {P : κ → α → Prop} (hk : k ∉ m) :
    (∀ j b, m.lookup j = some b → P j b) ↔ ∀ j b, j ≠ k → m.lookup j = some b → P j b := by
  refine ⟨fun h j b _ hb => h j b hb, fun h j b hb => h j b ?_ hb⟩
  rintro rfl
  exact hk (Finmap.mem_of_lookup_eq_some hb)

/-- The list names exactly the entries that meet the condition, each once and in increasing order. -/
structure Registers [LT κ] (m : Finmap fun _ : κ => α) (p : α → Prop) (l : List κ) : Prop where
  sorted : l.Pairwise (· < ·)
  mem_iff : ∀ k, k ∈ l ↔ ∃ a, m.lookup k = some a ∧ p a

namespace Registers
variable [LinearOrder κ] {m : Finmap fun _ : κ => α} {p : α → Prop} {l l' : List κ} {k : κ} {a b : α}

/-- A table has one register for each condition. -/
theorem iff_eq (h : Registers m p l) : Registers m p l' ↔ l' = l := by
  constructor
  · intro h'
    apply h'.sorted.eq_of_mem_iff h.sorted
    intro k
    rw [h.mem_iff, h'.mem_iff]
  · rintro rfl
    exact h

theorem empty : Registers (∅ : Finmap fun _ : κ => α) p [] := by
  refine ⟨.nil, fun k => ?_⟩
  simp

/-- A new entry that meets the condition goes to the end. -/
theorem append (h : Registers m p l) (hmax : ∀ j ∈ m, j < k) (hp : p a) :
    Registers (m.insert k a) p (l ++ [k]) := by
  have hlt (j : κ) (hj : j ∈ l) : j < k := by
    obtain ⟨c, hc, _⟩ := (h.mem_iff j).mp hj
    exact hmax j (Finmap.mem_of_lookup_eq_some hc)
  constructor
  · rw [List.pairwise_append]
    refine ⟨h.sorted, List.pairwise_singleton _ _, fun j hj i hi => ?_⟩
    rw [List.mem_singleton.mp hi]
    exact hlt j hj
  · intro j
    rw [List.mem_append, List.mem_singleton, h.mem_iff]
    constructor
    · intro hx
      rcases hx with ⟨c, hc, hpc⟩ | rfl
      · have hne : j ≠ k := ne_of_lt (hmax j (Finmap.mem_of_lookup_eq_some hc))
        exact ⟨c, lookup_insert_eq_some.mpr (.inr ⟨hne, hc⟩), hpc⟩
      · exact ⟨a, lookup_insert_eq_some.mpr (.inl ⟨rfl, rfl⟩), hp⟩
    · intro hx
      obtain ⟨c, hc, hpc⟩ := hx
      rcases lookup_insert_eq_some.mp hc with ⟨hj, _⟩ | ⟨_, hc⟩
      · exact .inr hj
      · exact .inl ⟨c, hc, hpc⟩

/-- A new entry that does not meet the condition is not listed. -/
theorem skip (h : Registers m p l) (hnew : k ∉ m) (hp : ¬ p a) : Registers (m.insert k a) p l := by
  refine ⟨h.sorted, fun j => ?_⟩
  rw [h.mem_iff]
  constructor
  · intro hx
    obtain ⟨c, hc, hpc⟩ := hx
    have hne : j ≠ k := fun hj => hnew (hj ▸ Finmap.mem_of_lookup_eq_some hc)
    exact ⟨c, lookup_insert_eq_some.mpr (.inr ⟨hne, hc⟩), hpc⟩
  · intro hx
    obtain ⟨c, hc, hpc⟩ := hx
    rcases lookup_insert_eq_some.mp hc with ⟨_, rfl⟩ | ⟨_, hc⟩
    · exact (hp hpc).elim
    · exact ⟨c, hc, hpc⟩

/-- An entry that changes without changing the condition leaves the register alone. -/
theorem update (h : Registers m p l) (hk : m.lookup k = some a) (hp : p b ↔ p a) :
    Registers (m.insert k b) p l := by
  refine ⟨h.sorted, fun j => ?_⟩
  rw [h.mem_iff]
  by_cases hj : j = k
  · subst hj
    simp [hk, hp]
  · simp [Finmap.lookup_insert_of_ne _ hj]

end Registers
end ComdexRwa.Foundation
