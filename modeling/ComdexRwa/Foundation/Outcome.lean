import ComdexRwa.Foundation.Transaction

/-! Calls that do not return: with which error or panic they end, and on which store.
Every primitive of a transaction has one rule, and the rules compose along a sequence. -/
namespace ComdexRwa.Foundation

namespace Txn
variable {σ ε α β : Type}

/-- The call started on `s` is cut off by `e` and leaves the store `s'` behind. -/
def Aborts (x : Txn σ ε α) (s : σ) (e : Abort ε) (s' : σ) : Prop := x.run s = .error e s'

/-- The call started on `s` panics, wherever it then stands. -/
def Panics (x : Txn σ ε α) (s : σ) : Prop := ∃ s', x.Aborts s .panic s'

/-- The call started on `s` comes back, with a result or with an error. -/
def Answers (x : Txn σ ε α) (s : σ) : Prop := (∃ a s', x.Returns s a s') ∨ ∃ e s', x.Aborts s (.error e) s'

theorem returns_or_aborts (x : Txn σ ε α) (s : σ) : (∃ a s', x.Returns s a s') ∨ ∃ e s', x.Aborts s e s' := by
  cases hx : x.run s with
  | ok a s' => exact .inl ⟨a, s', hx⟩
  | error e s' => exact .inr ⟨e, s', hx⟩

theorem Returns.not_aborts {x : Txn σ ε α} {s s' t : σ} {a : α} {e : Abort ε} (h : x.Returns s a s') :
    ¬ x.Aborts s e t := by
  intro ha
  cases h.symm.trans ha

theorem Aborts.unique {x : Txn σ ε α} {s s' t : σ} {e f : Abort ε} (h : x.Aborts s e s')
    (h' : x.Aborts s f t) : e = f ∧ s' = t := by
  have he := h.symm.trans h'
  cases he
  exact ⟨rfl, rfl⟩

/-- A call comes back exactly when it does not panic. -/
theorem answers_iff (x : Txn σ ε α) (s : σ) : x.Answers s ↔ ¬ x.Panics s := by
  constructor
  · intro h hp
    obtain ⟨t, hp⟩ := hp
    rcases h with ⟨a, s', hx⟩ | ⟨e, s', hx⟩
    · exact hx.not_aborts hp
    · cases (hx.unique hp).1
  · intro hno
    rcases x.returns_or_aborts s with hx | ⟨_ | _, s', hx⟩
    · exact .inl hx
    · exact .inr ⟨_, s', hx⟩
    · exact (hno ⟨s', hx⟩).elim

@[simp] theorem aborts_pure (a : α) (s : σ) (e : Abort ε) (s' : σ) :
    Aborts (pure a : Txn σ ε α) s e s' ↔ False :=
  ⟨fun h => (nomatch h), False.elim⟩

@[simp] theorem aborts_throw (e f : Abort ε) (s s' : σ) :
    Aborts (throw e : Txn σ ε α) s f s' ↔ e = f ∧ s = s' := by
  change EStateM.Result.error e s = .error f s' ↔ e = f ∧ s = s'
  rw [EStateM.Result.error.injEq]

/-- A sequence is cut off in its first half, or in the second after the first has returned. -/
theorem aborts_bind (x : Txn σ ε α) (f : α → Txn σ ε β) (s : σ) (e : Abort ε) (s' : σ) :
    Aborts (x >>= f) s e s' ↔ x.Aborts s e s' ∨ ∃ a t, x.Returns s a t ∧ (f a).Aborts t e s' := by
  unfold Aborts Returns
  rw [EStateM.run_bind]
  cases hx : x.run s with
  | ok a t => simp
  | error f t => simp

theorem aborts_bind_of_run {x : Txn σ ε α} {s t : σ} {a : α} (hx : x.Returns s a t) (f : α → Txn σ ε β)
    (e : Abort ε) (s' : σ) : Aborts (x >>= f) s e s' ↔ (f a).Aborts t e s' := by
  rw [aborts_bind]
  constructor
  · intro h
    rcases h with h | ⟨a', t', h, hf⟩
    · exact (hx.not_aborts h).elim
    · obtain ⟨rfl, rfl⟩ := hx.unique h
      exact hf
  · exact fun hf => .inr ⟨a, t, hx, hf⟩

theorem aborts_bind_of_aborts {x : Txn σ ε α} {s t : σ} {e : Abort ε} (hx : x.Aborts s e t)
    (f : α → Txn σ ε β) (e' : Abort ε) (s' : σ) : Aborts (x >>= f) s e' s' ↔ e = e' ∧ t = s' := by
  rw [aborts_bind]
  constructor
  · intro h
    rcases h with h | ⟨a, t', h, _⟩
    · exact hx.unique h
    · exact (h.not_aborts hx).elim
  · intro h
    obtain ⟨rfl, rfl⟩ := h
    exact .inl hx

@[simp] theorem aborts_ensure_bind (p : Prop) [Decidable p] (e : ε) (f : Unit → Txn σ ε β) (s : σ)
    (a : Abort ε) (s' : σ) : Aborts (ensure p e >>= f) s a s' ↔
      (¬ p ∧ .error e = a ∧ s = s') ∨ (p ∧ (f ()).Aborts s a s') := by
  by_cases hp : p
  · simp only [hp, not_true_eq_false, false_and, true_and, false_or]
    exact aborts_bind_of_run (by simp [ensure, hp]) f a s'
  · simp only [hp, not_false_eq_true, true_and, false_and, or_false]
    exact aborts_bind_of_aborts (by simp [ensure, hp]) f a s'

@[simp] theorem aborts_okOr_bind (e : ε) (o : Option α) (f : α → Txn σ ε β) (s : σ) (a : Abort ε) (s' : σ) :
    Aborts (okOr e o >>= f) s a s' ↔
      (o = none ∧ .error e = a ∧ s = s') ∨ ∃ x, o = some x ∧ (f x).Aborts s a s' := by
  cases o with
  | none => simpa using aborts_bind_of_aborts (by simp [okOr]) f a s'
  | some x => simpa using aborts_bind_of_run (by simp [okOr]) f a s'

@[simp] theorem aborts_expect_bind (o : Option α) (f : α → Txn σ ε β) (s : σ) (a : Abort ε) (s' : σ) :
    Aborts (expect o >>= f) s a s' ↔ (o = none ∧ .panic = a ∧ s = s') ∨ ∃ x, o = some x ∧ (f x).Aborts s a s' := by
  cases o with
  | none => simpa using aborts_bind_of_aborts (by simp [expect]) f a s'
  | some x => simpa using aborts_bind_of_run (by simp [expect]) f a s'

/-! A guard or a missing value answers with an error, so a panic lies further on. -/

@[simp] theorem panics_pure (a : α) (s : σ) : Panics (pure a : Txn σ ε α) s ↔ False := by
  simp [Panics]

@[simp] theorem panics_ensure_bind (p : Prop) [Decidable p] (e : ε) (f : Unit → Txn σ ε β) (s : σ) :
    Panics (ensure p e >>= f) s ↔ p ∧ (f ()).Panics s := by
  simp [Panics]

@[simp] theorem panics_okOr_bind (e : ε) (o : Option α) (f : α → Txn σ ε β) (s : σ) :
    Panics (okOr e o >>= f) s ↔ ∃ x, o = some x ∧ (f x).Panics s := by
  cases o with
  | none => simp [Panics]
  | some x => simp [Panics]

@[simp] theorem panics_expect_bind (o : Option α) (f : α → Txn σ ε β) (s : σ) :
    Panics (expect o >>= f) s ↔ o = none ∨ ∃ x, o = some x ∧ (f x).Panics s := by
  cases o with
  | none => simp [Panics]
  | some x => simp [Panics]

/-- A step that returns hands on to the rest. -/
theorem panics_bind_of_run {x : Txn σ ε α} {s t : σ} {a : α} (hx : x.Returns s a t) (f : α → Txn σ ε β) :
    Panics (x >>= f) s ↔ (f a).Panics t :=
  exists_congr fun s' => aborts_bind_of_run hx f .panic s'

end Txn

/-! Reading and writing a cell is never cut off; loading an empty one is. -/

namespace Item
variable {σ ε α β : Type} (cell : Item σ ε α)

@[simp] theorem aborts_mayLoad_bind (f : Option α → Txn σ ε β) (s : σ) (a : Abort ε) (s' : σ) :
    Txn.Aborts (cell.mayLoad >>= f) s a s' ↔ (f (cell.read s)).Aborts s a s' :=
  Txn.aborts_bind_of_run (show cell.mayLoad.Returns s (cell.read s) s from rfl) f a s'

@[simp] theorem aborts_load_bind (f : α → Txn σ ε β) (s : σ) (a : Abort ε) (s' : σ) :
    Txn.Aborts (cell.load >>= f) s a s' ↔ (cell.read s = none ∧ .error cell.absent = a ∧ s = s') ∨
      ∃ x, cell.read s = some x ∧ (f x).Aborts s a s' := by
  rw [load, bind_assoc, aborts_mayLoad_bind, Txn.aborts_okOr_bind]

@[simp] theorem aborts_save_bind (x : α) (f : Unit → Txn σ ε β) (s : σ) (a : Abort ε) (s' : σ) :
    Txn.Aborts (cell.save x >>= f) s a s' ↔ (f ()).Aborts (cell.write x s) a s' :=
  Txn.aborts_bind_of_run (show (cell.save x).Returns s () (cell.write x s) from rfl) f a s'

@[simp] theorem panics_mayLoad_bind (f : Option α → Txn σ ε β) (s : σ) :
    Txn.Panics (cell.mayLoad >>= f) s ↔ (f (cell.read s)).Panics s := by
  simp [Txn.Panics]

@[simp] theorem panics_load_bind (f : α → Txn σ ε β) (s : σ) :
    Txn.Panics (cell.load >>= f) s ↔ ∃ x, cell.read s = some x ∧ (f x).Panics s := by
  rw [load, bind_assoc, panics_mayLoad_bind, Txn.panics_okOr_bind]

@[simp] theorem panics_save_bind (x : α) (f : Unit → Txn σ ε β) (s : σ) :
    Txn.Panics (cell.save x >>= f) s ↔ (f ()).Panics (cell.write x s) := by
  simp [Txn.Panics]

end Item

namespace Table
variable {σ ε κ α β : Type} [DecidableEq κ] (table : Table σ ε κ α) (k : κ)

@[simp] theorem aborts_mayLoad_bind (f : Option α → Txn σ ε β) (s : σ) (a : Abort ε) (s' : σ) :
    Txn.Aborts (table.mayLoad k >>= f) s a s' ↔ (f ((table.read s).lookup k)).Aborts s a s' :=
  Txn.aborts_bind_of_run (show (table.mayLoad k).Returns s ((table.read s).lookup k) s from rfl) f a s'

@[simp] theorem aborts_save_bind (x : α) (f : Unit → Txn σ ε β) (s : σ) (a : Abort ε) (s' : σ) :
    Txn.Aborts (table.save k x >>= f) s a s' ↔
      (f ()).Aborts (table.write ((table.read s).insert k x) s) a s' :=
  Txn.aborts_bind_of_run
    (show (table.save k x).Returns s () (table.write ((table.read s).insert k x) s) from rfl) f a s'

@[simp] theorem panics_mayLoad_bind (f : Option α → Txn σ ε β) (s : σ) :
    Txn.Panics (table.mayLoad k >>= f) s ↔ (f ((table.read s).lookup k)).Panics s := by
  simp [Txn.Panics]

@[simp] theorem panics_load_bind (f : α → Txn σ ε β) (s : σ) :
    Txn.Panics (table.load k >>= f) s ↔ ∃ x, (table.read s).lookup k = some x ∧ (f x).Panics s := by
  rw [load, bind_assoc, panics_mayLoad_bind, Txn.panics_okOr_bind]

@[simp] theorem panics_save_bind (x : α) (f : Unit → Txn σ ε β) (s : σ) :
    Txn.Panics (table.save k x >>= f) s ↔ (f ()).Panics (table.write ((table.read s).insert k x) s) := by
  simp [Txn.Panics]

end Table

/-- A call whose errors another call passes on as its own. -/
def Txn.mapErr {σ ε ε' α : Type} (f : ε → ε') (x : Txn σ ε α) : Txn σ ε' α := fun s =>
  match x.run s with
  | .ok a s' => .ok a s'
  | .error (.error e) s' => .error (.error (f e)) s'
  | .error .panic s' => .error .panic s'

theorem Item.load_returns {σ ε α : Type} {cell : Item σ ε α} {s : σ} {a : α} (h : cell.read s = some a) :
    Txn.Returns cell.load s a s := by
  rw [← bind_pure cell.load, Item.returns_load_bind]
  exact ⟨a, h, (Txn.returns_pure _ _ _ _).mpr ⟨rfl, rfl⟩⟩

theorem Item.load_aborts {σ ε α : Type} {cell : Item σ ε α} {s : σ} (h : cell.read s = none) :
    Txn.Aborts cell.load s (.error cell.absent) s := by
  rw [← bind_pure cell.load, Item.aborts_load_bind]
  exact .inl ⟨h, rfl, rfl⟩

section Wrapping
variable {σ ε ε' α : Type} {x : Txn σ ε α} {s s' : σ}

theorem Txn.Returns.mapErr (f : ε → ε') {a : α} (h : x.Returns s a s') : (x.mapErr f).Returns s a s' := by
  simp only [Txn.Returns, EStateM.run, Txn.mapErr] at h ⊢
  rw [h]

theorem Txn.Aborts.mapErr (f : ε → ε') {e : ε} (h : x.Aborts s (.error e) s') :
    (x.mapErr f).Aborts s (.error (f e)) s' := by
  simp only [Txn.Aborts, EStateM.run, Txn.mapErr] at h ⊢
  rw [h]

end Wrapping
end ComdexRwa.Foundation
