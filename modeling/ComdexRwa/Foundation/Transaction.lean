import Mathlib.Data.Finmap

/-! Transactions over a store: a call reads and writes cells and ends in a result, an error or a panic.
The store a failed call leaves behind is kept, so that undoing it is a decision of the caller. -/
namespace ComdexRwa.Foundation

/-- How a call can end without a result. -/
inductive Abort (ε : Type) where
  | error : ε → Abort ε
  | panic : Abort ε
  deriving DecidableEq, Repr

/-- A call on a store `σ`, returning errors in `ε`. -/
abbrev Txn (σ ε α : Type) := EStateM (Abort ε) σ α

namespace Txn
variable {σ ε α β : Type}

/-- The call started on `s` ends with the result `a` and leaves the store `s'`. -/
def Returns (x : Txn σ ε α) (s : σ) (a : α) (s' : σ) : Prop := x.run s = .ok a s'

/-- Go on only when the condition holds. -/
def ensure (p : Prop) [Decidable p] (e : ε) : Txn σ ε Unit :=
  if p then pure () else throw (.error e)

/-- Unwrap an optional value, or return the error. -/
def okOr (e : ε) : Option α → Txn σ ε α
  | some a => pure a
  | none => throw (.error e)

/-- Unwrap an optional value, or panic. -/
def expect : Option α → Txn σ ε α
  | some a => pure a
  | none => throw .panic

theorem Returns.unique {x : Txn σ ε α} {s s' s'' : σ} {a b : α}
    (h : x.Returns s a s') (h' : x.Returns s b s'') : a = b ∧ s' = s'' := by
  have he := h.symm.trans h'
  cases he
  exact ⟨rfl, rfl⟩

@[simp] theorem returns_pure (a b : α) (s s' : σ) :
    Returns (pure a : Txn σ ε α) s b s' ↔ a = b ∧ s = s' := by
  simp [Returns]

@[simp] theorem returns_throw (e : Abort ε) (a : α) (s s' : σ) :
    Returns (throw e : Txn σ ε α) s a s' ↔ False :=
  ⟨fun h => (nomatch h), False.elim⟩

/-- A sequence returns exactly when both halves do, the second from the store of the first. -/
theorem returns_bind (x : Txn σ ε α) (f : α → Txn σ ε β) (s : σ) (b : β) (s'' : σ) :
    Returns (x >>= f) s b s'' ↔ ∃ a s', x.Returns s a s' ∧ (f a).Returns s' b s'' := by
  unfold Returns
  rw [EStateM.run_bind]
  constructor
  · intro h
    split at h
    · exact ⟨_, _, ‹_›, h⟩
    · cases h
  · intro hx
    obtain ⟨a, s', hx, hf⟩ := hx
    rw [hx]
    exact hf

/-! A step whose result and effect are known drops out of a sequence. -/

theorem returns_bind_of_run {x : Txn σ ε α} {s t : σ} {a : α} (hx : x.Returns s a t)
    (f : α → Txn σ ε β) (b : β) (s'' : σ) : Returns (x >>= f) s b s'' ↔ (f a).Returns t b s'' := by
  rw [returns_bind]
  constructor
  · intro hx
    obtain ⟨a', t', h, hf⟩ := hx
    obtain ⟨rfl, rfl⟩ := hx.unique h
    exact hf
  · exact fun hf => ⟨a, t, hx, hf⟩

@[simp] theorem returns_ensure_bind (p : Prop) [Decidable p] (e : ε) (f : Unit → Txn σ ε β) (s : σ)
    (b : β) (s' : σ) : Returns (ensure p e >>= f) s b s' ↔ p ∧ (f ()).Returns s b s' := by
  by_cases hp : p
  · simp only [hp, true_and]
    exact returns_bind_of_run (by simp [ensure, hp]) f b s'
  · simp [ensure, hp, returns_bind]

@[simp] theorem returns_okOr_bind (e : ε) (o : Option α) (f : α → Txn σ ε β) (s : σ) (b : β) (s' : σ) :
    Returns (okOr e o >>= f) s b s' ↔ ∃ a, o = some a ∧ (f a).Returns s b s' := by
  cases o with
  | none => simp [okOr, returns_bind]
  | some a => simpa using returns_bind_of_run (by simp [okOr]) f b s'

@[simp] theorem returns_expect_bind (o : Option α) (f : α → Txn σ ε β) (s : σ) (b : β) (s' : σ) :
    Returns (expect o >>= f) s b s' ↔ ∃ a, o = some a ∧ (f a).Returns s b s' := by
  cases o with
  | none => simp [expect, returns_bind]
  | some a => simpa using returns_bind_of_run (by simp [expect]) f b s'

@[simp] theorem returns_expect (o : Option α) (s : σ) (a : α) (s' : σ) :
    Returns (expect o : Txn σ ε α) s a s' ↔ o = some a ∧ s = s' := by
  cases o <;> simp [expect]

end Txn

/-- A single-valued cell of the store. `absent` is the error of loading it while it is empty. -/
structure Item (σ ε α : Type) where
  read : σ → Option α
  write : α → σ → σ
  absent : ε

namespace Item
variable {σ ε α β : Type}

def mayLoad (cell : Item σ ε α) : Txn σ ε (Option α) := do
  let s ← get
  pure (cell.read s)

def load (cell : Item σ ε α) : Txn σ ε α := do
  let o ← cell.mayLoad
  Txn.okOr cell.absent o

def save (cell : Item σ ε α) (a : α) : Txn σ ε Unit :=
  modify (cell.write a)

@[simp] theorem returns_mayLoad_bind (cell : Item σ ε α) (f : Option α → Txn σ ε β) (s : σ) (b : β) (s' : σ) :
    Txn.Returns (cell.mayLoad >>= f) s b s' ↔ (f (cell.read s)).Returns s b s' :=
  Txn.returns_bind_of_run (show cell.mayLoad.Returns s (cell.read s) s from rfl) f b s'

@[simp] theorem returns_load_bind (cell : Item σ ε α) (f : α → Txn σ ε β) (s : σ) (b : β) (s' : σ) :
    Txn.Returns (cell.load >>= f) s b s' ↔ ∃ a, cell.read s = some a ∧ (f a).Returns s b s' := by
  rw [load, bind_assoc, returns_mayLoad_bind, Txn.returns_okOr_bind]

@[simp] theorem returns_save_bind (cell : Item σ ε α) (a : α) (f : Unit → Txn σ ε β) (s : σ) (b : β) (s' : σ) :
    Txn.Returns (cell.save a >>= f) s b s' ↔ (f ()).Returns (cell.write a s) b s' :=
  Txn.returns_bind_of_run (show (cell.save a).Returns s () (cell.write a s) from rfl) f b s'

end Item

/-- A keyed collection of the store. `absent` is the error of loading a key that has no value. -/
structure Table (σ ε κ α : Type) where
  read : σ → Finmap (fun _ : κ => α)
  write : Finmap (fun _ : κ => α) → σ → σ
  absent : κ → ε

/-- The same cell for calls whose errors contain those of the cell. -/
def Item.under {σ ε ε' α : Type} (cell : Item σ ε α) (f : ε → ε') : Item σ ε' α :=
  ⟨cell.read, cell.write, f cell.absent⟩

def Table.under {σ ε ε' κ α : Type} (table : Table σ ε κ α) (f : ε → ε') : Table σ ε' κ α :=
  ⟨table.read, table.write, fun k => f (table.absent k)⟩

namespace Table
variable {σ ε κ α β : Type} [DecidableEq κ]

def mayLoad (table : Table σ ε κ α) (k : κ) : Txn σ ε (Option α) := do
  let s ← get
  pure ((table.read s).lookup k)

def load (table : Table σ ε κ α) (k : κ) : Txn σ ε α := do
  let o ← table.mayLoad k
  Txn.okOr (table.absent k) o

def save (table : Table σ ε κ α) (k : κ) (a : α) : Txn σ ε Unit :=
  modify fun s => table.write ((table.read s).insert k a) s

@[simp] theorem returns_mayLoad_bind (table : Table σ ε κ α) (k : κ) (f : Option α → Txn σ ε β) (s : σ)
    (b : β) (s' : σ) :
    Txn.Returns (table.mayLoad k >>= f) s b s' ↔ (f ((table.read s).lookup k)).Returns s b s' :=
  Txn.returns_bind_of_run (show (table.mayLoad k).Returns s ((table.read s).lookup k) s from rfl) f b s'

@[simp] theorem returns_load_bind (table : Table σ ε κ α) (k : κ) (f : α → Txn σ ε β) (s : σ) (b : β) (s' : σ) :
    Txn.Returns (table.load k >>= f) s b s' ↔
      ∃ a, (table.read s).lookup k = some a ∧ (f a).Returns s b s' := by
  rw [load, bind_assoc, returns_mayLoad_bind, Txn.returns_okOr_bind]

@[simp] theorem returns_save_bind (table : Table σ ε κ α) (k : κ) (a : α) (f : Unit → Txn σ ε β) (s : σ)
    (b : β) (s' : σ) :
    Txn.Returns (table.save k a >>= f) s b s' ↔
      (f ()).Returns (table.write ((table.read s).insert k a) s) b s' :=
  Txn.returns_bind_of_run
    (show (table.save k a).Returns s () (table.write ((table.read s).insert k a) s) from rfl) f b s'

end Table
end ComdexRwa.Foundation
