import ComdexRwa.Foundation.Transaction

/-! Queries: calls that read a store and have no way to write it, and loops of such calls.
A loop is reasoned about by what holds of the elements it is done with. -/
namespace ComdexRwa.Foundation

abbrev Query (σ ε α : Type) := ReaderT σ (Except (Abort ε)) α

namespace Query
variable {σ ε κ α β : Type} [DecidableEq κ]

/-- The query on `s` comes back with the result `a`. -/
def Gives (q : Query σ ε α) (s : σ) (a : α) : Prop := q.run s = .ok a

/-- The query on `s` is cut off by `e`. -/
def Fails (q : Query σ ε α) (s : σ) (e : Abort ε) : Prop := q.run s = .error e

/-- Unwrap an optional value, or return the error. -/
def okOr (e : ε) : Option α → Query σ ε α
  | some a => pure a
  | none => throw (.error e)

/-- Unwrap an optional value, or panic. -/
def expect : Option α → Query σ ε α
  | some a => pure a
  | none => throw .panic

def loadItem (cell : Item σ ε α) : Query σ ε α := do
  let s ← read
  okOr cell.absent (cell.read s)

def mayLoad (table : Table σ ε κ α) (k : κ) : Query σ ε (Option α) := do
  let s ← read
  pure ((table.read s).lookup k)

def load (table : Table σ ε κ α) (k : κ) : Query σ ε α := do
  let o ← mayLoad table k
  okOr (table.absent k) o

theorem Gives.unique {q : Query σ ε α} {s : σ} {a b : α} (h : q.Gives s a) (h' : q.Gives s b) : a = b := by
  cases h.symm.trans h'
  rfl

@[simp] theorem gives_pure (a b : α) (s : σ) : Gives (pure a : Query σ ε α) s b ↔ a = b := by
  change Except.ok a = .ok b ↔ a = b
  rw [Except.ok.injEq]

/-- A sequence gives a result exactly when both halves do. -/
theorem gives_bind (q : Query σ ε α) (f : α → Query σ ε β) (s : σ) (b : β) :
    Gives (q >>= f) s b ↔ ∃ a, q.Gives s a ∧ (f a).Gives s b := by
  unfold Gives
  rw [ReaderT.run_bind]
  cases q.run s with
  | ok a => exact ⟨fun h => ⟨a, rfl, h⟩, fun ⟨_, ha, h⟩ => by cases ha; exact h⟩
  | error e => exact ⟨fun h => (nomatch h), fun ⟨_, ha, _⟩ => (nomatch ha)⟩

theorem gives_bind_of {q : Query σ ε α} {s : σ} {a : α} (hq : q.Gives s a) (f : α → Query σ ε β) (b : β) :
    Gives (q >>= f) s b ↔ (f a).Gives s b := by
  rw [gives_bind]
  constructor
  · intro h
    obtain ⟨a', hq', hf⟩ := h
    rwa [hq.unique hq']
  · exact fun hf => ⟨a, hq, hf⟩

@[simp] theorem gives_expect (o : Option α) (s : σ) (a : α) :
    Gives (expect o : Query σ ε α) s a ↔ o = some a := by
  cases o with
  | none => exact ⟨fun h => (nomatch h), fun h => (nomatch h)⟩
  | some x => simp [expect]

theorem gives_mayLoad_bind (table : Table σ ε κ α) (k : κ) (f : Option α → Query σ ε β) (s : σ) (b : β) :
    Gives (mayLoad table k >>= f) s b ↔ (f ((table.read s).lookup k)).Gives s b :=
  gives_bind_of (show (mayLoad table k).Gives s ((table.read s).lookup k) from rfl) f b

@[simp] theorem gives_loadItem (cell : Item σ ε α) (s : σ) (a : α) :
    (loadItem cell).Gives s a ↔ cell.read s = some a := by
  change Gives (okOr cell.absent (cell.read s)) s a ↔ _
  cases cell.read s with
  | none => exact ⟨fun h => (nomatch h), fun h => (nomatch h)⟩
  | some x => simp [okOr]

@[simp] theorem gives_load (table : Table σ ε κ α) (k : κ) (s : σ) (a : α) :
    (load table k).Gives s a ↔ (table.read s).lookup k = some a := by
  change Gives (okOr (table.absent k) ((table.read s).lookup k)) s a ↔ _
  cases (table.read s).lookup k with
  | none => exact ⟨fun h => (nomatch h), fun h => (nomatch h)⟩
  | some x => simp [okOr]

theorem fails_load (table : Table σ ε κ α) (k : κ) (s : σ) (hk : (table.read s).lookup k = none) :
    (load table k).Fails s (.error (table.absent k)) := by
  change Fails (okOr (table.absent k) ((table.read s).lookup k)) s _
  rw [hk]
  rfl

/-- The rule of loops: what holds before the first element and is handed on by every element holds
at the end, and the loop gives a result. -/
theorem gives_foldlM {step : β → α → Query σ ε β} {s : σ} {I : List α → β → Prop} {l : List α} {b : β}
    (start : I [] b)
    (next : ∀ done x rest b, l = done ++ x :: rest → I done b →
      ∃ b', (step b x).Gives s b' ∧ I (done ++ [x]) b') :
    ∃ b', (l.foldlM step b).Gives s b' ∧ I l b' := by
  have hall (rest : List α) : ∀ (done : List α) (b : β), l = done ++ rest → I done b →
      ∃ b', (rest.foldlM step b).Gives s b' ∧ I l b' := by
    induction rest with
    | nil =>
      intro done b hl hi
      rw [List.append_nil] at hl
      exact ⟨b, (gives_pure b b s).mpr rfl, hl ▸ hi⟩
    | cons x rest ih =>
      intro done b hl hi
      obtain ⟨b', hx, hi'⟩ := next done x rest b hl hi
      obtain ⟨b'', hrest, hend⟩ := ih (done ++ [x]) b' (by simp [hl]) hi'
      refine ⟨b'', ?_, hend⟩
      rw [List.foldlM_cons]
      exact (gives_bind_of hx _ b'').mpr hrest
  exact hall l [] b rfl start

/-- Conversely, a loop that gives a result has gone through every round, and what each round hands on
holds of that result. -/
theorem Gives.of_foldlM {step : β → α → Query σ ε β} {s : σ} {I : List α → β → Prop} {l : List α} {b b' : β}
    (hl : (l.foldlM step b).Gives s b') (start : I [] b)
    (next : ∀ done x b b', I done b → (step b x).Gives s b' → I (done ++ [x]) b') : I l b' := by
  have hall (rest : List α) : ∀ (done : List α) (b : β), I done b → (rest.foldlM step b).Gives s b' →
      I (done ++ rest) b' := by
    induction rest with
    | nil =>
      intro done b hi hrest
      cases (gives_pure b b' s).mp hrest
      rwa [List.append_nil]
    | cons x rest ih =>
      intro done b hi hrest
      rw [List.foldlM_cons] at hrest
      obtain ⟨b'', hx, hrest⟩ := (gives_bind _ _ s b').mp hrest
      have hend := ih (done ++ [x]) b'' (next done x b b'' hi hx) hrest
      rwa [List.append_assoc] at hend
  exact hall l [] b start hl

/-- A loop over what the record under a key lists: without a record it goes through nothing. -/
theorem gives_mayLoad_foldlM {γ : Type} {table : Table σ ε κ γ} {k : κ} {list : γ → List α}
    {step : β → α → Query σ ε β} {b b' : β} {s : σ} {f : Option γ → Query σ ε β} (absent : f none = pure b)
    (present : ∀ c, f (some c) = (list c).foldlM step b) :
    Gives (mayLoad table k >>= f) s b' ↔
      (((((table.read s).lookup k).map list).getD []).foldlM step b).Gives s b' := by
  rw [gives_mayLoad_bind]
  cases (table.read s).lookup k with
  | none => exact iff_of_eq (congrArg (Gives · s b') absent)
  | some c => exact iff_of_eq (congrArg (Gives · s b') (present c))

/-! Queries that are never refused: if they are cut off at all, it is by a panic. -/

private theorem gives_or_fails (q : Query σ ε α) (s : σ) : (∃ a, q.Gives s a) ∨ ∃ e, q.Fails s e := by
  cases hq : q.run s with
  | ok a => exact .inl ⟨a, hq⟩
  | error e => exact .inr ⟨e, hq⟩

theorem fails_loadItem (cell : Item σ ε α) (s : σ) (hs : cell.read s = none) :
    (loadItem cell).Fails s (.error cell.absent) := by
  change Fails (okOr cell.absent (cell.read s)) s _
  rw [hs]
  rfl

/-- A sequence is cut off in its first half, or in the second after the first has given its result. -/
theorem fails_bind (q : Query σ ε α) (f : α → Query σ ε β) (s : σ) (e : Abort ε) :
    Fails (q >>= f) s e ↔ q.Fails s e ∨ ∃ a, q.Gives s a ∧ (f a).Fails s e := by
  unfold Fails Gives
  rw [ReaderT.run_bind]
  cases q.run s with
  | ok a =>
    constructor
    · exact fun h => .inr ⟨a, rfl, h⟩
    · intro h
      obtain h | ⟨a', ha, h⟩ := h
      · cases h
      · cases ha
        exact h
  | error x =>
    change Except.error x = .error e ↔ _
    constructor
    · exact fun h => .inl (congrArg Except.error (Except.error.inj h))
    · intro h
      obtain h | ⟨a', ha, _⟩ := h
      · exact congrArg Except.error (Except.error.inj h)
      · cases ha

/-- On `s` the query is cut off by nothing but panics. -/
def PanicsOnly (q : Query σ ε α) (s : σ) : Prop := ∀ e, q.Fails s e → e = .panic

/-- Such a query panics when it gives no result. -/
theorem PanicsOnly.fails {q : Query σ ε α} {s : σ} (hq : q.PanicsOnly s) (hno : ¬ ∃ a, q.Gives s a) :
    q.Fails s .panic := by
  obtain ⟨a, ha⟩ | ⟨e, he⟩ := gives_or_fails q s
  · exact (hno ⟨a, ha⟩).elim
  · cases hq e he
    exact he

theorem panicsOnly_pure (a : α) (s : σ) : PanicsOnly (pure a : Query σ ε α) s := fun _ h => (nomatch h)

theorem panicsOnly_expect (o : Option α) (s : σ) : PanicsOnly (expect o : Query σ ε α) s := by
  intro e h
  cases o with
  | none =>
    cases h
    rfl
  | some a => cases h

theorem panicsOnly_bind {q : Query σ ε α} {f : α → Query σ ε β} {s : σ} (hq : q.PanicsOnly s)
    (hf : ∀ a, (f a).PanicsOnly s) : PanicsOnly (q >>= f) s := by
  intro e h
  rcases (fails_bind q f s e).mp h with h | ⟨a, _, h⟩
  · exact hq e h
  · exact hf a e h

theorem panicsOnly_mayLoad (table : Table σ ε κ α) (k : κ) (s : σ) : (mayLoad table k).PanicsOnly s :=
  fun _ h => (nomatch h)

theorem panicsOnly_foldlM {step : β → α → Query σ ε β} {s : σ} (hstep : ∀ b x, (step b x).PanicsOnly s)
    (l : List α) (b : β) : (l.foldlM step b).PanicsOnly s := by
  induction l generalizing b with
  | nil => exact panicsOnly_pure b s
  | cons x l ih =>
    rw [List.foldlM_cons]
    exact panicsOnly_bind (hstep b x) ih

end Query
end ComdexRwa.Foundation
