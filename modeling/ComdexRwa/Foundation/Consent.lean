import ComdexRwa.Foundation.Handshake

/-! Traces of a handshake. The moves made so far tell how often two parties are linked, and every
grant among them uses up one request of its own. -/
namespace ComdexRwa.Foundation.Handshake
variable {α : Type}

inductive Move (α : Type) where
  | ask (a b : α)
  | grant (a b : α)
  | idle
  deriving DecidableEq, Repr

/-- An assignment of an earlier request to every grant, no request twice. -/
structure Answers (l : List (Move α)) (f : Nat → Nat) : Prop where
  earlier : ∀ i a b, l[i]? = some (.grant a b) → f i < i ∧ l[f i]? = some (.ask a b)
  distinct : ∀ i j a b c d, l[i]? = some (.grant a b) → l[j]? = some (.grant c d) → f i = f j → i = j

/-- An assignment that leaves a request over for everything that is pending. -/
structure Assigned (l : List (Move α)) (g : Handshake α) (f : Nat → Nat) : Prop extends Answers l f where
  free : ∀ a b, 0 < g.pending a b →
    ∃ j, l[j]? = some (.ask a b) ∧ ∀ i c d, l[i]? = some (.grant c d) → f i ≠ j

private theorem getElem?_snoc {β : Type} {l : List β} {x y : β} {i : Nat} :
    (l ++ [x])[i]? = some y ↔ l[i]? = some y ∨ (i = l.length ∧ x = y) := by
  rw [List.getElem?_append]
  split
  · have hne : i ≠ l.length := by omega
    simp [hne]
  · have hnone : l[i]? = none := List.getElem?_eq_none (by omega)
    by_cases hi : i = l.length
    · simp [hi]
    · have hpos : i - l.length ≠ 0 := by omega
      simp [hi, hnone, hpos]

section Assignment
variable {l : List (Move α)} {g : Handshake α} {f : Nat → Nat} {x y : α}

private theorem grant_of_snoc {m : Move α} (hm : ∀ a b, m ≠ .grant a b) {i : Nat} {a b : α}
    (h : (l ++ [m])[i]? = some (.grant a b)) : l[i]? = some (.grant a b) := by
  rcases getElem?_snoc.mp h with hold | ⟨_, hnew⟩
  · exact hold
  · exact (hm a b hnew).elim

/-- A move that grants nothing needs no request. -/
private theorem Answers.snoc {m : Move α} (hf : Answers l f) (hm : ∀ a b, m ≠ .grant a b) :
    Answers (l ++ [m]) f := by
  constructor
  · intro i a b h
    obtain ⟨hlt, hask⟩ := hf.earlier i a b (grant_of_snoc hm h)
    exact ⟨hlt, getElem?_snoc.mpr (.inl hask)⟩
  · intro i j a b c d h h'
    exact hf.distinct i j a b c d (grant_of_snoc hm h) (grant_of_snoc hm h')

private theorem Assigned.idle (hf : Assigned l g f) : Assigned (l ++ [.idle]) g f := by
  have hm (a b : α) : (Move.idle : Move α) ≠ .grant a b := fun h => (nomatch h)
  refine ⟨hf.toAnswers.snoc hm, fun a b hpos => ?_⟩
  obtain ⟨j, hj, hfree⟩ := hf.free a b hpos
  exact ⟨j, getElem?_snoc.mpr (.inl hj), fun i c d h => hfree i c d (grant_of_snoc hm h)⟩

variable [DecidableEq α]

/-- A new request is the one left over for what it makes pending. -/
private theorem Assigned.ask (hf : Assigned l g f) : Assigned (l ++ [.ask x y]) (g.ask x y) f := by
  have hm (a b : α) : Move.ask x y ≠ .grant a b := fun h => (nomatch h)
  refine ⟨hf.toAnswers.snoc hm, fun a b hpos => ?_⟩
  by_cases hab : a = x ∧ b = y
  · obtain ⟨rfl, rfl⟩ := hab
    refine ⟨l.length, getElem?_snoc.mpr (.inr ⟨rfl, rfl⟩), fun i c d h => ?_⟩
    have hi := grant_of_snoc hm h
    have hlt := (hf.earlier i c d hi).1
    have hlen := (List.getElem?_eq_some_iff.mp hi).1
    omega
  · change 0 < g.pending a b + mark x y a b at hpos
    rw [mark_of_ne hab, Nat.add_zero] at hpos
    obtain ⟨j, hj, hfree⟩ := hf.free a b hpos
    exact ⟨j, getElem?_snoc.mpr (.inl hj), fun i c d h => hfree i c d (grant_of_snoc hm h)⟩

/-- A grant uses up the request that was left over for it. -/
private theorem Assigned.grant (hf : Assigned l g f) (hp : g.Proper) (hpos : 0 < g.pending x y) :
    ∃ f', Assigned (l ++ [.grant x y]) (g.grant x y) f' := by
  obtain ⟨j, hj, hfree⟩ := hf.free x y hpos
  have hjlt := (List.getElem?_eq_some_iff.mp hj).1
  have hold {i : Nat} {a b : α} (h : l[i]? = some (.grant a b)) : Function.update f l.length j i = f i := by
    have hlen := (List.getElem?_eq_some_iff.mp h).1
    exact Function.update_of_ne (by omega) _ _
  refine ⟨Function.update f l.length j, ⟨fun i a b h => ?_, fun i i' a b c d h h' he => ?_⟩, fun a b hp' => ?_⟩
  · rcases getElem?_snoc.mp h with hi | ⟨rfl, hnew⟩
    · rw [hold hi]
      obtain ⟨hlt, hask⟩ := hf.earlier i a b hi
      exact ⟨hlt, getElem?_snoc.mpr (.inl hask)⟩
    · cases hnew
      rw [Function.update_self]
      exact ⟨hjlt, getElem?_snoc.mpr (.inl hj)⟩
  · rcases getElem?_snoc.mp h with hi | ⟨rfl, _⟩
    · rcases getElem?_snoc.mp h' with hi' | ⟨rfl, _⟩
      · rw [hold hi, hold hi'] at he
        exact hf.distinct i i' a b c d hi hi' he
      · rw [hold hi, Function.update_self] at he
        exact (hfree i a b hi he).elim
    · rcases getElem?_snoc.mp h' with hi' | ⟨rfl, _⟩
      · rw [hold hi', Function.update_self] at he
        exact (hfree i' c d hi' he.symm).elim
      · rfl
  · change 0 < g.pending a b - mark x y a b at hp'
    have hother : ¬ (a = x ∧ b = y) := by
      rintro ⟨rfl, rfl⟩
      have hone := hp.single a b
      rw [mark_self] at hp'
      omega
    rw [mark_of_ne hother, Nat.sub_zero] at hp'
    obtain ⟨j', hj', hfree'⟩ := hf.free a b hp'
    refine ⟨j', getElem?_snoc.mpr (.inl hj'), fun i c d h => ?_⟩
    rcases getElem?_snoc.mp h with hi | ⟨rfl, _⟩
    · rw [hold hi]
      exact hfree' i c d hi
    · rw [Function.update_self]
      rintro rfl
      cases hj.symm.trans hj'
      exact hother ⟨rfl, rfl⟩

end Assignment

variable [DecidableEq α]

/-- The moves that lead from nobody to a table of counts, idle ones included. -/
inductive Trace : List (Move α) → Handshake α → Prop where
  | start : Trace [] nobody
  | ask {l : List (Move α)} {g : Handshake α} {a b : α} : Trace l g → a ≠ b → g.pending a b = 0 →
      Trace (l ++ [.ask a b]) (g.ask a b)
  | grant {l : List (Move α)} {g : Handshake α} {a b : α} : Trace l g → a ≠ b → 0 < g.pending a b →
      Trace (l ++ [.grant a b]) (g.grant a b)
  | idle {l : List (Move α)} {g : Handshake α} : Trace l g → Trace (l ++ [.idle]) g

/-- Which grants of a trace link two parties, whoever of them had asked. -/
def Move.links (a b : α) (m : Move α) : Prop := m = .grant a b ∨ m = .grant b a

instance (a b : α) (m : Move α) : Decidable (m.links a b) := inferInstanceAs (Decidable (_ ∨ _))

namespace Trace
variable {l : List (Move α)} {g : Handshake α} {a b : α}

private theorem proper (ht : Trace l g) : g.Proper := by
  induction ht with
  | start => exact .nobody
  | ask _ hne hz ih => exact ih.step (.ask hne hz)
  | grant _ hne hpos ih => exact ih.step (.grant hne hpos)
  | idle _ ih => exact ih

private theorem mark_grant {x y : α} (hne : x ≠ y) :
    (if (Move.grant x y).links a b then 1 else 0) = mark x y a b + mark y x a b := by
  by_cases hab : a = x ∧ b = y
  · obtain ⟨rfl, rfl⟩ := hab
    have hother : mark b a a b = 0 := mark_of_ne fun h => hne h.1
    rw [mark_self, hother, if_pos (.inl rfl)]
  · by_cases hba : a = y ∧ b = x
    · obtain ⟨rfl, rfl⟩ := hba
      rw [mark_self, mark_of_ne hab, if_pos (.inr rfl)]
    · rw [mark_of_ne hab, mark_of_ne hba, if_neg]
      intro h
      rcases h with h | h
      · cases h
        exact hab ⟨rfl, rfl⟩
      · cases h
        exact hba ⟨rfl, rfl⟩

/-- Two parties are linked once for every grant between them. -/
theorem linked_eq (ht : Trace l g) (a b : α) : g.linked a b = l.countP fun m => m.links a b := by
  induction ht with
  | start => rfl
  | @ask l g x y _ _ _ ih =>
    rw [List.countP_append, ← ih]
    simp [Move.links, Handshake.ask]
  | @grant l g x y _ hne _ ih =>
    have hone : List.countP (fun m => decide (Move.links a b m)) [.grant x y] = mark x y a b + mark y x a b := by
      rw [List.countP_singleton, ← mark_grant hne]
      simp
    rw [List.countP_append, ← ih, hone]
    exact Nat.add_assoc _ _ _
  | @idle l g _ ih =>
    rw [List.countP_append, ← ih]
    simp [Move.links]

/-- Every grant of a trace answers one earlier request of the same two parties. -/
theorem answers (ht : Trace l g) : ∃ f, Answers l f := by
  have hall : ∃ f, Assigned l g f := by
    induction ht with
    | start => exact ⟨id, ⟨fun _ _ _ h => (nomatch h), fun _ _ _ _ _ _ h => (nomatch h)⟩, fun _ _ h => (nomatch h)⟩
    | ask _ _ _ ih =>
      obtain ⟨f, hf⟩ := ih
      exact ⟨f, hf.ask⟩
    | grant ht _ hpos ih =>
      obtain ⟨f, hf⟩ := ih
      exact hf.grant ht.proper hpos
    | idle _ ih =>
      obtain ⟨f, hf⟩ := ih
      exact ⟨f, hf.idle⟩
  obtain ⟨f, hf⟩ := hall
  exact ⟨f, hf.toAnswers⟩

end Trace
end ComdexRwa.Foundation.Handshake
