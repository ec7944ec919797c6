import ComdexRwa.Foundation.Transaction

/-! Runs of a transactional system: one opening call, then any calls in any order.
A call that fails is rolled back, and the history keeps what every call saw, answered and left. -/
namespace ComdexRwa.Foundation

/-- One call of a run, with the stores on both sides of it. -/
structure Event (σ κ ε ω : Type) where
  before : σ
  call : κ
  reply : Except (Abort ε) ω
  after : σ

/-- Which calls may open a run, which may follow, and what each does to the store. -/
structure System (σ κ ε ω : Type) where
  initial : σ
  opens : κ → Prop
  continues : κ → Prop
  exec : κ → Txn σ ε ω

namespace System
variable {σ κ ε ω : Type}

/-- One call under rollback: without a result, the store is the one before the call. -/
def transact (M : System σ κ ε ω) (s : σ) (c : κ) : Event σ κ ε ω :=
  match (M.exec c).run s with
  | .ok r s' => ⟨s, c, .ok r, s'⟩
  | .error e _ => ⟨s, c, .error e, s⟩

theorem transact_of_returns {M : System σ κ ε ω} {s : σ} {c : κ} {r : ω} {s' : σ}
    (h : (M.exec c).Returns s r s') : M.transact s c = ⟨s, c, .ok r, s'⟩ := by
  unfold transact
  rw [show (M.exec c).run s = .ok r s' from h]

theorem transact_of_error {M : System σ κ ε ω} {s : σ} {c : κ} {e : Abort ε} {s' : σ}
    (h : (M.exec c).run s = .error e s') : M.transact s c = ⟨s, c, .error e, s⟩ := by
  unfold transact
  rw [h]

/-- A call either returns, or is rolled back and could not have returned. -/
theorem transact_cases (M : System σ κ ε ω) (s : σ) (c : κ) :
    (∃ r s', (M.exec c).Returns s r s' ∧ M.transact s c = ⟨s, c, .ok r, s'⟩) ∨
      (∃ e, (∀ r s', ¬ (M.exec c).Returns s r s') ∧ M.transact s c = ⟨s, c, .error e, s⟩) := by
  cases hx : (M.exec c).run s with
  | ok r s' => exact .inl ⟨r, s', hx, transact_of_returns hx⟩
  | error e t =>
    refine .inr ⟨e, fun r s' h => ?_, ?_⟩
    · cases hx.symm.trans h
    · unfold transact
      rw [hx]

@[simp] private theorem transact_before (M : System σ κ ε ω) (s : σ) (c : κ) : (M.transact s c).before = s := by
  rcases M.transact_cases s c with ⟨_, _, _, he⟩ | ⟨_, _, he⟩ <;> rw [he]

@[simp] theorem transact_call (M : System σ κ ε ω) (s : σ) (c : κ) : (M.transact s c).call = c := by
  rcases M.transact_cases s c with ⟨_, _, _, he⟩ | ⟨_, _, he⟩ <;> rw [he]

/-- The calls made one after the other from a store, and the store they end in. -/
def replay (M : System σ κ ε ω) (s : σ) : List κ → List (Event σ κ ε ω) × σ
  | [] => ([], s)
  | c :: cs => (M.transact s c :: (M.replay (M.transact s c).after cs).1,
      (M.replay (M.transact s c).after cs).2)

theorem calls_replay (M : System σ κ ε ω) (s : σ) (cs : List κ) : (M.replay s cs).1.map Event.call = cs := by
  induction cs generalizing s with
  | nil => rfl
  | cons c cs ih => simp [replay, ih]

end System

/-- The histories a system can have, each with the store it ends in. -/
inductive Run {σ κ ε ω : Type} (M : System σ κ ε ω) : List (Event σ κ ε ω) → σ → Prop where
  | opened {c : κ} {r : ω} {s : σ} : M.opens c → (M.exec c).Returns M.initial r s →
      Run M [⟨M.initial, c, .ok r, s⟩] s
  | step {h : List (Event σ κ ε ω)} {s : σ} (c : κ) : Run M h s → M.continues c →
      Run M (h ++ [M.transact s c]) (M.transact s c).after

namespace Run
variable {σ κ ε ω : Type} {M : System σ κ ε ω} {h h₁ h₂ : List (Event σ κ ε ω)} {s : σ} {e : Event σ κ ε ω}

/-- Induction along a run, with the two ways a later call can end kept apart. -/
theorem rule {I : List (Event σ κ ε ω) → σ → Prop}
    (opened : ∀ c r s, M.opens c → (M.exec c).Returns M.initial r s → I [⟨M.initial, c, .ok r, s⟩] s)
    (returned : ∀ h s c r s', Run M h s → I h s → M.continues c → (M.exec c).Returns s r s' →
      I (h ++ [⟨s, c, .ok r, s'⟩]) s')
    (failed : ∀ h s c e, Run M h s → I h s → M.continues c → (∀ r s', ¬ (M.exec c).Returns s r s') →
      I (h ++ [⟨s, c, .error e, s⟩]) s)
    (hr : Run M h s) : I h s := by
  induction hr with
  | opened ho hx => exact opened _ _ _ ho hx
  | @step h s c hr hc ih =>
    rcases M.transact_cases s c with ⟨r, s', hx, he⟩ | ⟨e, hx, he⟩
    · rw [he]
      exact returned h s c r s' hr ih hc hx
    · rw [he]
      exact failed h s c e hr ih hc hx

/-- What the opening call establishes and every returning call keeps holds after every run. -/
theorem invariant {I : σ → Prop}
    (opened : ∀ c r s, M.opens c → (M.exec c).Returns M.initial r s → I s)
    (kept : ∀ s c r s', I s → M.continues c → (M.exec c).Returns s r s' → I s')
    (hr : Run M h s) : I s :=
  rule (I := fun _ s => I s) opened (fun _ s c r s' _ hi hc hx => kept s c r s' hi hc hx)
    (fun _ _ _ _ _ hi _ _ => hi) hr

/-- The same when every call of the run meets a condition on the store before it. -/
theorem invariant_under {G : σ → κ → Prop} {I : σ → Prop}
    (opened : ∀ c r s, M.opens c → G M.initial c → (M.exec c).Returns M.initial r s → I s)
    (kept : ∀ h s c r s', Run M h s → I s → M.continues c → G s c → (M.exec c).Returns s r s' → I s')
    (hr : Run M h s) (hg : ∀ e ∈ h, G e.before e.call) : I s := by
  refine rule (I := fun h s => (∀ e ∈ h, G e.before e.call) → I s) ?_ ?_ ?_ hr hg
  · intro c r s ho hx hg
    exact opened c r s ho (hg ⟨M.initial, c, .ok r, s⟩ (by simp)) hx
  · intro h s c r s' hr hi hc hx hg
    exact kept h s c r s' hr (hi fun e he => hg e (by simp [he])) hc (hg ⟨s, c, .ok r, s'⟩ (by simp)) hx
  · intro h s c e _ hi _ _ hg
    exact hi fun e he => hg e (by simp [he])

/-- A law that every call keeps exactly when it meets a condition holds after a run exactly when
all calls of the run met the condition. -/
theorem exactly {I : List (Event σ κ ε ω) → σ → Prop} {G : σ → κ → Prop}
    (opened : ∀ c r s, M.opens c → (M.exec c).Returns M.initial r s →
      (I [⟨M.initial, c, .ok r, s⟩] s ↔ G M.initial c))
    (returned : ∀ h s c r s', Run M h s → M.continues c → (M.exec c).Returns s r s' →
      (I (h ++ [⟨s, c, .ok r, s'⟩]) s' ↔ I h s ∧ G s c))
    (failed : ∀ h s c e, Run M h s → M.continues c → (∀ r s', ¬ (M.exec c).Returns s r s') →
      (I (h ++ [⟨s, c, .error e, s⟩]) s ↔ I h s ∧ G s c))
    (hr : Run M h s) : I h s ↔ ∀ e ∈ h, G e.before e.call := by
  refine rule (I := fun h s => I h s ↔ ∀ e ∈ h, G e.before e.call) ?_ ?_ ?_ hr
  · intro c r s ho hx
    simpa using opened c r s ho hx
  · intro h s c r s' hr ih hc hx
    rw [returned h s c r s' hr hc hx, ih]
    simp [or_imp, forall_and]
  · intro h s c e hr ih hc hx
    rw [failed h s c e hr hc hx, ih]
    simp [or_imp, forall_and]

/-- The store a run has reached is the one its last event left. -/
private theorem reached (hr : Run M h s) : ∃ e ∈ h, e.after = s := by
  cases hr with
  | opened ho hx => exact ⟨_, List.mem_singleton_self _, rfl⟩
  | step c hr hc => exact ⟨_, List.mem_append_right _ (List.mem_singleton_self _), rfl⟩

/-- The same for a law of single events, when it holds of an event only if the store left behind
meets what the next call has to start from. -/
theorem throughout {P : Event σ κ ε ω → Prop} {L : σ → Prop} {G : σ → κ → Prop}
    (leaves : ∀ e, P e → L e.after)
    (opened : ∀ c r s, M.opens c → (M.exec c).Returns M.initial r s →
      (P ⟨M.initial, c, .ok r, s⟩ ↔ G M.initial c))
    (returned : ∀ h s c r s', Run M h s → L s → M.continues c → (M.exec c).Returns s r s' →
      (P ⟨s, c, .ok r, s'⟩ ↔ G s c))
    (failed : ∀ h s c e, Run M h s → L s → M.continues c → (∀ r s', ¬ (M.exec c).Returns s r s') →
      (P ⟨s, c, .error e, s⟩ ↔ G s c))
    (hr : Run M h s) : (∀ e ∈ h, P e) ↔ ∀ e ∈ h, G e.before e.call := by
  have hl (h : List (Event σ κ ε ω)) (s : σ) (hr : Run M h s) (hp : ∀ e ∈ h, P e) : L s := by
    obtain ⟨e, he, rfl⟩ := hr.reached
    exact leaves e (hp e he)
  refine exactly (I := fun h _ => ∀ e ∈ h, P e) ?_ ?_ ?_ hr
  · intro c r s ho hx
    simpa using opened c r s ho hx
  · intro h s c r s' hr hc hx
    simp only [List.forall_mem_append, List.forall_mem_singleton]
    exact and_congr_right fun hp => returned h s c r s' hr (hl h s hr hp) hc hx
  · intro h s c e hr hc hx
    simp only [List.forall_mem_append, List.forall_mem_singleton]
    exact and_congr_right fun hp => failed h s c e hr (hl h s hr hp) hc hx

/-- Where an event comes from: it opened the run, or it is a call made where an earlier run ended. -/
theorem origin (hr : Run M h s) (he : e ∈ h) :
    (∃ r, M.opens e.call ∧ (M.exec e.call).Returns M.initial r e.after ∧
        e = ⟨M.initial, e.call, .ok r, e.after⟩) ∨
      (∃ h', Run M h' e.before ∧ M.continues e.call ∧ e = M.transact e.before e.call) := by
  induction hr with
  | opened ho hx =>
    rw [List.mem_singleton] at he
    subst he
    exact .inl ⟨_, ho, hx, rfl⟩
  | @step h s c hr hc ih =>
    rcases List.mem_append.mp he with he | he
    · exact ih he
    · rw [List.mem_singleton] at he
      subst he
      exact .inr ⟨h, by simpa using hr, by simpa using hc, by simp⟩

/-- A property of single events: it holds of the opening call, of every call that returns from a
reachable store, and of every call that is rolled back there. -/
theorem events {P : Event σ κ ε ω → Prop}
    (opened : ∀ c r s, M.opens c → (M.exec c).Returns M.initial r s → P ⟨M.initial, c, .ok r, s⟩)
    (returned : ∀ h s c r s', Run M h s → M.continues c → (M.exec c).Returns s r s' → P ⟨s, c, .ok r, s'⟩)
    (failed : ∀ h s c e, Run M h s → M.continues c → (∀ r s', ¬ (M.exec c).Returns s r s') →
      P ⟨s, c, .error e, s⟩)
    (hr : Run M h s) (he : e ∈ h) : P e := by
  rcases hr.origin he with ⟨r, ho, hx, heq⟩ | ⟨h', hb, hc, heq⟩
  · rw [heq]
    exact opened _ _ _ ho hx
  · rw [heq]
    rcases M.transact_cases e.before e.call with ⟨r, s', hx, ht⟩ | ⟨f, hx, ht⟩
    · rw [ht]
      exact returned h' _ _ _ _ hb hc hx
    · rw [ht]
      exact failed h' _ _ _ hb hc hx

/-- A call that answered did so by returning. -/
theorem returns_of_reply (hr : Run M h s) (he : e ∈ h) {r : ω} (ok : e.reply = .ok r) :
    (M.exec e.call).Returns e.before r e.after := by
  refine events (P := fun e => ∀ r, e.reply = .ok r → (M.exec e.call).Returns e.before r e.after)
    ?_ ?_ ?_ hr he r ok
  · rintro c r s _ hx r' hok
    cases hok
    exact hx
  · rintro _ s c r s' _ _ hx r' hok
    cases hok
    exact hx
  · rintro _ s c f _ _ _ r' hok
    cases hok

/-- How the store of any earlier point is related to the store at the end. -/
theorem evolves {R : σ → σ → Prop} (refl : ∀ s, R s s) (trans : ∀ s t u, R s t → R t u → R s u)
    (kept : ∀ h s c r s', Run M h s → M.continues c → (M.exec c).Returns s r s' → R s s')
    (hr : Run M h s) : ∀ e ∈ h, R e.after s := by
  refine rule (I := fun h s => ∀ e ∈ h, R e.after s) ?_ ?_ ?_ hr
  · intro c r s _ _ e he
    rw [List.mem_singleton] at he
    subst he
    exact refl s
  · intro h s c r s' hr hi hc hx e he
    rcases List.mem_append.mp he with he | he
    · exact trans _ _ _ (hi e he) (kept h s c r s' hr hc hx)
    · rw [List.mem_singleton] at he
      subst he
      exact refl s'
  · intro h s c f _ hi _ _ e he
    rcases List.mem_append.mp he with he | he
    · exact hi e he
    · rw [List.mem_singleton] at he
      subst he
      exact refl s

/-- Every point of a run ends a run of its own. -/
theorem cut (hr : Run M (h₁ ++ e :: h₂) s) : Run M (h₁ ++ [e]) e.after := by
  generalize hh : h₁ ++ e :: h₂ = h at hr
  induction hr generalizing h₂ with
  | opened ho hx =>
    obtain ⟨rfl, hs⟩ | ⟨_, hs⟩ := List.append_eq_singleton_iff.mp hh
    · cases hs
      exact .opened ho hx
    · cases hs
  | @step h s c hr hc ih =>
    rcases List.eq_nil_or_concat h₂ with rfl | ⟨h₃, x, rfl⟩
    · obtain ⟨rfl, hs⟩ := List.append_inj' hh rfl
      cases hs
      exact hr.step c hc
    · rw [List.concat_eq_append, ← List.cons_append, ← List.append_assoc] at hh
      exact ih (List.append_inj' hh rfl).1

theorem reaches_after (hr : Run M h s) (he : e ∈ h) : ∃ h', Run M h' e.after := by
  obtain ⟨h₁, h₂, rfl⟩ := List.append_of_mem he
  exact ⟨h₁ ++ [e], hr.cut⟩

/-- What an event has established, and every later event that returns has kept, holds at the end. -/
theorem since {I : σ → Prop} {Q : Event σ κ ε ω → Prop} (base : I e.after)
    (kept : ∀ s c r s', I s → M.continues c → (M.exec c).Returns s r s' → Q ⟨s, c, .ok r, s'⟩ → I s')
    (hr : Run M (h₁ ++ e :: h₂) s) (hq : ∀ x ∈ h₂, Q x) : I s := by
  generalize hh : h₁ ++ e :: h₂ = h at hr
  induction hr generalizing h₂ with
  | opened ho hx =>
    obtain ⟨rfl, hs⟩ | ⟨_, hs⟩ := List.append_eq_singleton_iff.mp hh
    · cases hs
      exact base
    · cases hs
  | @step h s c hr hc ih =>
    rcases List.eq_nil_or_concat h₂ with rfl | ⟨h₃, x, rfl⟩
    · obtain ⟨rfl, hs⟩ := List.append_inj' hh rfl
      cases hs
      exact base
    · rw [List.concat_eq_append] at hh hq
      rw [← List.cons_append, ← List.append_assoc] at hh
      obtain ⟨hpre, hs⟩ := List.append_inj' hh rfl
      cases hs
      have hi := ih (fun y hy => hq y (List.mem_append_left _ hy)) hpre
      have hx := hq _ (List.mem_append_right _ (List.mem_singleton_self _))
      rcases M.transact_cases s c with ⟨r, s', hret, he⟩ | ⟨f, _, he⟩
      · rw [he] at hx ⊢
        exact kept s c r s' hi hc hret hx
      · rw [he]
        exact hi

/-- The last event of a run opened it or was made where the rest of the run ended. -/
theorem last (hr : Run M (h₁ ++ [e]) s) : s = e.after ∧
    ((∃ r, h₁ = [] ∧ M.opens e.call ∧ (M.exec e.call).Returns M.initial r e.after ∧
        e = ⟨M.initial, e.call, .ok r, e.after⟩) ∨
      (Run M h₁ e.before ∧ M.continues e.call ∧ e = M.transact e.before e.call)) := by
  generalize hh : h₁ ++ [e] = h at hr
  cases hr with
  | opened ho hx =>
    obtain ⟨rfl, hs⟩ | ⟨_, hs⟩ := List.append_eq_singleton_iff.mp hh
    · cases hs
      exact ⟨rfl, .inl ⟨_, rfl, ho, hx, rfl⟩⟩
    · cases hs
  | @step h s c hr hc =>
    obtain ⟨rfl, hs⟩ := List.append_inj' hh rfl
    cases hs
    exact ⟨rfl, .inr ⟨by simpa using hr, by simpa using hc, by simp⟩⟩

/-- A later call was made where the part of the run before it had ended. -/
theorem before (hr : Run M (h₁ ++ e :: h₂) s) (hc : ¬ M.opens e.call) : Run M h₁ e.before := by
  rcases hr.cut.last.2 with ⟨_, _, ho, _⟩ | ⟨hb, _⟩
  · exact (hc ho).elim
  · exact hb

/-! The same by positions in the history. -/

theorem upTo (hr : Run M h s) {m : Nat} (hm : h[m]? = some e) : Run M (h.take (m + 1)) e.after := by
  obtain ⟨hlt, rfl⟩ := List.getElem?_eq_some_iff.mp hm
  have hsplit : Run M (h.take m ++ h[m] :: h.drop (m + 1)) s := by
    rw [← List.drop_eq_getElem_cons hlt, List.take_append_drop]
    exact hr
  rw [List.take_succ_eq_append_getElem hlt]
  exact hsplit.cut

theorem upToBefore (hr : Run M h s) {m : Nat} (hm : h[m]? = some e) (hc : ¬ M.opens e.call) :
    Run M (h.take m) e.before := by
  obtain ⟨hlt, rfl⟩ := List.getElem?_eq_some_iff.mp hm
  have hup := hr.upTo hm
  rw [List.take_succ_eq_append_getElem hlt] at hup
  exact hup.before hc

/-- A run goes on with any list of calls that may follow. -/
theorem replay (hr : Run M h s) {cs : List κ} (hc : ∀ c ∈ cs, M.continues c) :
    Run M (h ++ (M.replay s cs).1) (M.replay s cs).2 := by
  induction cs generalizing h s with
  | nil => simpa [System.replay] using hr
  | cons c cs ih =>
    have hn := hr.step c (hc c (by simp))
    simpa [System.replay] using ih hn fun d hd => hc d (by simp [hd])

end Run
end ComdexRwa.Foundation
