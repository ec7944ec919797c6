import ComdexRwa.Foundation.Run

/-! A system that does what an abstract machine allows, and all of it. The store is seen through a view, and
every call stands for a move or for none; a call without a move is never answered. -/
namespace ComdexRwa.Foundation

/-- Where a machine starts, and which moves lead from where to where. -/
structure Machine (τ ℓ : Type) where
  start : τ
  step : τ → ℓ → τ → Prop

/-- Moves made one after the other. -/
inductive Machine.Steps {τ ℓ : Type} (A : Machine τ ℓ) : τ → List ℓ → τ → Prop where
  | nil (t : τ) : A.Steps t [] t
  | cons {t u v : τ} {l : ℓ} {ls : List ℓ} : A.step t l u → A.Steps u ls v → A.Steps t (l :: ls) v

private theorem Machine.Steps.append {τ ℓ : Type} {A : Machine τ ℓ} {t u v : τ} {ls ms : List ℓ} (h : A.Steps t ls u)
    (h' : A.Steps u ms v) : A.Steps t (ls ++ ms) v := by
  induction h with
  | nil _ => exact h'
  | cons hstep _ ih => exact .cons hstep (ih h')

/-- What every move keeps, any series of moves keeps. -/
theorem Machine.Steps.keeps {τ ℓ : Type} {A : Machine τ ℓ} {I : τ → Prop} {t u : τ} {ls : List ℓ} (h : A.Steps t ls u)
    (kept : ∀ t l u, A.step t l u → I t → I u) (ht : I t) : I u := by
  induction h with
  | nil _ => exact ht
  | cons hstep _ ih => exact ih (kept _ _ _ hstep ht)

section Refinement
variable {σ κ ε ω τ ℓ : Type}

/-- The move that an event has made: a call that is rolled back makes none. -/
def Event.made (move : κ → Option ℓ) (e : Event σ κ ε ω) : Option ℓ :=
  match e.reply with
  | .ok _ => move e.call
  | .error _ => none

/-- From every store reached, a call returns exactly when its move is allowed, and then makes it. -/
structure Implements (M : System σ κ ε ω) (A : Machine τ ℓ) (view : σ → τ) (move : κ → Option ℓ) : Prop where
  opening : ∀ c r s, M.opens c → (M.exec c).Returns M.initial r s → move c = none ∧ view s = A.start
  sound : ∀ h s c r s', Run M h s → M.continues c → (M.exec c).Returns s r s' →
    ∃ l, move c = some l ∧ A.step (view s) l (view s')
  complete : ∀ h s c l t, Run M h s → M.continues c → move c = some l → A.step (view s) l t →
    ∃ r s', (M.exec c).Returns s r s' ∧ view s' = t

namespace Implements
variable {M : System σ κ ε ω} {A : Machine τ ℓ} {view : σ → τ} {move : κ → Option ℓ}
variable {h : List (Event σ κ ε ω)} {s : σ}

/-- Every run is a series of moves of the machine. -/
theorem steps (hi : Implements M A view move) (hr : Run M h s) :
    A.Steps A.start (h.filterMap (Event.made move)) (view s) := by
  refine hr.rule (I := fun h s => A.Steps A.start (h.filterMap (Event.made move)) (view s)) ?_ ?_ ?_
  · intro c r s hc hret
    obtain ⟨hmove, hview⟩ := hi.opening c r s hc hret
    rw [List.filterMap_cons_none (by exact hmove), hview]
    exact .nil _
  · intro h s c r s' hr hsteps hc hret
    obtain ⟨l, hmove, hstep⟩ := hi.sound h s c r s' hr hc hret
    rw [List.filterMap_append, List.filterMap_cons_some (by exact hmove)]
    exact hsteps.append (.cons hstep (.nil _))
  · intro h s c e hr hsteps hc hno
    rw [List.filterMap_append, List.filterMap_cons_none rfl, List.filterMap_nil, List.append_nil]
    exact hsteps

/-- Every series of moves from where a run has led is made by any calls that stand for it. -/
theorem realised (hi : Implements M A view move) (hr : Run M h s) {cs : List κ} {ls : List ℓ} {t : τ}
    (hc : ∀ c ∈ cs, M.continues c) (hmoves : cs.map move = ls.map some) (hsteps : A.Steps (view s) ls t) :
    ∃ h' s', Run M (h ++ h') s' ∧ h'.map Event.call = cs ∧ (∀ e ∈ h', ∃ r, e.reply = .ok r) ∧ view s' = t := by
  induction cs generalizing h s ls with
  | nil =>
    obtain rfl : ls = [] := List.map_eq_nil_iff.mp hmoves.symm
    cases hsteps
    exact ⟨[], s, by rwa [List.append_nil], rfl, fun e he => (nomatch he), rfl⟩
  | cons c cs ih =>
    cases hsteps with
    | nil _ => cases hmoves
    | @cons _ u _ l ls hstep hsteps =>
      obtain ⟨hmove, hmoves⟩ := List.cons_eq_cons.mp hmoves
      obtain ⟨r, s', hret, rfl⟩ := hi.complete h s c l u hr (hc c List.mem_cons_self) hmove hstep
      have hnext := hr.step c (hc c List.mem_cons_self)
      rw [System.transact_of_returns hret] at hnext
      obtain ⟨h', s'', hrun, hcalls, hreplies, hview⟩ :=
        ih hnext (fun d hd => hc d (List.mem_cons_of_mem c hd)) hmoves hsteps
      refine ⟨⟨s, c, .ok r, s'⟩ :: h', s'', ?_, ?_, ?_, hview⟩
      · rwa [List.append_assoc, List.singleton_append] at hrun
      · rw [List.map_cons, hcalls]
      · intro e he
        rcases List.mem_cons.mp he with rfl | he
        · exact ⟨r, rfl⟩
        · exact hreplies e he

theorem returns_iff (hi : Implements M A view move) (hr : Run M h s) {c : κ} (hc : M.continues c) :
    (∃ r s', (M.exec c).Returns s r s') ↔ ∃ l t, move c = some l ∧ A.step (view s) l t := by
  constructor
  · rintro ⟨r, s', hret⟩
    obtain ⟨l, hmove, hstep⟩ := hi.sound h s c r s' hr hc hret
    exact ⟨l, view s', hmove, hstep⟩
  · rintro ⟨l, t, hmove, hstep⟩
    obtain ⟨r, s', hret, _⟩ := hi.complete h s c l t hr hc hmove hstep
    exact ⟨r, s', hret⟩

/-- Stores that look the same answer the same calls, and look the same after them, for ever. -/
theorem alike {M' : System σ κ ε ω} {h' : List (Event σ κ ε ω)} {s' : σ} (hi : Implements M A view move)
    (hi' : Implements M' A view move) (hr : Run M h s) (hr' : Run M' h' s') (hsame : view s = view s') {cs : List κ}
    (hc : ∀ c ∈ cs, M.continues c ∧ M'.continues c) :
    (M.replay s cs).1.map (fun e => e.reply.isOk) = (M'.replay s' cs).1.map (fun e => e.reply.isOk) ∧
      view (M.replay s cs).2 = view (M'.replay s' cs).2 := by
  induction cs generalizing h s h' s' with
  | nil => exact ⟨rfl, hsame⟩
  | cons c cs ih =>
    obtain ⟨hcont, hcont'⟩ := hc c List.mem_cons_self
    have hhead : (M.transact s c).reply.isOk = (M'.transact s' c).reply.isOk ∧
        view (M.transact s c).after = view (M'.transact s' c).after := by
      have hiff := hi.returns_iff hr hcont
      rw [hsame, ← hi'.returns_iff hr' hcont'] at hiff
      rcases M.transact_cases s c with ⟨r, t, hret, he⟩ | ⟨f, hno, he⟩
      · obtain ⟨l, hmove, hstep⟩ := hi.sound h s c r t hr hcont hret
        rw [hsame] at hstep
        obtain ⟨r', t', hret', hview⟩ := hi'.complete h' s' c l _ hr' hcont' hmove hstep
        rw [he, System.transact_of_returns hret']
        exact ⟨rfl, hview.symm⟩
      · rcases M'.transact_cases s' c with ⟨r', t', hret', _⟩ | ⟨f', _, he'⟩
        · obtain ⟨r, t, hret⟩ := hiff.mpr ⟨r', t', hret'⟩
          exact (hno r t hret).elim
        · rw [he, he']
          exact ⟨rfl, hsame⟩
    obtain ⟨htail, hend⟩ := ih (hr.step c hcont) (hr'.step c hcont') hhead.2 fun d hd => hc d (List.mem_cons_of_mem c hd)
    simp only [System.replay, List.map_cons, hhead.1, htail]
    exact ⟨trivial, hend⟩

end Implements
end Refinement
end ComdexRwa.Foundation
