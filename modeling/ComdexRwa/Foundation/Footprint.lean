import ComdexRwa.Foundation.Outcome
import ComdexRwa.Foundation.Run
import Mathlib.Data.Set.Basic

/-! Footprints: which cells of a store a call may look at, and which it may change. A call cut off halfway
has one too. Calls whose footprints do not meet can be made in any order. -/
namespace ComdexRwa.Foundation

/-- A store cut into cells, which together make it up. -/
structure Layout (σ γ : Type) where
  Val : γ → Type
  read : σ → (cell : γ) → Val cell
  ext : ∀ s t, (∀ cell, read s cell = read t cell) → s = t

/-- The cells a call may change, and those it may look at besides. -/
structure Footprint (γ : Type) where
  looks : Set γ
  writes : Set γ

namespace Footprint
variable {γ : Type}

/-- What a call leaves in a cell may depend on what was there, so every cell it changes counts as read. -/
def reads (F : Footprint γ) : Set γ := F.looks ∪ F.writes

/-- Neither call changes a cell that the other one reads. -/
structure Apart (F G : Footprint γ) : Prop where
  right_reads : ∀ cell ∈ F.writes, cell ∉ G.reads
  left_reads : ∀ cell ∈ G.writes, cell ∉ F.reads

theorem Apart.symm {F G : Footprint γ} (h : F.Apart G) : G.Apart F := ⟨h.left_reads, h.right_reads⟩

end Footprint

section Acts
variable {σ γ ρ ρ' : Type} (L : Layout σ γ)

/-- Stores that hold the same in all of the given cells. -/
def Layout.Alike (cells : Set γ) (s t : σ) : Prop := ∀ cell ∈ cells, L.read s cell = L.read t cell

/-- From `s` an act keeps to a footprint: on any store that holds the same where it reads, it answers the
same and leaves the same there, and it changes nothing else. -/
structure KeepsTo (act : σ → ρ × σ) (F : Footprint γ) (s : σ) : Prop where
  answer : ∀ t, L.Alike F.reads s t → (act t).1 = (act s).1
  inside : ∀ t, L.Alike F.reads s t → L.Alike F.reads (act s).2 (act t).2
  outside : ∀ t, L.Alike F.reads s t → ∀ cell ∉ F.writes, L.read (act t).2 cell = L.read t cell

namespace KeepsTo
variable {L} {act : σ → ρ × σ} {act' : σ → ρ' × σ} {F G : Footprint γ} {s : σ}

/-- What an act leaves is, to an act that is apart from it, the store it found. -/
private theorem alike_after (h : KeepsTo L act F s) (hapart : F.Apart G) : L.Alike G.reads s (act s).2 := by
  intro cell hcell
  exact (h.outside s (fun _ _ => rfl) cell fun hw => hapart.right_reads cell hw hcell).symm

private theorem answer_after (h : KeepsTo L act F s) (h' : KeepsTo L act' G s) (hapart : F.Apart G) :
    (act' (act s).2).1 = (act' s).1 := h'.answer _ (h.alike_after hapart)

/-- Two acts that are apart leave the same store in either order. -/
private theorem comm (h : KeepsTo L act F s) (h' : KeepsTo L act' G s) (hapart : F.Apart G) :
    (act' (act s).2).2 = (act (act' s).2).2 := by
  have hs := h.alike_after hapart
  have hs' := h'.alike_after hapart.symm
  apply L.ext
  intro cell
  by_cases hf : cell ∈ F.writes
  · have hg : cell ∉ G.writes := fun hw => hapart.left_reads cell hw (.inr hf)
    calc L.read (act' (act s).2).2 cell = L.read (act s).2 cell := h'.outside _ hs cell hg
      _ = L.read (act (act' s).2).2 cell := h.inside _ hs' cell (.inr hf)
  · have hstays : L.read (act (act' s).2).2 cell = L.read (act' s).2 cell := h.outside _ hs' cell hf
    by_cases hg : cell ∈ G.writes
    · rw [hstays]
      exact (h'.inside _ hs cell (.inr hg)).symm
    · calc L.read (act' (act s).2).2 cell = L.read (act s).2 cell := h'.outside _ hs cell hg
        _ = L.read s cell := h.outside s (fun _ _ => rfl) cell hf
        _ = L.read (act' s).2 cell := (h'.outside s (fun _ _ => rfl) cell hg).symm
        _ = L.read (act (act' s).2).2 cell := hstays.symm

end KeepsTo
end Acts

/-! A sequence keeps to a footprint when each of its steps does. -/

namespace Txn
variable {σ ε α β γ : Type}

/-- How a call ends, and the store it then leaves, with nothing undone. -/
def ending (x : Txn σ ε α) (s : σ) : Except (Abort ε) α × σ :=
  match x.run s with
  | .ok a s' => (.ok a, s')
  | .error e s' => (.error e, s')

private theorem Returns.ending {x : Txn σ ε α} {s s' : σ} {a : α} (h : x.Returns s a s') :
    x.ending s = (.ok a, s') := by
  unfold Txn.ending
  rw [show x.run s = .ok a s' from h]

private theorem Aborts.ending {x : Txn σ ε α} {s s' : σ} {e : Abort ε} (h : x.Aborts s e s') :
    x.ending s = (.error e, s') := by
  unfold Txn.ending
  rw [show x.run s = .error e s' from h]

private theorem returns_of_ending {x : Txn σ ε α} {s s' : σ} {a : α} (h : x.ending s = (.ok a, s')) :
    x.Returns s a s' := by
  rcases x.returns_or_aborts s with ⟨b, t, hx⟩ | ⟨e, t, hx⟩
  · cases hx.ending.symm.trans h
    exact hx
  · cases hx.ending.symm.trans h

private theorem aborts_of_ending {x : Txn σ ε α} {s s' : σ} {e : Abort ε} (h : x.ending s = (.error e, s')) :
    x.Aborts s e s' := by
  rcases x.returns_or_aborts s with ⟨b, t, hx⟩ | ⟨f, t, hx⟩
  · cases hx.ending.symm.trans h
  · cases hx.ending.symm.trans h
    exact hx

variable {L : Layout σ γ} {F : Footprint γ} {s : σ}

theorem keepsTo_pure (a : α) : KeepsTo L (ending (pure a : Txn σ ε α)) F s :=
  ⟨fun _ _ => rfl, fun _ h => h, fun _ _ _ _ => rfl⟩

theorem keepsTo_throw (e : Abort ε) : KeepsTo L (ending (throw e : Txn σ ε α)) F s :=
  ⟨fun _ _ => rfl, fun _ h => h, fun _ _ _ _ => rfl⟩

/-- The second half is only reached from the store that the first one leaves. -/
theorem keepsTo_bind {x : Txn σ ε α} {f : α → Txn σ ε β} (hx : KeepsTo L x.ending F s)
    (hf : ∀ a s', x.Returns s a s' → KeepsTo L (f a).ending F s') : KeepsTo L (x >>= f).ending F s := by
  rcases x.returns_or_aborts s with ⟨a, s', hs⟩ | ⟨e, s', hs⟩
  · have hrest := hf a s' hs
    have hseq : (x >>= f).ending s = (f a).ending s' := by
      rcases (f a).returns_or_aborts s' with ⟨b, u, hb⟩ | ⟨e, u, hb⟩
      · rw [hb.ending, ((returns_bind_of_run hs f b u).mpr hb).ending]
      · rw [hb.ending, ((aborts_bind_of_run hs f e u).mpr hb).ending]
    have hstep (t : σ) (ht : L.Alike F.reads s t) : ∃ t', (x >>= f).ending t = (f a).ending t' ∧
        L.Alike F.reads s' t' ∧ ∀ cell ∉ F.writes, L.read t' cell = L.read t cell := by
      have hanswer := hx.answer t ht
      rw [hs.ending] at hanswer
      have ht' : x.Returns t a (x.ending t).2 := returns_of_ending (Prod.ext hanswer rfl)
      refine ⟨(x.ending t).2, ?_, ?_, hx.outside t ht⟩
      · rcases (f a).returns_or_aborts (x.ending t).2 with ⟨b, u, hb⟩ | ⟨e, u, hb⟩
        · rw [hb.ending, ((returns_bind_of_run ht' f b u).mpr hb).ending]
        · rw [hb.ending, ((aborts_bind_of_run ht' f e u).mpr hb).ending]
      · have hinside := hx.inside t ht
        rwa [hs.ending] at hinside
    constructor
    · intro t ht
      obtain ⟨t', he, ht', _⟩ := hstep t ht
      rw [he, hseq]
      exact hrest.answer t' ht'
    · intro t ht
      obtain ⟨t', he, ht', _⟩ := hstep t ht
      rw [he, hseq]
      exact hrest.inside t' ht'
    · intro t ht cell hcell
      obtain ⟨t', he, ht', hout⟩ := hstep t ht
      rw [he, hrest.outside t' ht' cell hcell, hout cell hcell]
  · have hstep (t : σ) (ht : L.Alike F.reads s t) : (x >>= f).ending t = (.error e, (x.ending t).2) := by
      have hanswer := hx.answer t ht
      rw [hs.ending] at hanswer
      have ht' : x.Aborts t e (x.ending t).2 := aborts_of_ending (Prod.ext hanswer rfl)
      exact Aborts.ending ((aborts_bind_of_aborts ht' f e _).mpr ⟨rfl, rfl⟩)
    have hseq := hstep s fun _ _ => rfl
    constructor
    · intro t ht
      rw [hstep t ht, hseq]
    · intro t ht
      rw [hstep t ht, hseq]
      exact hx.inside t ht
    · intro t ht
      rw [hstep t ht]
      exact hx.outside t ht

theorem keepsTo_ensure_bind {p : Prop} [Decidable p] {e : ε} {f : Unit → Txn σ ε β}
    (hf : p → KeepsTo L (f ()).ending F s) : KeepsTo L (ensure p e >>= f).ending F s := by
  by_cases hp : p
  · rw [ensure, if_pos hp, pure_bind]
    exact hf hp
  · rw [ensure, if_neg hp]
    exact keepsTo_throw _

theorem keepsTo_okOr_bind {e : ε} {o : Option α} {f : α → Txn σ ε β}
    (hf : ∀ a, o = some a → KeepsTo L (f a).ending F s) : KeepsTo L (okOr e o >>= f).ending F s := by
  cases o with
  | none => exact keepsTo_throw _
  | some a =>
    rw [okOr, pure_bind]
    exact hf a rfl

theorem keepsTo_expect_bind {o : Option α} {f : α → Txn σ ε β}
    (hf : ∀ a, o = some a → KeepsTo L (f a).ending F s) : KeepsTo L (expect o >>= f).ending F s := by
  cases o with
  | none => exact keepsTo_throw _
  | some a =>
    rw [expect, pure_bind]
    exact hf a rfl

end Txn

namespace Item
variable {σ ε α β γ : Type} {item : Item σ ε α} {L : Layout σ γ} {cell : γ} {F : Footprint γ} {s : σ}

/-- The item is kept in one cell of the layout. -/
structure LiesAt (item : Item σ ε α) (L : Layout σ γ) (cell : γ) : Prop where
  read : ∀ s t, L.read s cell = L.read t cell → item.read s = item.read t
  written : ∀ a s t, L.read (item.write a s) cell = L.read (item.write a t) cell
  frame : ∀ a s other, other ≠ cell → L.read (item.write a s) other = L.read s other

theorem keepsTo_mayLoad_bind (hat : item.LiesAt L cell) {f : Option α → Txn σ ε β} (hcell : cell ∈ F.reads)
    (hf : KeepsTo L (f (item.read s)).ending F s) : KeepsTo L (item.mayLoad >>= f).ending F s := by
  apply Txn.keepsTo_bind
  · refine ⟨fun t ht => ?_, fun t ht => ht, fun t ht other _ => rfl⟩
    exact congrArg Except.ok (hat.read s t (ht cell hcell)).symm
  · intro o s' hs
    cases hs
    exact hf

theorem keepsTo_load_bind (hat : item.LiesAt L cell) {f : α → Txn σ ε β} (hcell : cell ∈ F.reads)
    (hf : ∀ a, item.read s = some a → KeepsTo L (f a).ending F s) : KeepsTo L (item.load >>= f).ending F s := by
  rw [load, bind_assoc]
  apply keepsTo_mayLoad_bind hat hcell
  exact Txn.keepsTo_okOr_bind hf

theorem keepsTo_save_bind (hat : item.LiesAt L cell) {a : α} {f : Unit → Txn σ ε β} (hcell : cell ∈ F.writes)
    (hf : KeepsTo L (f ()).ending F (item.write a s)) : KeepsTo L (item.save a >>= f).ending F s := by
  apply Txn.keepsTo_bind
  · refine ⟨fun t _ => rfl, fun t ht other hother => ?_, fun t _ other hother => ?_⟩
    · by_cases hc : other = cell
      · subst hc
        exact hat.written a s t
      · calc L.read (item.write a s) other = L.read s other := hat.frame a s other hc
          _ = L.read t other := ht other hother
          _ = L.read (item.write a t) other := (hat.frame a t other hc).symm
    · exact hat.frame a t other fun hc => hother (hc ▸ hcell)
  · intro u s' hs
    cases hs
    exact hf

end Item

namespace Table
variable {σ ε κ α β γ : Type} [DecidableEq κ] {table : Table σ ε κ α} {L : Layout σ γ} {cell : κ → γ}
variable {F : Footprint γ} {s : σ} {k : κ}

/-- Every key of the table has a cell of its own. -/
structure LiesAt (table : Table σ ε κ α) (L : Layout σ γ) (cell : κ → γ) : Prop where
  read : ∀ k s t, L.read s (cell k) = L.read t (cell k) → (table.read s).lookup k = (table.read t).lookup k
  written : ∀ k a s t, L.read (table.write ((table.read s).insert k a) s) (cell k) =
    L.read (table.write ((table.read t).insert k a) t) (cell k)
  frame : ∀ k a s other, other ≠ cell k →
    L.read (table.write ((table.read s).insert k a) s) other = L.read s other

theorem keepsTo_mayLoad_bind (hat : table.LiesAt L cell) {f : Option α → Txn σ ε β} (hcell : cell k ∈ F.reads)
    (hf : KeepsTo L (f ((table.read s).lookup k)).ending F s) :
    KeepsTo L (table.mayLoad k >>= f).ending F s := by
  apply Txn.keepsTo_bind
  · refine ⟨fun t ht => ?_, fun t ht => ht, fun t ht other _ => rfl⟩
    exact congrArg Except.ok (hat.read k s t (ht (cell k) hcell)).symm
  · intro o s' hs
    cases hs
    exact hf

theorem keepsTo_load_bind (hat : table.LiesAt L cell) {f : α → Txn σ ε β} (hcell : cell k ∈ F.reads)
    (hf : ∀ a, (table.read s).lookup k = some a → KeepsTo L (f a).ending F s) :
    KeepsTo L (table.load k >>= f).ending F s := by
  rw [load, bind_assoc]
  apply keepsTo_mayLoad_bind hat hcell
  exact Txn.keepsTo_okOr_bind hf

theorem keepsTo_save_bind (hat : table.LiesAt L cell) {a : α} {f : Unit → Txn σ ε β} (hcell : cell k ∈ F.writes)
    (hf : KeepsTo L (f ()).ending F (table.write ((table.read s).insert k a) s)) :
    KeepsTo L (table.save k a >>= f).ending F s := by
  apply Txn.keepsTo_bind
  · refine ⟨fun t _ => rfl, fun t ht other hother => ?_, fun t _ other hother => ?_⟩
    · by_cases hc : other = cell k
      · subst hc
        exact hat.written k a s t
      · calc L.read (table.write ((table.read s).insert k a) s) other = L.read s other := hat.frame k a s other hc
          _ = L.read t other := ht other hother
          _ = L.read (table.write ((table.read t).insert k a) t) other := (hat.frame k a t other hc).symm
    · exact hat.frame k a t other fun hc => hother (hc ▸ hcell)
  · intro u s' hs
    cases hs
    exact hf

end Table

/-! Calls of a system, made under rollback, in an order that does not matter. -/

namespace System
variable {σ κ ε ω γ : Type} {M : System σ κ ε ω} {L : Layout σ γ} {F : Footprint γ} {s : σ} {c : κ}

/-- One call under rollback: its reply, and the store it leaves. -/
private def attempt (M : System σ κ ε ω) (c : κ) (s : σ) : Except (Abort ε) ω × σ :=
  ((M.transact s c).reply, (M.transact s c).after)

private theorem attempt_of_returns {r : ω} {s' : σ} (h : (M.exec c).Returns s r s') :
    M.attempt c s = (.ok r, s') := by
  rw [attempt, transact_of_returns h]

private theorem attempt_of_aborts {e : Abort ε} {s' : σ} (h : (M.exec c).Aborts s e s') :
    M.attempt c s = (.error e, s) := by
  have hx : M.transact s c = ⟨s, c, .error e, s⟩ := by
    unfold transact
    rw [show (M.exec c).run s = .error e s' from h]
  rw [attempt, hx]

/-- Undoing a call that fails does not widen its footprint. -/
private theorem keepsTo_attempt (h : KeepsTo L (M.exec c).ending F s) : KeepsTo L (M.attempt c) F s := by
  rcases (M.exec c).returns_or_aborts s with ⟨r, s', hs⟩ | ⟨e, s', hs⟩
  · have hx (t : σ) (ht : L.Alike F.reads s t) : M.attempt c t = (M.exec c).ending t := by
      have hanswer := h.answer t ht
      rw [hs.ending] at hanswer
      have hend : (M.exec c).ending t = (.ok r, ((M.exec c).ending t).2) := Prod.ext hanswer rfl
      rw [attempt_of_returns (Txn.returns_of_ending hend), ← hend]
    have hxs := hx s fun _ _ => rfl
    constructor
    · intro t ht
      rw [hx t ht, hxs]
      exact h.answer t ht
    · intro t ht
      rw [hx t ht, hxs]
      exact h.inside t ht
    · intro t ht
      rw [hx t ht]
      exact h.outside t ht
  · have hx (t : σ) (ht : L.Alike F.reads s t) : M.attempt c t = (.error e, t) := by
      have hanswer := h.answer t ht
      rw [hs.ending] at hanswer
      have hend : (M.exec c).ending t = (.error e, ((M.exec c).ending t).2) := Prod.ext hanswer rfl
      exact attempt_of_aborts (Txn.aborts_of_ending hend)
    have hxs := hx s fun _ _ => rfl
    constructor
    · intro t ht
      rw [hx t ht, hxs]
    · intro t ht
      rw [hx t ht, hxs]
      exact ht
    · intro t ht cell _
      rw [hx t ht]

/-- A footprint for every call from every store, which nothing outside it can change. -/
structure Footprints (M : System σ κ ε ω) (L : Layout σ γ) where
  of : κ → σ → Footprint γ
  keeps : ∀ c s, KeepsTo L (M.exec c).ending (of c s) s
  stable : ∀ c s t, L.Alike (of c s).reads s t → of c t = of c s

namespace Footprints
variable (fp : Footprints M L)

private theorem of_after {c d : κ} (h : (fp.of c s).Apart (fp.of d s)) :
    fp.of d (M.transact s c).after = fp.of d s := by
  apply fp.stable
  exact (keepsTo_attempt (fp.keeps c s)).alike_after h

/-- After one of them, the remaining calls are still apart from each other. -/
private theorem pairwise_after {c : κ} {cs : List κ} (hc : ∀ d ∈ cs, (fp.of c s).Apart (fp.of d s))
    (hcs : cs.Pairwise fun d e => (fp.of d s).Apart (fp.of e s)) :
    cs.Pairwise fun d e => (fp.of d (M.transact s c).after).Apart (fp.of e (M.transact s c).after) := by
  refine hcs.imp_of_mem ?_
  intro d e hd he h
  rw [fp.of_after (hc d hd), fp.of_after (hc e he)]
  exact h

/-- Calls apart from each other answer in a row as each of them would on its own. -/
theorem reply_replay {cs : List κ} (h : cs.Pairwise fun c d => (fp.of c s).Apart (fp.of d s))
    {e : Event σ κ ε ω} (he : e ∈ (M.replay s cs).1) : e.reply = (M.transact s e.call).reply := by
  induction cs generalizing s with
  | nil => cases he
  | cons c cs ih =>
    obtain ⟨hc, hcs⟩ := List.pairwise_cons.mp h
    rcases List.mem_cons.mp he with rfl | he
    · rw [transact_call]
    · have hmem : e.call ∈ cs := by
        rw [← M.calls_replay (M.transact s c).after cs]
        exact List.mem_map_of_mem he
      rw [ih (fp.pairwise_after hc hcs) he]
      exact (keepsTo_attempt (fp.keeps c s)).answer_after (keepsTo_attempt (fp.keeps e.call s)) (hc _ hmem)

/-- They leave the same store in every order. -/
theorem replay_perm {cs ds : List κ} (hp : cs.Perm ds)
    (h : cs.Pairwise fun c d => (fp.of c s).Apart (fp.of d s)) : (M.replay s cs).2 = (M.replay s ds).2 := by
  induction hp generalizing s with
  | nil => rfl
  | cons c _ ih =>
    obtain ⟨hc, hcs⟩ := List.pairwise_cons.mp h
    exact ih (fp.pairwise_after hc hcs)
  | swap c d cs =>
    obtain ⟨hd, _⟩ := List.pairwise_cons.mp h
    have hcomm : (M.transact (M.transact s d).after c).after = (M.transact (M.transact s c).after d).after :=
      (keepsTo_attempt (fp.keeps d s)).comm (keepsTo_attempt (fp.keeps c s)) (hd c List.mem_cons_self)
    exact congrArg (fun t => (M.replay t cs).2) hcomm
  | trans hp _ ih ih' =>
    rw [ih h]
    exact ih' (hp.pairwise h fun hcd => hcd.symm)

end Footprints
end System
end ComdexRwa.Foundation
