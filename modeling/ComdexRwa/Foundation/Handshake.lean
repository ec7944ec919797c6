import Mathlib.Data.List.Nodup
import Mathlib.Logic.Function.Basic

/-! Linking in two steps: one party asks, the other grants.
First as counts of open requests and of links, then as the lists each party keeps of its own. -/
namespace ComdexRwa.Foundation

/-- How many requests are open from one party to another, and how often two parties are linked. -/
@[ext] structure Handshake (α : Type) where
  pending : α → α → Nat
  linked : α → α → Nat

namespace Handshake
variable {α : Type}

def nobody : Handshake α := ⟨fun _ _ => 0, fun _ _ => 0⟩

/-- No request is open twice, nobody deals with themselves, and links are mutual. -/
structure Proper (g : Handshake α) : Prop where
  single : ∀ a b, g.pending a b ≤ 1
  alone : ∀ a, g.pending a a = 0 ∧ g.linked a a = 0
  mutually : ∀ a b, g.linked a b = g.linked b a

/-- Two parties are linked at most once, and once linked nothing is open between them. -/
structure Settled (g : Handshake α) : Prop where
  once : ∀ a b, g.linked a b ≤ 1
  closed : ∀ a b, 0 < g.linked a b → g.pending a b = 0

theorem Proper.nobody : (nobody : Handshake α).Proper :=
  ⟨fun _ _ => Nat.zero_le _, fun _ => ⟨rfl, rfl⟩, fun _ _ => rfl⟩

variable [DecidableEq α] {g g' : Handshake α} {a b : α}

/-- One more at a single place of a table of counts. -/
def mark (a b x y : α) : Nat := if x = a ∧ y = b then 1 else 0

@[simp] theorem mark_self (a b : α) : mark a b a b = 1 := if_pos ⟨rfl, rfl⟩

theorem mark_of_ne {a b x y : α} (h : ¬ (x = a ∧ y = b)) : mark a b x y = 0 := if_neg h

/-- Party `a` asks party `b`. -/
def ask (g : Handshake α) (a b : α) : Handshake α :=
  ⟨fun x y => g.pending x y + mark a b x y, g.linked⟩

/-- Party `b` grants what party `a` asked. -/
def grant (g : Handshake α) (a b : α) : Handshake α :=
  ⟨fun x y => g.pending x y - mark a b x y, fun x y => g.linked x y + mark a b x y + mark b a x y⟩

/-- Asking needs that nothing is open in that direction, granting that something is. -/
inductive Step : Handshake α → Handshake α → Prop where
  | ask {g : Handshake α} {a b : α} : a ≠ b → g.pending a b = 0 → Step g (g.ask a b)
  | grant {g : Handshake α} {a b : α} : a ≠ b → 0 < g.pending a b → Step g (g.grant a b)

theorem Proper.step (hp : g.Proper) (hs : Step g g') : g'.Proper := by
  cases hs with
  | @ask a b hne hz =>
    refine ⟨fun x y => ?_, fun x => ⟨?_, (hp.alone x).2⟩, hp.mutually⟩
    · change g.pending x y + mark a b x y ≤ 1
      by_cases hm : x = a ∧ y = b
      · obtain ⟨rfl, rfl⟩ := hm
        have hmark := mark_self x y
        omega
      · rw [mark_of_ne hm]
        exact hp.single x y
    · change g.pending x x + mark a b x x = 0
      rw [(hp.alone x).1, mark_of_ne (fun h => hne (h.1.symm.trans h.2))]
  | @grant a b hne hpos =>
    refine ⟨fun x y => ?_, fun x => ⟨?_, ?_⟩, fun x y => ?_⟩
    · exact Nat.le_trans (Nat.sub_le _ _) (hp.single x y)
    · change g.pending x x - mark a b x x = 0
      rw [(hp.alone x).1, Nat.zero_sub]
    · change g.linked x x + mark a b x x + mark b a x x = 0
      rw [(hp.alone x).2, mark_of_ne (fun h => hne (h.1.symm.trans h.2)),
        mark_of_ne (fun h => hne (h.2.symm.trans h.1))]
    · change g.linked x y + mark a b x y + mark b a x y = g.linked y x + mark a b y x + mark b a y x
      have hab : mark a b x y = mark b a y x := if_congr And.comm rfl rfl
      have hba : mark b a x y = mark a b y x := if_congr And.comm rfl rfl
      have := hp.mutually x y
      omega

private theorem Settled.ask (hs : g.Settled) (h : g.linked a b = 0) : (g.ask a b).Settled := by
  refine ⟨hs.once, fun x y hl => ?_⟩
  change g.pending x y + mark a b x y = 0
  rw [hs.closed x y hl, mark_of_ne]
  intro hx
  obtain ⟨rfl, rfl⟩ := hx
  exact Nat.ne_of_gt hl h

/-- Granting needs that the other party has no request of its own open in return. -/
private theorem Settled.grant (hs : g.Settled) (hp : g.Proper) (hpos : 0 < g.pending a b)
    (hr : g.pending b a = 0) : (g.grant a b).Settled := by
  have hne : a ≠ b := by
    rintro rfl
    exact Nat.ne_of_gt hpos (hp.alone a).1
  have hl : g.linked a b = 0 := Nat.eq_zero_of_not_pos fun h => Nat.ne_of_gt hpos (hs.closed a b h)
  have hl' : g.linked b a = 0 := (hp.mutually b a).trans hl
  have hone := hp.single a b
  constructor
  · intro x y
    change g.linked x y + mark a b x y + mark b a x y ≤ 1
    by_cases hx : x = a ∧ y = b
    · obtain ⟨rfl, rfl⟩ := hx
      have hmark := mark_self x y
      have hother : mark y x x y = 0 := mark_of_ne fun h => hne h.1
      omega
    · by_cases hy : x = b ∧ y = a
      · obtain ⟨rfl, rfl⟩ := hy
        have hmark := mark_self x y
        have hother := mark_of_ne hx
        omega
      · rw [mark_of_ne hx, mark_of_ne hy]
        exact hs.once x y
  · intro x y hpos'
    change 0 < g.linked x y + mark a b x y + mark b a x y at hpos'
    change g.pending x y - mark a b x y = 0
    by_cases hx : x = a ∧ y = b
    · obtain ⟨rfl, rfl⟩ := hx
      rw [mark_self]
      omega
    · by_cases hy : x = b ∧ y = a
      · obtain ⟨rfl, rfl⟩ := hy
        rw [hr, Nat.zero_sub]
      · rw [mark_of_ne hx, mark_of_ne hy] at hpos'
        rw [hs.closed x y hpos', Nat.zero_sub]

/-- Asking a linked party leaves an open request between linked parties. -/
private theorem Settled.unlinked_of_ask (hs : (g.ask a b).Settled) : g.linked a b = 0 := by
  apply Nat.eq_zero_of_not_pos
  intro h
  have hz : g.pending a b + mark a b a b = 0 := hs.closed a b h
  rw [mark_self] at hz
  omega

/-- Granting while the other direction is open leaves that one open between linked parties. -/
private theorem Settled.unasked_of_grant (hs : (g.grant a b).Settled) (hne : a ≠ b) : g.pending b a = 0 := by
  have hpos : 0 < g.linked b a + mark a b b a + mark b a b a := by
    rw [mark_self b a]
    omega
  have hz : g.pending b a - mark a b b a = 0 := hs.closed b a hpos
  rwa [mark_of_ne (fun h => hne h.2), Nat.sub_zero] at hz

end Handshake

/-- The lists a party keeps: whom it asked, who asked it, and whom it is linked to. -/
@[ext] structure Notebooks (α : Type) where
  sent : α → List α
  received : α → List α
  contacts : α → List α

namespace Notebooks
variable {α : Type} [DecidableEq α] (n : Notebooks α) (a b : α)

def blank : Notebooks α := ⟨fun _ => [], fun _ => [], fun _ => []⟩

/-- A request, entered by both parties. -/
def ask : Notebooks α :=
  { n with
    sent := Function.update n.sent a (n.sent a ++ [b])
    received := Function.update n.received b (n.received b ++ [a]) }

/-- A grant by `b` of what `a` asked, entered by both parties. -/
def grant : Notebooks α :=
  { sent := Function.update n.sent a ((n.sent a).erase b)
    received := Function.update n.received b ((n.received b).erase a)
    contacts := Function.update (Function.update n.contacts b (n.contacts b ++ [a])) a (n.contacts a ++ [b]) }

/-- The counts that the askers' lists amount to. -/
def counts : Handshake α := ⟨fun a b => (n.sent a).count b, fun a b => (n.contacts a).count b⟩

/-- What one party wrote down as asked, the other wrote down as received. -/
private def Agree : Prop := ∀ a b, (n.sent a).count b = (n.received b).count a

private theorem count_push (l : α → List α) (x y : α) :
    (Function.update l a (l a ++ [b]) x).count y = (l x).count y + Handshake.mark a b x y := by
  by_cases hx : x = a
  · subst hx
    by_cases hy : y = b
    · subst hy
      simp
    · have hb : ¬ b = y := fun h => hy h.symm
      simp [hy, hb, Handshake.mark]
  · simp [hx, Handshake.mark]

private theorem count_drop (l : α → List α) (x y : α) :
    (Function.update l a ((l a).erase b) x).count y = (l x).count y - Handshake.mark a b x y := by
  by_cases hx : x = a
  · subst hx
    by_cases hy : y = b
    · subst hy
      simp
    · simp [hy, Handshake.mark, List.count_erase_of_ne hy]
  · simp [hx, Handshake.mark]

theorem counts_ask : (n.ask a b).counts = n.counts.ask a b := by
  ext x y
  · exact count_push a b n.sent x y
  · rfl

theorem counts_grant (hne : a ≠ b) : (n.grant a b).counts = n.counts.grant a b := by
  ext x y
  · exact count_drop a b n.sent x y
  · have hu : n.contacts a = Function.update n.contacts b (n.contacts b ++ [a]) a := by
      rw [Function.update_of_ne hne]
    change (Function.update (Function.update n.contacts b (n.contacts b ++ [a])) a (n.contacts a ++ [b]) x).count y
      = (n.contacts x).count y + Handshake.mark a b x y + Handshake.mark b a x y
    rw [hu, count_push, count_push]
    omega

private theorem Agree.ask {n : Notebooks α} (h : n.Agree) (a b : α) : (n.ask a b).Agree := by
  intro x y
  change (Function.update n.sent a (n.sent a ++ [b]) x).count y =
    (Function.update n.received b (n.received b ++ [a]) y).count x
  rw [count_push, count_push, h x y]
  exact congrArg _ (if_congr And.comm rfl rfl)

private theorem Agree.grant {n : Notebooks α} (h : n.Agree) (a b : α) : (n.grant a b).Agree := by
  intro x y
  change (Function.update n.sent a ((n.sent a).erase b) x).count y =
    (Function.update n.received b ((n.received b).erase a) y).count x
  rw [count_drop, count_drop, h x y]
  exact congrArg _ (if_congr And.comm rfl rfl)

/-- What both parties of every request and every link must have written down alike. -/
structure Reciprocal (n : Notebooks α) : Prop where
  agree : n.Agree
  proper : n.counts.Proper

variable {n : Notebooks α} {a b : α}

theorem Reciprocal.blank : (blank : Notebooks α).Reciprocal := ⟨fun _ _ => rfl, Handshake.Proper.nobody⟩

/-- A request stands in the asker's list exactly when it stands in the other party's. -/
theorem Reciprocal.sent_iff (hn : n.Reciprocal) : b ∈ n.sent a ↔ a ∈ n.received b := by
  rw [← List.count_pos_iff, hn.agree, List.count_pos_iff]

theorem Reciprocal.contacts_iff (hn : n.Reciprocal) : b ∈ n.contacts a ↔ a ∈ n.contacts b := by
  have hm : (n.contacts a).count b = (n.contacts b).count a := hn.proper.mutually a b
  rw [← List.count_pos_iff, hm, List.count_pos_iff]

theorem Reciprocal.alone (hn : n.Reciprocal) (a : α) :
    a ∉ n.sent a ∧ a ∉ n.received a ∧ a ∉ n.contacts a := by
  have hs : a ∉ n.sent a := List.count_eq_zero.mp (hn.proper.alone a).1
  exact ⟨hs, fun h => hs (hn.sent_iff.mpr h), List.count_eq_zero.mp (hn.proper.alone a).2⟩

/-- A received request was sent by somebody else. -/
theorem Reciprocal.ne_of_received (hn : n.Reciprocal) (h : a ∈ n.received b) : a ≠ b := by
  rintro rfl
  exact (hn.alone a).2.1 h

theorem Reciprocal.ask (hn : n.Reciprocal) (hne : a ≠ b) (hu : b ∉ n.sent a) : (n.ask a b).Reciprocal := by
  refine ⟨hn.agree.ask a b, ?_⟩
  rw [counts_ask]
  exact hn.proper.step (.ask hne (List.count_eq_zero.mpr hu))

theorem Reciprocal.grant (hn : n.Reciprocal) (hne : a ≠ b) (hs : b ∈ n.sent a) : (n.grant a b).Reciprocal := by
  refine ⟨hn.agree.grant a b, ?_⟩
  rw [counts_grant _ _ _ hne]
  exact hn.proper.step (.grant hne (List.count_pos_iff.mpr hs))

/-- Links form a set, and no request is open between linked parties, as each party's lists show it. -/
structure Exclusive (n : Notebooks α) : Prop where
  nodup : ∀ a, (n.contacts a).Nodup
  unsent : ∀ a, ∀ b ∈ n.contacts a, b ∉ n.sent a
  unreceived : ∀ a, ∀ b ∈ n.contacts a, b ∉ n.received a

theorem Exclusive.blank {β : Type} : (blank : Notebooks β).Exclusive :=
  ⟨fun _ => List.nodup_nil, fun _ _ h => (nomatch h), fun _ _ h => (nomatch h)⟩

/-- Between reciprocal lists the three conditions are those of the counts. -/
private theorem Reciprocal.exclusive_iff (hn : n.Reciprocal) : n.Exclusive ↔ n.counts.Settled := by
  constructor
  · intro hx
    refine ⟨fun a b => List.nodup_iff_count_le_one.mp (hx.nodup a) b, fun a b hl => ?_⟩
    exact List.count_eq_zero.mpr (hx.unsent a b (List.count_pos_iff.mp hl))
  · intro hs
    refine ⟨fun a => List.nodup_iff_count_le_one.mpr (hs.once a), fun a b hb => ?_, fun a b hb => ?_⟩
    · exact List.count_eq_zero.mp (hs.closed a b (List.count_pos_iff.mpr hb))
    · have hz := hs.closed b a (List.count_pos_iff.mpr (hn.contacts_iff.mp hb))
      rw [← hn.sent_iff]
      exact List.count_eq_zero.mp hz

/-- A request keeps links exclusive exactly when it is not between linked parties. -/
theorem Exclusive.ask_iff (hn : n.Reciprocal) (hx : n.Exclusive) (hne : a ≠ b) (hu : b ∉ n.sent a) :
    (n.ask a b).Exclusive ↔ b ∉ n.contacts a := by
  have hs := hn.exclusive_iff.mp hx
  rw [(hn.ask hne hu).exclusive_iff, counts_ask, ← List.count_eq_zero]
  exact ⟨fun h => h.unlinked_of_ask, fun h => hs.ask h⟩

/-- A grant keeps links exclusive exactly when the granter has asked for nothing in return. -/
theorem Exclusive.grant_iff (hn : n.Reciprocal) (hx : n.Exclusive) (hne : a ≠ b) (hp : b ∈ n.sent a) :
    (n.grant a b).Exclusive ↔ a ∉ n.sent b := by
  have hs := hn.exclusive_iff.mp hx
  rw [(hn.grant hne hp).exclusive_iff, counts_grant _ _ _ hne, ← List.count_eq_zero]
  exact ⟨fun h => h.unasked_of_grant hne, fun h => hs.grant hn.proper (List.count_pos_iff.mpr hp) h⟩

end Notebooks
end ComdexRwa.Foundation
