import ComdexRwa.Foundation.Instalment
import ComdexRwa.Foundation.Refinement
import Mathlib.Data.Set.Insert
import Mathlib.Logic.Function.Basic

/-! A market: members become partners by asking and granting, offer deals to their partners, and agree to and
pay the deals they are offered. -/
namespace ComdexRwa.Foundation

/-- What `debtor` owes to `creditor`, in amounts of `denom`. -/
structure Deal (α δ : Type) where
  creditor : α
  debtor : α
  denom : δ
  debt : Debt
  deriving DecidableEq, Repr

variable {α δ κ : Type}

/-- Who has joined, who has asked whom and who deals with whom, what can be paid in, and the deals by their
numbers, up to the last one that is used up. -/
@[ext] structure Market (α δ κ : Type) where
  members : Set α
  asked : Set (α × α)
  partners : Set (α × α)
  assets : Set δ
  deals : κ → Option (Deal α δ)
  last : κ

namespace Market

inductive Move (α δ κ : Type) where
  | join (a : α)
  | ask (a b : α)
  | grant (a b : α)
  | offer (a b : α) (denom : δ) (amount due : Nat)
  | accept (b : α) (k : κ)
  | pay (b : α) (k : κ) (denom : δ) (amount : Nat)
  | configure (assets : Set δ)
  | idle

/-- `follows` says which number a new deal gets after the last one, and which is then the last one. -/
inductive Step [DecidableEq κ] (follows : κ → κ → κ → Prop) (m : Market α δ κ) : Move α δ κ → Market α δ κ → Prop where
  | join {a : α} : a ∉ m.members → Step follows m (.join a) { m with members := insert a m.members }
  | ask {a b : α} : a ≠ b → a ∈ m.members → b ∈ m.members → (a, b) ∉ m.asked →
      Step follows m (.ask a b) { m with asked := insert (a, b) m.asked }
  | grant {a b : α} : (a, b) ∈ m.asked → Step follows m (.grant a b)
      { m with
        asked := m.asked \ {(a, b)}
        partners := insert (a, b) (insert (b, a) m.partners) }
  | offer {a b : α} {denom : δ} {amount due : Nat} {k last : κ} : (a, b) ∈ m.partners → denom ∈ m.assets →
      due ≤ amount → follows m.last k last → Step follows m (.offer a b denom amount due)
        { m with
          deals := Function.update m.deals k (some ⟨a, b, denom, ⟨amount, 0, due, .proposed⟩⟩)
          last := last }
  | accept {k : κ} {d : Deal α δ} : m.deals k = some d → d.debt.stage = .proposed →
      Step follows m (.accept d.debtor k)
        { m with deals := Function.update m.deals k (some { d with debt := d.debt.agree }) }
  | pay {k : κ} {d : Deal α δ} {denom : δ} {amount : Nat} : m.deals k = some d → d.debt.stage ≠ .proposed →
      d.debt.stage ≠ .settled → denom ∈ m.assets → d.debt.paid + amount ≤ d.debt.amount →
      Step follows m (.pay d.debtor k denom amount)
        { m with deals := Function.update m.deals k (some { d with debt := d.debt.pay amount }) }
  | configure (assets : Set δ) : Step follows m (.configure assets) { m with assets := assets }
  | idle : Step follows m .idle m

/-- An empty market, in which the number `first` is used up. -/
def machine [DecidableEq κ] (follows : κ → κ → κ → Prop) (first : κ) : Machine (Market α δ κ) (Move α δ κ) :=
  ⟨⟨∅, ∅, ∅, ∅, fun _ => none, first⟩, Step follows⟩

/-- Partners are partners both ways, and every deal is between partners. -/
structure Orderly (m : Market α δ κ) : Prop where
  mutually : ∀ a b, (a, b) ∈ m.partners → (b, a) ∈ m.partners
  partners : ∀ k d, m.deals k = some d → (d.creditor, d.debtor) ∈ m.partners

section Steps
variable [DecidableEq κ] {follows : κ → κ → κ → Prop} {m m' : Market α δ κ} {l : Move α δ κ}

/-- Nobody loses a partner. -/
theorem Step.partners_subset (hs : Step follows m l m') : m.partners ⊆ m'.partners := by
  cases hs with
  | grant _ => exact (Set.subset_insert _ _).trans (Set.subset_insert _ _)
  | _ => exact Set.Subset.refl _

/-- A deal that is put in between partners keeps a market orderly. -/
private theorem Orderly.enter (h : m.Orderly) {k : κ} {d : Deal α δ} (hd : (d.creditor, d.debtor) ∈ m.partners)
    (last : κ) :
    Orderly { m with deals := Function.update m.deals k (some d), last := last } := by
  refine ⟨h.mutually, fun j found hfound => ?_⟩
  change Function.update m.deals k (some d) j = some found at hfound
  by_cases hj : j = k
  · rw [hj, Function.update_self] at hfound
    cases hfound
    exact hd
  · rw [Function.update_of_ne hj] at hfound
    exact h.partners j found hfound

private theorem Step.orderly (hs : Step follows m l m') (h : m.Orderly) : m'.Orderly := by
  have hsubset := hs.partners_subset
  cases hs with
  | join _ => exact ⟨h.mutually, h.partners⟩
  | ask _ _ _ _ => exact ⟨h.mutually, h.partners⟩
  | @grant a b _ =>
    refine ⟨fun x y hxy => ?_, fun k d hd => hsubset (h.partners k d hd)⟩
    rcases hxy with hxy | hxy | hxy
    · cases hxy
      exact .inr (.inl rfl)
    · cases hxy
      exact .inl rfl
    · exact .inr (.inr (h.mutually x y hxy))
  | offer hpartner _ _ _ => exact h.enter hpartner _
  | @accept k d hd _ => exact h.enter (d := { d with debt := d.debt.agree }) (h.partners k d hd) m.last
  | @pay k d _ amount hd _ _ _ _ => exact h.enter (d := { d with debt := d.debt.pay amount }) (h.partners k d hd) m.last
  | configure _ => exact ⟨h.mutually, h.partners⟩
  | idle => exact h

theorem machine_orderly {first : κ} {ls : List (Move α δ κ)}
    (hs : (machine follows first).Steps (machine follows first).start ls m) : m.Orderly := by
  apply hs.keeps fun _ _ _ hstep => Step.orderly hstep
  exact ⟨fun _ _ h => (nomatch h), fun _ _ h => (nomatch h)⟩

end Steps
end Market

/-! Pairs that are kept as a list for each first member. -/

def pairs (l : α → List α) : Set (α × α) := {p | p.2 ∈ l p.1}

variable [DecidableEq α]

theorem pairs_push (l : α → List α) (a b : α) : pairs (Function.update l a (l a ++ [b])) = insert (a, b) (pairs l) := by
  ext ⟨x, y⟩
  change y ∈ Function.update l a (l a ++ [b]) x ↔ (x, y) = (a, b) ∨ y ∈ l x
  by_cases hx : x = a
  · subst hx
    rw [Function.update_self, List.mem_append, List.mem_singleton, Prod.mk.injEq, and_iff_right rfl, or_comm]
  · rw [Function.update_of_ne hx]
    exact (or_iff_right fun h => hx (congrArg Prod.fst h)).symm

theorem pairs_drop (l : α → List α) (a b : α) (hnodup : (l a).Nodup) :
    pairs (Function.update l a ((l a).erase b)) = pairs l \ {(a, b)} := by
  ext ⟨x, y⟩
  change y ∈ Function.update l a ((l a).erase b) x ↔ y ∈ l x ∧ (x, y) ≠ (a, b)
  by_cases hx : x = a
  · subst hx
    rw [Function.update_self, hnodup.mem_erase_iff, and_comm]
    exact and_congr_right fun _ => not_congr ⟨fun h => h ▸ rfl, congrArg Prod.snd⟩
  · rw [Function.update_of_ne hx]
    exact (and_iff_left fun h => hx (congrArg Prod.fst h)).symm

end ComdexRwa.Foundation
