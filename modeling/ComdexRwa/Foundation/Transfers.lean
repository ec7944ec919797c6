import Mathlib.Algebra.BigOperators.Group.List.Basic
import Mathlib.Algebra.Order.BigOperators.Group.List
import Mathlib.Algebra.Order.Ring.Int
import Mathlib.Algebra.Order.Ring.Nat

/-! Transfers between accounts, and what they change of the balances. The order of transfers is of no
importance to that, so a deposit that has been given back counts as never made. -/
namespace ComdexRwa.Foundation

/-- An amount of an asset `α` goes from one account `κ` to another, which may be the same. -/
structure Transfer (α κ : Type) where
  asset : α
  sender : κ
  receiver : κ
  amount : Nat
  deriving DecidableEq, Repr

namespace Transfer
variable {α κ ι : Type}

def back (t : Transfer α κ) : Transfer α κ := ⟨t.asset, t.receiver, t.sender, t.amount⟩

variable [DecidableEq α] [DecidableEq κ]

/-- What an account gains of an asset; a loss is negative. -/
def change (t : Transfer α κ) (asset : α) (account : κ) : Int :=
  if t.asset = asset then
    (if t.receiver = account then (t.amount : Int) else 0) - (if t.sender = account then (t.amount : Int) else 0)
  else 0

def changes (ts : List (Transfer α κ)) (asset : α) (account : κ) : Int :=
  (ts.map fun t => t.change asset account).sum

/-- Transfers that come to the same for everyone. -/
def Alike (ts us : List (Transfer α κ)) : Prop := ∀ asset account, changes ts asset account = changes us asset account

variable {ts us : List (Transfer α κ)} {asset : α} {account : κ}

private theorem change_back (t : Transfer α κ) : t.back.change asset account = - t.change asset account := by
  unfold change back
  split
  · exact (neg_sub _ _).symm
  · rfl

@[simp] theorem changes_nil : changes ([] : List (Transfer α κ)) asset account = 0 := rfl

@[simp] theorem changes_cons (t : Transfer α κ) :
    changes (t :: ts) asset account = t.change asset account + changes ts asset account := rfl

@[simp] theorem changes_append :
    changes (ts ++ us) asset account = changes ts asset account + changes us asset account := by
  rw [changes, List.map_append, List.sum_append]
  rfl

/-- One that sends nothing loses nothing. -/
theorem changes_nonneg (h : ∀ t ∈ ts, t.sender ≠ account) : 0 ≤ changes ts asset account := by
  apply List.sum_nonneg
  intro c hc
  obtain ⟨t, ht, rfl⟩ := List.mem_map.mp hc
  rw [change, if_neg (h t ht), sub_zero]
  split
  · split
    · exact Int.natCast_nonneg _
    · exact le_refl _
  · exact le_refl _

/-- What is received of an asset by one that sends nothing. -/
theorem changes_received (hsend : ∀ t ∈ ts, t.sender ≠ account) (hreceive : ∀ t ∈ ts, t.receiver = account) :
    changes ts asset account = ((ts.filter fun t => t.asset = asset).map fun t => t.amount).sum := by
  induction ts with
  | nil => rfl
  | cons t ts ih =>
    have htail := ih (fun u hu => hsend u (List.mem_cons_of_mem t hu)) fun u hu => hreceive u (List.mem_cons_of_mem t hu)
    rw [changes_cons, htail, change, if_pos (hreceive t List.mem_cons_self), if_neg (hsend t List.mem_cons_self)]
    by_cases hasset : t.asset = asset
    · rw [if_pos hasset, List.filter_cons_of_pos (by simpa using hasset), List.map_cons, List.sum_cons]
      push_cast
      rw [sub_zero]
    · rw [if_neg hasset, List.filter_cons_of_neg (by simpa using hasset), zero_add]

/-- What is made in any number comes to what each comes to. -/
private theorem changes_flatten {made : List ι} {moved : List (List (Transfer α κ))} {f : ι → Int}
    (h : List.Forall₂ (fun i ts => changes ts asset account = f i) made moved) :
    changes moved.flatten asset account = (made.map f).sum := by
  induction h with
  | nil => rfl
  | cons hi _ ih => rw [List.flatten_cons, changes_append, hi, ih, List.map_cons, List.sum_cons]

/-- Deposits are made and some of them given back: what then has changed is what the outstanding ones come to,
and what was kept of each. -/
theorem changes_outstanding {made returned outstanding : List ι} (hsplit : made.Perm (returned ++ outstanding))
    {ins outs : List (List (Transfer α κ))} {kept : ι → List (Transfer α κ)} {owed : ι → Transfer α κ}
    (hpaid : List.Forall₂ (fun i ts => Alike ts (owed i :: kept i)) made ins)
    (hgiven : List.Forall₂ (fun i ts => Alike ts [(owed i).back]) returned outs) :
    Alike (ins.flatten ++ outs.flatten) (outstanding.map owed ++ made.flatMap kept) := by
  intro asset account
  have hin : changes ins.flatten asset account =
      (made.map fun i => (owed i).change asset account + changes (kept i) asset account).sum :=
    changes_flatten (hpaid.imp fun i ts h => h asset account)
  have hout : changes outs.flatten asset account = - (returned.map fun i => (owed i).change asset account).sum := by
    rw [List.sum_neg, List.map_map]
    refine changes_flatten (hgiven.imp fun i ts h => ?_)
    rw [h, changes_cons, changes_nil, add_zero, change_back]
    rfl
  have hkept : changes (made.flatMap kept) asset account = (made.map fun i => changes (kept i) asset account).sum := by
    rw [List.flatMap_def]
    apply changes_flatten
    rw [List.forall₂_map_right_iff]
    exact List.forall₂_same.mpr fun _ _ => rfl
  have howed : changes (outstanding.map owed) asset account =
      (outstanding.map fun i => (owed i).change asset account).sum := by
    rw [changes, List.map_map]
    rfl
  have hmade : (made.map fun i => (owed i).change asset account).sum =
      (returned.map fun i => (owed i).change asset account).sum +
        (outstanding.map fun i => (owed i).change asset account).sum := by
    rw [(hsplit.map _).sum_eq, List.map_append, List.sum_append]
  rw [changes_append, changes_append, hin, hout, hkept, howed, List.sum_map_add, hmade]
  omega

end Transfer
end ComdexRwa.Foundation
