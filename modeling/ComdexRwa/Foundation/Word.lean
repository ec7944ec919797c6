import Mathlib.Algebra.Order.Ring.Nat
import Mathlib.Tactic.Common

/-! Fixed-width unsigned words with checked arithmetic.
An operation that would leave the range has no result; the caller decides what that means. -/
namespace ComdexRwa.Foundation

/-- A natural number below `2^w`, so that an out-of-range word cannot be built. -/
@[ext] structure Word (w : Nat) where
  val : Nat
  isLt : val < 2^w
  deriving DecidableEq, Repr

namespace Word
variable {w : Nat}

/-- Literals are taken modulo the width, as a compiler would truncate them. -/
instance (n : Nat) : OfNat (Word w) n := ⟨n % 2^w, Nat.mod_lt _ (Nat.two_pow_pos w)⟩

@[simp] theorem val_zero : (0 : Word w).val = 0 := Nat.zero_mod _

private theorem val_injective : Function.Injective (Word.val (w := w)) := fun _ _ h => Word.ext h

instance : LinearOrder (Word w) := LinearOrder.lift' Word.val val_injective

theorem le_iff (a b : Word w) : a ≤ b ↔ a.val ≤ b.val := Iff.rfl
theorem lt_iff (a b : Word w) : a < b ↔ a.val < b.val := Iff.rfl

def checkedAdd (a b : Word w) : Option (Word w) :=
  if h : a.val + b.val < 2^w then some ⟨a.val + b.val, h⟩ else none

/-- The difference, cut off at zero. -/
def minus (a b : Word w) : Word w := ⟨a.val - b.val, Nat.lt_of_le_of_lt (Nat.sub_le _ _) a.isLt⟩

@[simp] theorem val_minus (a b : Word w) : (a.minus b).val = a.val - b.val := rfl

@[simp] theorem minus_self (a : Word w) : a.minus a = 0 := by
  apply Word.ext
  simp

def checkedSub (a b : Word w) : Option (Word w) := if b ≤ a then some (a.minus b) else none

/-- A sum exists exactly when some word holds it; the range check is the word's own. -/
theorem checkedAdd_eq_some (a b c : Word w) : a.checkedAdd b = some c ↔ c.val = a.val + b.val := by
  unfold checkedAdd
  constructor
  · intro h
    split at h
    · cases h
      rfl
    · cases h
  · intro h
    rw [dif_pos (h ▸ c.isLt)]
    exact congrArg some (Word.ext h.symm)

theorem checkedSub_eq_some (a b c : Word w) : a.checkedSub b = some c ↔ b ≤ a ∧ a.minus b = c := by
  by_cases h : b ≤ a <;> simp [checkedSub, h]

theorem checkedAdd_eq_none (a b : Word w) : a.checkedAdd b = none ↔ 2^w ≤ a.val + b.val := by
  rw [← not_lt]
  by_cases h : a.val + b.val < 2^w <;> simp [checkedAdd, h]

theorem checkedSub_eq_none (a b : Word w) : a.checkedSub b = none ↔ a < b := by
  rw [← not_le]
  by_cases h : b ≤ a <;> simp [checkedSub, h]

/-- The decimal digits of a word, with no leading zero. -/
def decimal (a : Word w) : String := toString a.val

/-- Reading the digits back recovers the number, so two words never print alike. -/
theorem decimal_injective : Function.Injective (decimal (w := w)) := by
  intro a b h
  have hd : Nat.toDigits 10 a.val = Nat.toDigits 10 b.val := by
    simpa only [decimal, Nat.toString_eq_repr, Nat.toList_repr] using congrArg String.toList h
  have hv := congrArg (fun digits => Nat.ofDigitChars 10 digits 0) hd
  simp only [Nat.ofDigitChars_ten_toDigits] at hv
  exact Word.ext hv

end Word
end ComdexRwa.Foundation
