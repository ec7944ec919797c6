import Mathlib.Algebra.Order.Floor.Div
import Mathlib.Algebra.Order.Ring.Nat
import Mathlib.GroupTheory.GroupAction.Ring
import Mathlib.Tactic.Ring

/-! Rounding in two stages: a number of very small units is cut down to a coarser unit, and that is then
rounded up to whole ones. The cut loses less than one of the coarser units, which only shows next to a whole. -/
namespace ComdexRwa.Foundation

/-- `x` counts parts of which `b * b` make a whole; the cut is to parts of which `b` do. -/
def roundedUp (b x : Nat) : Nat := (x / b) ⌈/⌉ b

section Rounding
variable {b x y n w : Nat}

/-- Nearly a whole part may be left over. -/
private theorem roundedUp_le_iff (hb : 0 < b) : roundedUp b x ≤ n ↔ x < b * (b * n) + b := by
  rw [roundedUp, ceilDiv_le_iff_le_mul hb, ← Nat.lt_succ_iff, Nat.div_lt_iff_lt_mul hb, Nat.succ_mul,
    Nat.mul_comm (b * n) b]

theorem roundedUp_mono (b : Nat) (h : x ≤ y) : roundedUp b x ≤ roundedUp b y := by
  rcases Nat.eq_zero_or_pos b with rfl | hb
  · simp [roundedUp]
  · rw [roundedUp_le_iff hb]
    exact lt_of_le_of_lt h ((roundedUp_le_iff hb).mp (le_refl _))

/-- No more whole ones than there are in something that holds `x`. -/
theorem roundedUp_le (hb : 0 < b) (h : x ≤ b * b * w) : roundedUp b x ≤ w := by
  rw [roundedUp_le_iff hb, ← Nat.mul_assoc]
  omega

/-- The parts of a whole number are rounded to no less than the whole, whatever the two cuts lose. -/
theorem le_roundedUp_add (hb : 0 < b) (h : x + y = b * b * w) : w ≤ roundedUp b x + roundedUp b y := by
  have hx := (roundedUp_le_iff hb).mp (le_refl (roundedUp b x))
  have hy := (roundedUp_le_iff hb).mp (le_refl (roundedUp b y))
  by_contra hlt
  have hle : roundedUp b x + roundedUp b y + 1 ≤ w := not_le.mp hlt
  have hwhole : b * b * (roundedUp b x + roundedUp b y + 1) ≤ b * b * w := Nat.mul_le_mul_left _ hle
  have hexpand : b * b * (roundedUp b x + roundedUp b y + 1) =
      b * (b * roundedUp b x) + b * (b * roundedUp b y) + b * b := by ring
  -- Two coarser units are less than a whole, unless the whole is one of them.
  rcases Nat.lt_or_ge b 2 with hone | htwo
  · obtain rfl : b = 1 := by omega
    omega
  · have hsquare : 2 * b ≤ b * b := Nat.mul_le_mul_right b htwo
    omega

/-- No fewer whole ones than `x` has. -/
private theorem div_le_roundedUp (hb : 0 < b) : x / (b * b) ≤ roundedUp b x := by
  have hup := (roundedUp_le_iff hb).mp (le_refl (roundedUp b x))
  have hsquare : b ≤ b * b := Nat.le_mul_of_pos_right b hb
  rw [← Nat.mul_assoc] at hup
  rw [← Nat.lt_succ_iff, Nat.div_lt_iff_lt_mul (Nat.mul_pos hb hb), Nat.succ_mul, Nat.mul_comm (roundedUp b x)]
  omega

/-- Where the cut loses nothing that matters, the two stages give the least whole number above. -/
private theorem ceilDiv_le_roundedUp (hb : 0 < b) (h : ¬ (0 < x % (b * b) ∧ x % (b * b) < b)) :
    x ⌈/⌉ (b * b) ≤ roundedUp b x := by
  rw [ceilDiv_le_iff_le_mul (Nat.mul_pos hb hb)]
  have hdiv : b * b * (x / (b * b)) + x % (b * b) = x := Nat.div_add_mod x (b * b)
  by_cases hzero : x % (b * b) = 0
  · have hmul : b * b * (x / (b * b)) ≤ b * b * roundedUp b x := Nat.mul_le_mul_left _ (div_le_roundedUp hb)
    omega
  · -- More than a coarser unit past a whole one, so the whole one is not reached.
    have hup := (roundedUp_le_iff hb).mp (le_refl (roundedUp b x))
    rw [← Nat.mul_assoc] at hup
    have hlt : b * b * (x / (b * b)) < b * b * roundedUp b x := by omega
    have hmul : b * b * (x / (b * b) + 1) ≤ b * b * roundedUp b x :=
      Nat.mul_le_mul_left _ (Nat.lt_of_mul_lt_mul_left hlt)
    have hmod := Nat.mod_lt x (Nat.mul_pos hb hb)
    rw [Nat.mul_succ] at hmul
    omega

/-- The two stages together: the least whole number above, except within a coarser unit past a whole one. -/
theorem roundedUp_eq (hb : 0 < b) : roundedUp b x =
    if 0 < x % (b * b) ∧ x % (b * b) < b then x / (b * b) else x ⌈/⌉ (b * b) := by
  have hbb : 0 < b * b := Nat.mul_pos hb hb
  split
  next hx =>
    apply le_antisymm _ (div_le_roundedUp hb)
    have hdiv : b * b * (x / (b * b)) + x % (b * b) = x := Nat.div_add_mod x (b * b)
    rw [roundedUp_le_iff hb, ← Nat.mul_assoc]
    omega
  next hx =>
    apply le_antisymm _ (ceilDiv_le_roundedUp hb hx)
    exact roundedUp_le hb (le_smul_ceilDiv hbb)

end Rounding
end ComdexRwa.Foundation
