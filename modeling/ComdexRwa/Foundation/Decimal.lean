import ComdexRwa.Foundation.Word

/-! Decimal numerals compared as text, character by character from the left. Against a numeral of one
digit, text and number disagree only about numerals of more digits that begin with a smaller one. -/
namespace ComdexRwa.Foundation.Decimal

/-- How a number is written: its first digit, and what follows. -/
structure Numeral (n d : Nat) (rest : List Char) : Prop where
  digits : Nat.toDigits 10 n = Nat.digitChar d :: rest
  first : n / 10 ^ rest.length = d
  lt_ten : d < 10
  pos : rest ≠ [] → 0 < d
  zero_le : ∀ c ∈ rest, '0' ≤ c

/-- A number that comes before the digit `e` as text, though it has more digits: some of them, from the
left, make a positive number below `e`. -/
def Misplaced (e n : Nat) : Prop := ∃ k, 0 < k ∧ 0 < n / 10 ^ k ∧ n / 10 ^ k < e

private theorem digitChar_lt_iff {d e : Nat} (hd : d < 10) (he : e < 10) :
    Nat.digitChar d < Nat.digitChar e ↔ d < e := by
  have hall : ∀ d < 10, ∀ e < 10, Nat.digitChar d < Nat.digitChar e ↔ d < e := by decide
  exact hall d hd e he

private theorem digitChar_inj {d e : Nat} (hd : d < 10) (he : e < 10) :
    Nat.digitChar d = Nat.digitChar e ↔ d = e := by
  have hall : ∀ d < 10, ∀ e < 10, Nat.digitChar d = Nat.digitChar e ↔ d = e := by decide
  exact hall d hd e he

private theorem zero_le_digitChar {d : Nat} (hd : d < 10) : '0' ≤ Nat.digitChar d := by
  have hall : ∀ d < 10, '0' ≤ Nat.digitChar d := by decide
  exact hall d hd

/-- Every number has a numeral: its last digit goes to the end of the numeral of the others. -/
private theorem exists_numeral (n : Nat) : ∃ d rest, Numeral n d rest := by
  induction n using Nat.strongRecOn with
  | ind n ih =>
    by_cases hn : n < 10
    · exact ⟨n, [], Nat.toDigits_of_lt_base hn, Nat.div_one n, hn, fun h => (h rfl).elim, fun _ hc => (nomatch hc)⟩
    · have hle : 10 ≤ n := Nat.le_of_not_lt hn
      have hlast : n % 10 < 10 := Nat.mod_lt n (by omega)
      obtain ⟨d, rest, hw⟩ := ih (n / 10) (Nat.div_lt_self (by omega) (by omega))
      refine ⟨d, rest ++ [Nat.digitChar (n % 10)], ?_, ?_, hw.lt_ten, fun _ => ?_, ?_⟩
      · rw [Nat.toDigits_of_base_le (by omega) hle, hw.digits, List.cons_append]
      · rw [List.length_append, List.length_singleton, Nat.pow_succ', ← Nat.div_div_eq_div_mul]
        exact hw.first
      · by_cases hrest : rest = []
        · have hfirst := hw.first
          rw [hrest, List.length_nil, Nat.pow_zero, Nat.div_one] at hfirst
          omega
        · exact hw.pos hrest
      · intro c hc
        rcases List.mem_append.mp hc with hc | hc
        · exact hw.zero_le c hc
        · rw [List.mem_singleton.mp hc]
          exact zero_le_digitChar hlast

section Numerals
variable {n d e : Nat} {rest : List Char}

private theorem Numeral.eq_of_nil (h : Numeral n d []) : n = d := by
  have hfirst := h.first
  rwa [List.length_nil, Nat.pow_zero, Nat.div_one] at hfirst

private theorem Numeral.ten_le (h : Numeral n d rest) (hrest : rest ≠ []) : 10 ≤ n := by
  have hpos := h.pos hrest
  obtain ⟨c, tail, rfl⟩ := List.exists_cons_of_ne_nil hrest
  have hle := Nat.div_mul_le_self n (10 ^ (c :: tail).length)
  rw [h.first, List.length_cons, Nat.pow_succ'] at hle
  calc 10 = 1 * (10 * 1) := rfl
    _ ≤ d * (10 * 10 ^ tail.length) :=
      Nat.mul_le_mul hpos (Nat.mul_le_mul_left 10 (Nat.one_le_pow _ 10 (by omega)))
    _ ≤ n := hle

/-- A numeral of one digit is not misplaced against another. -/
private theorem Numeral.not_misplaced_of_nil (h : Numeral n d []) : ¬ Misplaced e n := by
  intro hx
  obtain ⟨k, hk, hpos, _⟩ := hx
  have hn : n < 10 := h.eq_of_nil ▸ h.lt_ten
  have hten : 10 ≤ 10 ^ k := Nat.le_self_pow (Nat.ne_of_gt hk) 10
  rw [Nat.div_eq_of_lt (Nat.lt_of_lt_of_le hn hten)] at hpos
  exact Nat.lt_irrefl 0 hpos

/-- A longer one is misplaced by its first digit, or not at all. -/
private theorem Numeral.misplaced_iff (h : Numeral n d rest) (hrest : rest ≠ []) : Misplaced e n ↔ d < e := by
  constructor
  · intro hx
    obtain ⟨k, _, hpos, hlt⟩ := hx
    have hk : k ≤ rest.length := by
      by_contra hno
      have hlen : rest.length + 1 ≤ k := by omega
      have hle : n / 10 ^ k ≤ n / 10 ^ (rest.length + 1) :=
        Nat.div_le_div_left (Nat.pow_le_pow_right (by omega) hlen) (Nat.pow_pos (by omega))
      rw [Nat.pow_succ, ← Nat.div_div_eq_div_mul, h.first, Nat.div_eq_of_lt h.lt_ten] at hle
      omega
    have hle : n / 10 ^ rest.length ≤ n / 10 ^ k :=
      Nat.div_le_div_left (Nat.pow_le_pow_right (by omega) hk) (Nat.pow_pos (by omega))
    rw [h.first] at hle
    exact Nat.lt_of_le_of_lt hle hlt
  · intro hlt
    refine ⟨rest.length, List.length_pos_iff.mpr hrest, ?_, ?_⟩
    · rw [h.first]
      exact h.pos hrest
    · rwa [h.first]

/-- What begins below the digits comes before any of them. -/
private theorem lt_append_of_zero_le {t t' : List Char} (ht' : ∀ c ∈ t'.head?, c < '0') (hrest' : ∀ c ∈ rest, '0' ≤ c)
    (hrest : rest ≠ []) : t' < rest ++ t := by
  obtain ⟨c, tail, rfl⟩ := List.exists_cons_of_ne_nil hrest
  cases t' with
  | nil => exact List.nil_lt_cons c (tail ++ t)
  | cons c' tail' =>
    have hc' : c' < '0' := ht' c' rfl
    have hc : '0' ≤ c := hrest' c List.mem_cons_self
    exact List.cons_lt_cons_iff.mpr (.inl (UInt32.lt_of_lt_of_le hc' hc))

/-- A digit, followed by what begins below the digits, against any numeral. -/
theorem digit_lt_iff (he : e < 10) {t t' : List Char} (ht' : ∀ c ∈ t'.head?, c < '0') :
    Nat.digitChar e :: t' < Nat.toDigits 10 n ++ t ↔ (e < n ∨ (e = n ∧ t' < t)) ∧ ¬ Misplaced e n := by
  obtain ⟨d, rest, hw⟩ := exists_numeral n
  rw [hw.digits, List.cons_append, List.cons_lt_cons_iff, digitChar_lt_iff he hw.lt_ten, digitChar_inj he hw.lt_ten]
  by_cases hrest : rest = []
  · subst hrest
    rw [List.nil_append, and_iff_left hw.not_misplaced_of_nil, hw.eq_of_nil]
  · have htail : t' < rest ++ t := lt_append_of_zero_le ht' hw.zero_le hrest
    have hnumber : e < n := Nat.lt_of_lt_of_le he (hw.ten_le hrest)
    rw [hw.misplaced_iff hrest, and_iff_left htail, and_iff_right (.inl hnumber)]
    omega

end Numerals
end ComdexRwa.Foundation.Decimal
