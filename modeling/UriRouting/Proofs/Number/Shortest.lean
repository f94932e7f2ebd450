import Mathlib.Algebra.Order.Field.Power
import Mathlib.Algebra.Order.Floor.Semifield
import Mathlib.Data.Rat.Floor
import Mathlib.Tactic.FieldSimp
import Mathlib.Tactic.Positivity
import UriRouting.Number.Binary64

/-! # Where the shortest digits stand

The digits a number is written with may denote more or less than the number itself, but no more than
half a unit in its last place. The powers of ten at which the layout changes are no nearer than this to
a number below them, so that the layout depends on the number alone. -/

set_option autoImplicit false

namespace UriRouting.Number

theorem zpow_eq_div {b : ℚ} (hb : b ≠ 0) (e : ℤ) : b ^ e = b ^ e.toNat / b ^ (-e).toNat := by
  rw [eq_div_iff (pow_ne_zero _ hb), ← zpow_natCast, ← zpow_natCast, ← zpow_add₀ hb]
  congr 1
  omega

/-- The place of the leading digit, by the powers of ten that it is below. -/
theorem length_decimal_add_le_iff {digits : ℕ} (hPos : 0 < digits) (e p : ℤ) :
    (Text.decimal digits).length + e ≤ p ↔ (digits : ℚ) * 10 ^ e < 10 ^ p := by
  have hDigits : (1 : ℚ) ≤ digits := by exact_mod_cast hPos
  have hTen : (0 : ℚ) < 10 ^ e := by positivity
  rcases le_or_gt p e with hp | hp
  · have hLength : 0 < (Text.decimal digits).length := Nat.length_toDigits_pos
    have hPow : (10 : ℚ) ^ p ≤ 10 ^ e := zpow_le_zpow_right₀ (by norm_num) hp
    have hLe : (10 : ℚ) ^ p ≤ digits * 10 ^ e := hPow.trans (le_mul_of_one_le_left hTen.le hDigits)
    constructor
    · intro h
      omega
    · intro h
      exact absurd h (not_lt.mpr hLe)
  · obtain ⟨k, rfl⟩ : ∃ k : ℕ, p = k + e := ⟨(p - e).toNat, by omega⟩
    have hk : 0 < k := by omega
    have hCast : digits < 10 ^ k ↔ (digits : ℚ) < 10 ^ k := by exact_mod_cast Iff.rfl
    rw [zpow_add₀ (by norm_num), zpow_natCast, mul_lt_mul_iff_left₀ hTen, ← hCast,
      ← Nat.length_toDigits_le_iff (by decide) hk, Text.decimal]
    omega

theorem roundToEven_eq_or (num den : ℕ) :
    roundToEven num den = num / den ∨ roundToEven num den = num / den + 1 := by
  rw [roundToEven]
  split
  · exact Or.inl rfl
  · exact Or.inr rfl
  · rcases Nat.mod_two_eq_zero_or_one (num / den) with h | h
    · exact Or.inl (by rw [h, Nat.add_zero])
    · exact Or.inr (by rw [h])

namespace Binary64

/-- The significands and exponents of finite numbers. -/
structure Scaled (m : ℕ) (q : ℤ) : Prop where
  fits : m < 2 ^ 53
  least : -1074 ≤ q
  most : q ≤ 971
  full : 2 ^ 52 ≤ m ∨ q = -1074

def value (m : ℕ) (q : ℤ) : ℚ := m * 2 ^ q

variable {m : ℕ} {q : ℤ}

theorem magnitude_eq (m : ℕ) (q : ℤ) :
    magnitude m q = (Text.decimal ⌊value m q * 10 ^ 350⌋₊).length - 350 := by
  have hFloor : m * 10 ^ 350 * 2 ^ q.toNat / 2 ^ (-q).toNat = ⌊value m q * 10 ^ 350⌋₊ := by
    rw [← Nat.floor_div_eq_div (K := ℚ), value, zpow_eq_div (by norm_num)]
    simp only [Nat.cast_mul, Nat.cast_pow, Nat.cast_ofNat]
    generalize (10 : ℚ) ^ 350 = scale
    congr 1
    ring
  rw [magnitude]
  simp only [Nat.pow_eq, hFloor]

/-- At the scale that magnitudes are counted at, the least number is above one. -/
theorem one_le_value_mul (hm : 0 < m) (hq : -1074 ≤ q) : (1 : ℚ) ≤ value m q * 10 ^ 350 := by
  have hCast : (1 : ℚ) ≤ m := by exact_mod_cast hm
  have hPow : (2 : ℚ) ^ (-1079 : ℤ) ≤ 2 ^ q := zpow_le_zpow_right₀ (by norm_num) (by omega)
  calc (1 : ℚ) ≤ (2 ^ (-13 : ℤ) * 10 ^ 4) ^ 83 := one_le_pow₀ (by norm_num)
    _ = 2 ^ (-1079 : ℤ) * 10 ^ 332 := by
      rw [mul_pow, ← zpow_natCast, ← zpow_mul, ← pow_mul]
      rfl
    _ ≤ 2 ^ q * 10 ^ 350 := mul_le_mul hPow (pow_le_pow_right₀ (by norm_num) (by omega))
      (by positivity) (by positivity)
    _ ≤ value m q * 10 ^ 350 := by
      rw [value]
      exact mul_le_mul_of_nonneg_right (le_mul_of_one_le_left (by positivity) hCast) (by positivity)

/-- A positive number is at least a tenth of the power of ten above it. -/
theorem magnitude_bounds (hm : 0 < m) (hq : -1074 ≤ q) :
    (10 : ℚ) ^ (magnitude m q - 1) ≤ value m q ∧ value m q < 10 ^ magnitude m q := by
  have hLeast := one_le_value_mul hm hq
  have hPos : 0 < ⌊value m q * 10 ^ 350⌋₊ := Nat.floor_pos.mpr hLeast
  have hPlace := length_decimal_add_le_iff hPos (-350)
  have hScale (x : ℚ) : x * 10 ^ (350 : ℕ) * 10 ^ (-350 : ℤ) = x := by
    rw [zpow_neg, zpow_ofNat]
    exact mul_inv_cancel_right₀ (by positivity) x
  have hTen : (0 : ℚ) < 10 ^ (-350 : ℤ) := by positivity
  rw [magnitude_eq]
  generalize hLength : ((Text.decimal ⌊value m q * 10 ^ 350⌋₊).length : ℤ) = length at hPlace ⊢
  constructor
  · have hNot := mt (hPlace (length - 350 - 1)).mpr (by omega)
    calc (10 : ℚ) ^ (length - 350 - 1) ≤ ⌊value m q * 10 ^ 350⌋₊ * 10 ^ (-350 : ℤ) := not_lt.mp hNot
      _ ≤ value m q * 10 ^ 350 * 10 ^ (-350 : ℤ) := by
        gcongr
        exact Nat.floor_le (zero_le_one.trans hLeast)
      _ = value m q := hScale _
  · -- The power of ten is whole at this scale, so that the fraction cut off does not reach it.
    have hWhole : ⌊value m q * 10 ^ 350⌋₊ < 10 ^ length.toNat := by
      have hLengthPos : 0 < (Text.decimal ⌊value m q * 10 ^ 350⌋₊).length := Nat.length_toDigits_pos
      refine (Nat.length_toDigits_le_iff (by decide) (by omega)).mp ?_
      rw [← hLength, Int.toNat_natCast, Text.decimal]
    have hLess : value m q * 10 ^ 350 < 10 ^ length.toNat := by
      exact_mod_cast (Nat.floor_lt (zero_le_one.trans hLeast)).mp hWhole
    calc value m q = value m q * 10 ^ 350 * 10 ^ (-350 : ℤ) := (hScale _).symm
      _ < 10 ^ length.toNat * 10 ^ (-350 : ℤ) := mul_lt_mul_of_pos_right hLess hTen
      _ = 10 ^ (length - 350) := by
        rw [← zpow_natCast, ← zpow_add₀ (by norm_num)]
        congr 1
        omega

/-- What reads back is at most half a unit above the number. -/
theorem le_of_readsBack {digits : ℕ} {e : ℤ} (h : readsBack m q digits e = true) :
    (digits : ℚ) * 10 ^ e ≤ (m + 1 / 2) * 2 ^ q := by
  have hHigh : digits * 10 ^ e.toNat * 2 ^ (2 - q).toNat ≤
      (4 * m + 2) * (10 ^ (-e).toNat * 2 ^ (q - 2).toNat) := by
    simp only [readsBack, Nat.pow_eq] at h
    split at h
    · simp only [Bool.and_eq_true, decide_eq_true_eq] at h
      exact h.2
    · simp only [Bool.and_eq_true, decide_eq_true_eq] at h
      exact h.2.le
  have hCast : (digits : ℚ) * 10 ^ e.toNat * 2 ^ (2 - q).toNat ≤
      (4 * m + 2) * (10 ^ (-e).toNat * 2 ^ (q - 2).toNat) := by exact_mod_cast hHigh
  have hNeg : (-(q - 2)).toNat = (2 - q).toNat := by
    congr 1
    omega
  calc (digits : ℚ) * 10 ^ e = digits * 10 ^ e.toNat * 2 ^ (2 - q).toNat /
        (10 ^ (-e).toNat * 2 ^ (2 - q).toNat) := by
        rw [zpow_eq_div (by norm_num)]
        field_simp
    _ ≤ (4 * m + 2) * (10 ^ (-e).toNat * 2 ^ (q - 2).toNat) /
        (10 ^ (-e).toNat * 2 ^ (2 - q).toNat) := by gcongr
    _ = (4 * m + 2) * (2 ^ (q - 2).toNat / 2 ^ (2 - q).toNat) := by field_simp
    _ = (4 * m + 2) * 2 ^ (q - 2) := by rw [zpow_eq_div (by norm_num) (q - 2), hNeg]
    _ = (m + 1 / 2) * 2 ^ q := by
        rw [zpow_sub₀ (by norm_num)]
        ring

theorem candidate?_bounds {digits : ℕ} {e : ℤ} (h : candidate? m q e = some digits) :
    ⌊value m q / 10 ^ e⌋₊ ≤ digits ∧ (digits : ℚ) * 10 ^ e ≤ (m + 1 / 2) * 2 ^ q := by
  have hFloor : m * 2 ^ q.toNat * 10 ^ (-e).toNat / (2 ^ (-q).toNat * 10 ^ e.toNat) =
      ⌊value m q / 10 ^ e⌋₊ := by
    rw [← Nat.floor_div_eq_div (K := ℚ), value, zpow_eq_div (by norm_num), zpow_eq_div (b := 10) (by norm_num)]
    push_cast
    congr 1
    field_simp
  simp only [candidate?, Nat.pow_eq, hFloor] at h
  have hNearest := roundToEven_eq_or (m * 2 ^ q.toNat * 10 ^ (-e).toNat) (2 ^ (-q).toNat * 10 ^ e.toNat)
  rw [hFloor] at hNearest
  split at h
  · rename_i hBelow hAbove
    cases h
    rcases hNearest with hEq | hEq <;> rw [hEq]
    · exact ⟨le_rfl, le_of_readsBack hBelow⟩
    · exact ⟨Nat.le_succ _, le_of_readsBack hAbove⟩
  · rename_i hBelow hAbove
    cases h
    exact ⟨le_rfl, le_of_readsBack hBelow⟩
  · rename_i hBelow hAbove
    cases h
    exact ⟨Nat.le_succ _, le_of_readsBack hAbove⟩
  · cases h

/-- The shortest digits reach every power of ten that the number reaches, and are at most half a unit
above the number. -/
theorem shortest_bounds (hm : 0 < m) (hq : -1074 ≤ q) :
    (10 : ℚ) ^ (magnitude m q - 1) ≤ (shortest m q).1 * 10 ^ (shortest m q).2 ∧
      ((shortest m q).1 : ℚ) * 10 ^ (shortest m q).2 ≤ (m + 1 / 2) * 2 ^ q := by
  obtain ⟨hLow, -⟩ := magnitude_bounds hm hq
  rw [shortest]
  dsimp only
  generalize hFound : List.findSome? _ _ = found
  cases found with
  | none =>
    -- All digits of the number, which denote it exactly.
    have hExact : ((m * 2 ^ q.toNat * 5 ^ (-q).toNat : ℕ) : ℚ) * 10 ^ min q 0 = value m q := by
      have hTen : (10 : ℚ) ^ min q 0 = ((2 : ℚ) ^ (-q).toNat * 5 ^ (-q).toNat)⁻¹ := by
        have hMin : min q 0 = -((-q).toNat : ℤ) := by omega
        rw [hMin, zpow_neg, zpow_natCast, ← mul_pow]
        norm_num
      rw [hTen, value, zpow_eq_div (by norm_num)]
      push_cast
      field_simp
    simp only [Option.getD_none, Nat.pow_eq, hExact]
    refine ⟨hLow, ?_⟩
    have hTwo : (0 : ℚ) < 2 ^ q := by positivity
    rw [value]
    linarith
  | some found =>
    obtain ⟨n, -, hFound⟩ := List.exists_of_findSome?_eq_some hFound
    obtain ⟨digits, hDigits, rfl⟩ := Option.map_eq_some_iff.mp hFound
    obtain ⟨hBelow, hAbove⟩ := candidate?_bounds hDigits
    refine ⟨?_, hAbove⟩
    have hTen : (0 : ℚ) < 10 ^ (magnitude m q - (n + 1)) := by positivity
    have hPow : (10 : ℚ) ^ (magnitude m q - 1) = 10 ^ n * 10 ^ (magnitude m q - (n + 1)) := by
      rw [← zpow_natCast, ← zpow_add₀ (by norm_num)]
      congr 1
      omega
    have hDigits : 10 ^ n ≤ digits := by
      refine le_trans (Nat.le_floor ?_) hBelow
      rw [le_div_iff₀ hTen]
      push_cast
      exact hPow ▸ hLow
    rw [hPow]
    dsimp only [Option.getD_some]
    gcongr
    exact_mod_cast hDigits

theorem dropZeros_spec (fuel digits : ℕ) (e : ℤ) :
    ((dropZeros fuel digits e).1 : ℚ) * 10 ^ (dropZeros fuel digits e).2 = digits * 10 ^ e := by
  induction fuel generalizing digits e with
  | zero => rfl
  | succ fuel ih =>
    rw [dropZeros]
    split
    · rename_i hZero
      have hTen : ((digits / 10 : ℕ) : ℚ) * 10 = digits := by
        exact_mod_cast Nat.div_mul_cancel (Nat.dvd_of_mod_eq_zero hZero)
      rw [ih, zpow_add_one₀ (by norm_num), ← hTen]
      ring
    · rfl

/-- Numbers below this power of ten stay below it with half a unit in their last place. -/
def Clears (p : ℤ) : Prop := ∀ m q, Scaled m q → value m q < 10 ^ p → ((m : ℚ) + 1 / 2) * 2 ^ q < 10 ^ p

/-- Numbers below this power of ten have a unit of two at most, and such units divide it. -/
theorem clears_sixteen : Clears 16 := by
  intro m q hScaled hValue
  rw [value, zpow_ofNat] at hValue
  rw [zpow_ofNat]
  have hCast : (m : ℚ) + 1 ≤ 2 ^ 53 := by exact_mod_cast hScaled.fits
  have hUnit : (0 : ℚ) < 2 ^ q := by positivity
  rcases lt_or_ge q 0 with hq | hq
  · have hOne : (2 : ℚ) ^ q ≤ 1 := zpow_le_one_of_nonpos₀ (by norm_num) hq.le
    calc ((m : ℚ) + 1 / 2) * 2 ^ q ≤ 2 ^ 53 * 1 := mul_le_mul (by linarith) hOne hUnit.le (by norm_num)
      _ < 10 ^ 16 := by norm_num
  · obtain ⟨k, rfl⟩ := Int.eq_ofNat_of_zero_le hq
    rw [zpow_natCast] at hValue hUnit ⊢
    have hValue' : m * 2 ^ k < 10 ^ 16 := by exact_mod_cast hValue
    have hFull : 2 ^ 52 ≤ m := hScaled.full.resolve_right (by omega)
    have hk : k ≤ 1 := by
      by_contra hk
      have hPow : 2 ^ 2 ≤ 2 ^ k := Nat.pow_le_pow_right (by decide) (by omega)
      have hMul := Nat.mul_le_mul hFull hPow
      omega
    have hNext : (m + 1) * 2 ^ k ≤ 10 ^ 16 := by
      obtain rfl | rfl : k = 0 ∨ k = 1 := by omega
      · omega
      · omega
    have hNext' : ((m : ℚ) + 1) * 2 ^ k ≤ 10 ^ 16 := by exact_mod_cast hNext
    linarith

/-- Only one unit is near enough to this power of ten, and its multiples leave a fraction. -/
theorem clears_neg_four : Clears (-4) := by
  intro m q hScaled hValue
  rw [value] at hValue
  have hCast : (m : ℚ) + 1 ≤ 2 ^ 53 := by exact_mod_cast hScaled.fits
  rcases lt_trichotomy q (-66) with hq | rfl | hq
  · have hUnit : (2 : ℚ) ^ q ≤ 2 ^ (-67 : ℤ) := zpow_le_zpow_right₀ (by norm_num) (by omega)
    calc ((m : ℚ) + 1 / 2) * 2 ^ q ≤ 2 ^ 53 * 2 ^ (-67 : ℤ) :=
          mul_le_mul (by linarith) hUnit (by positivity) (by norm_num)
      _ < 10 ^ (-4 : ℤ) := by norm_num
  · have hLess : m * 10 ^ 4 < 2 ^ 66 := by
      have hScale : (m : ℚ) * 10 ^ 4 < 2 ^ 66 := by
        norm_num at hValue ⊢
        linarith
      exact_mod_cast hScale
    have hMost : m ≤ 2 ^ 66 / 10 ^ 4 := (Nat.le_div_iff_mul_le (by decide)).mpr hLess.le
    have hHalf : (2 * m + 1) * 10 ^ 4 < 2 ^ 67 := by
      norm_num at hMost
      linarith
    have hHalf' : (2 * (m : ℚ) + 1) * 10 ^ 4 < 2 ^ 67 := by exact_mod_cast hHalf
    norm_num at hHalf' ⊢
    linarith
  · have hFull : (2 : ℚ) ^ 52 ≤ m := by exact_mod_cast hScaled.full.resolve_right (by omega)
    have hUnit : (2 : ℚ) ^ (-65 : ℤ) ≤ 2 ^ q := zpow_le_zpow_right₀ (by norm_num) (by omega)
    have hMul : (2 : ℚ) ^ 52 * 2 ^ (-65 : ℤ) ≤ m * 2 ^ q :=
      mul_le_mul hFull hUnit (by positivity) (by positivity)
    norm_num at hMul hValue
    linarith

/-- The digits that are written, with the exponent of the last one. -/
def written (m : ℕ) (q : ℤ) : ℕ × ℤ := dropZeros 400 (shortest m q).1 (shortest m q).2

theorem place_le_iff (hScaled : Scaled m q) (hm : 0 < m) {p : ℤ} (hClears : Clears p) :
    (Text.decimal (written m q).1).length + (written m q).2 ≤ p ↔ value m q < 10 ^ p := by
  obtain ⟨hLow, hHigh⟩ := shortest_bounds hm hScaled.least
  obtain ⟨-, hAbove⟩ := magnitude_bounds hm hScaled.least
  rw [← dropZeros_spec 400] at hLow hHigh
  change (10 : ℚ) ^ (magnitude m q - 1) ≤ (written m q).1 * 10 ^ (written m q).2 at hLow
  change ((written m q).1 : ℚ) * 10 ^ (written m q).2 ≤ _ at hHigh
  have hPos : 0 < (written m q).1 := by
    rcases Nat.eq_zero_or_pos (written m q).1 with hZero | hPos
    · rw [hZero, Nat.cast_zero, zero_mul] at hLow
      exact absurd hLow (not_le.mpr (by positivity))
    · exact hPos
  rw [length_decimal_add_le_iff hPos]
  constructor
  · intro hWritten
    have hPow := (zpow_lt_zpow_iff_right₀ (by norm_num : (1 : ℚ) < 10)).mp (hLow.trans_lt hWritten)
    exact hAbove.trans_le (zpow_le_zpow_right₀ (by norm_num) (by omega))
  · intro hValue
    exact hHigh.trans_lt (hClears m q hScaled hValue)

end Binary64

end UriRouting.Number
