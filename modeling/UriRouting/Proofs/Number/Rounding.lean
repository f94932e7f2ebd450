import UriRouting.Proofs.Number.Shortest

/-! # Numbers that are read

A quotient is rounded to 53 bits at most, and to fewer only at the least exponent. So whatever text is
read as a finite number, its significand and its exponent are among those of binary numbers. -/

set_option autoImplicit false

namespace UriRouting.Number.Binary64

variable {negative sign : Bool} {num den m : ℕ} {q : ℤ}

theorem quotient_eq (num den : ℕ) (q : ℤ) :
    num * 2 ^ (-q).toNat / (den * 2 ^ q.toNat) = ⌊(num / den : ℚ) / 2 ^ q⌋₊ := by
  rw [← Nat.floor_div_eq_div (K := ℚ), zpow_eq_div (by norm_num)]
  push_cast
  congr 1
  field_simp

/-- The numbers of bits tell the quotient up to a factor of four. -/
theorem ratio_bounds (hNum : 0 < num) (hDen : 0 < den) :
    (2 : ℚ) ^ ((num.log2 : ℤ) - den.log2 - 1) ≤ num / den ∧
      (num / den : ℚ) < 2 ^ ((num.log2 : ℤ) - den.log2 + 1) := by
  have hBits {n : ℕ} (hn : 0 < n) : (2 : ℚ) ^ (n.log2 : ℤ) ≤ n ∧ (n : ℚ) < 2 ^ ((n.log2 : ℤ) + 1) := by
    constructor
    · exact_mod_cast Nat.log2_self_le hn.ne'
    · exact_mod_cast Nat.lt_log2_self
  obtain ⟨hNumLow, hNumHigh⟩ := hBits hNum
  obtain ⟨hDenLow, hDenHigh⟩ := hBits hDen
  have hPos : (0 : ℚ) < den := by exact_mod_cast hDen
  have hSplit (a b : ℤ) : (2 : ℚ) ^ a * 2 ^ b = 2 ^ (a + b) := (zpow_add₀ (by norm_num) a b).symm
  constructor
  · rw [le_div_iff₀ hPos]
    calc (2 : ℚ) ^ ((num.log2 : ℤ) - den.log2 - 1) * den
        ≤ 2 ^ ((num.log2 : ℤ) - den.log2 - 1) * 2 ^ ((den.log2 : ℤ) + 1) := by gcongr
      _ = 2 ^ (num.log2 : ℤ) := by
        rw [hSplit]
        congr 1
        omega
      _ ≤ num := hNumLow
  · rw [div_lt_iff₀ hPos]
    calc (num : ℚ) < 2 ^ ((num.log2 : ℤ) + 1) := hNumHigh
      _ = 2 ^ ((num.log2 : ℤ) - den.log2 + 1) * 2 ^ (den.log2 : ℤ) := by
        rw [hSplit]
        congr 1
        omega
      _ ≤ 2 ^ ((num.log2 : ℤ) - den.log2 + 1) * den := by gcongr

/-- The exponent that a quotient is rounded at leaves it 53 bits in front of the point, or is least. -/
theorem rounded_bounds (hNum : 0 < num) (hDen : 0 < den) {guess : ℤ}
    (hGuess : guess = max ((num.log2 : ℤ) - den.log2 - 53) (-1074))
    (hq : q = if 2 ^ 53 ≤ ⌊(num / den : ℚ) / 2 ^ guess⌋₊ then guess + 1 else guess) :
    -1074 ≤ q ∧ ⌊(num / den : ℚ) / 2 ^ q⌋₊ < 2 ^ 53 ∧
      (2 ^ 52 ≤ ⌊(num / den : ℚ) / 2 ^ q⌋₊ ∨ q = -1074) := by
  obtain ⟨hLow, hHigh⟩ := ratio_bounds hNum hDen
  have hRatio : (0 : ℚ) ≤ num / den := by positivity
  have hPow (k : ℕ) (e : ℤ) : ((2 ^ k : ℕ) : ℚ) * 2 ^ e = 2 ^ (k + e) := by
    rw [Nat.cast_pow, Nat.cast_ofNat, ← zpow_natCast, ← zpow_add₀ (by norm_num)]
  split at hq
  · rename_i hFine
    subst hq
    refine ⟨by omega, ?_, Or.inl ?_⟩
    · rw [Nat.floor_lt (by positivity), div_lt_iff₀ (by positivity), hPow]
      exact hHigh.trans_le (zpow_le_zpow_right₀ (by norm_num) (by omega))
    · have hTwice := (Nat.le_floor_iff (by positivity)).mp hFine
      rw [Nat.le_floor_iff (by positivity), zpow_add_one₀ (by norm_num), ← div_div,
        le_div_iff₀ (by norm_num)]
      push_cast at hTwice ⊢
      linarith
  · rename_i hCoarse
    subst hq
    refine ⟨by omega, not_le.mp hCoarse, ?_⟩
    rcases le_or_gt ((num.log2 : ℤ) - den.log2 - 53) (-1074) with hLeast | hLeast
    · exact Or.inr (by omega)
    · refine Or.inl ?_
      rw [Nat.le_floor_iff (by positivity), le_div_iff₀ (by positivity), hPow]
      exact (zpow_le_zpow_right₀ (by norm_num) (by omega)).trans hLow

theorem scaled_of_ofRatio (hNum : 0 < num) (hDen : 0 < den)
    (h : ofRatio negative num den = finite sign m q) : Scaled m q := by
  simp only [ofRatio, Nat.pow_eq, quotient_eq] at h
  generalize hGuess : max ((num.log2 : ℤ) - den.log2 - 53) (-1074) = guess at h
  generalize hExponent : (if 2 ^ 53 ≤ ⌊(num / den : ℚ) / 2 ^ guess⌋₊ then guess + 1 else guess) =
    exponent at h
  obtain ⟨hLeast, hFits, hFull⟩ := rounded_bounds hNum hDen hGuess.symm hExponent.symm
  have hRounded := roundToEven_eq_or (num * 2 ^ (-exponent).toNat) (den * 2 ^ exponent.toNat)
  rw [quotient_eq] at hRounded
  split at h
  · -- Rounding reached the next power of two.
    split at h
    · cases h
    · cases h
      exact ⟨by norm_num, by omega, by omega, Or.inl le_rfl⟩
  · rename_i hNext
    split at h
    · cases h
    · cases h
      exact ⟨by omega, hLeast, by omega, by omega⟩

theorem scaled_of_ofDecimal {digits : ℕ} {e : ℤ} (h : ofDecimal negative digits e = finite sign m q) :
    Scaled m q := by
  rw [ofDecimal] at h
  split at h
  · cases h
    exact ⟨by norm_num, le_rfl, by norm_num, Or.inr rfl⟩
  · rename_i hDigits
    split at h
    · cases h
    · exact scaled_of_ofRatio (Nat.mul_pos (by omega) (Nat.pow_pos (by decide)))
        (Nat.pow_pos (by decide)) h

theorem scaled_of_readUnsigned? {s : List Char} (h : readUnsigned? negative s = some (finite sign m q)) :
    Scaled m q := by
  rw [readUnsigned?.eq_def] at h
  extract_lets whole rest fraction behind at h
  split at h
  · cases h
  · obtain ⟨e, -, hRead⟩ := Option.map_eq_some_iff.mp h
    exact scaled_of_ofDecimal hRead

/-- Text is read as a number of 53 bits, or as none. -/
theorem scaled_of_ofText? {s : List Char} (h : ofText? s = some (finite sign m q)) : Scaled m q := by
  have hUnsigned (signed : Bool × List Char)
      (h : (if signed.2 == ['n', 'a', 'n'] then some nan
        else if signed.2 == ['i', 'n', 'f'] then some (infinite signed.1)
        else readUnsigned? signed.1 signed.2) = some (finite sign m q)) : Scaled m q := by
    split at h
    · cases h
    · split at h
      · cases h
      · exact scaled_of_readUnsigned? h
  rw [ofText?.eq_def] at h
  exact hUnsigned _ h

end UriRouting.Number.Binary64
