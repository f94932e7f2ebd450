import UriRouting.Number.Decimal
import UriRouting.Proofs.Number.Shortest

/-! # How numbers are laid out

A number is written in digits, with at most one point in front of some of them. Large and small numbers
take an exponent instead, and with it a letter; which ones do is told by their place for decimals, and by
their value for binary numbers. -/

set_option autoImplicit false

namespace UriRouting.Number

/-- Digits, the last of them perhaps behind a point. -/
inductive Positional : List Char → Prop where
  | whole {digits : List Char} (hDigits : ∀ c ∈ digits, c.isDigit = true) (hSome : digits ≠ []) :
      Positional digits
  | fraction {front digits : List Char} (hFront : ∀ c ∈ front, c.isDigit = true)
      (hDigits : ∀ c ∈ digits, c.isDigit = true) (hSome : digits ≠ []) :
      Positional (front ++ '.' :: digits)

theorem isDigit_decimal (n : ℕ) : ∀ c ∈ Text.decimal n, c.isDigit = true :=
  fun _ hc => Nat.isDigit_of_mem_toDigits (by decide) (by decide) hc

theorem decimal_ne_nil (n : ℕ) : Text.decimal n ≠ [] := List.ne_nil_of_length_pos Nat.length_toDigits_pos

theorem isDigit_append {front back : List Char} (hFront : ∀ c ∈ front, c.isDigit = true)
    (hBack : ∀ c ∈ back, c.isDigit = true) : ∀ c ∈ front ++ back, c.isDigit = true :=
  List.forall_mem_append.mpr ⟨hFront, hBack⟩

theorem isDigit_zeros (n : ℕ) : ∀ c ∈ List.replicate n '0', c.isDigit = true :=
  List.forall_mem_replicate.mpr (Or.inr rfl)

section Point

variable {digits : List Char} (hDigits : ∀ c ∈ digits, c.isDigit = true)
include hDigits

theorem positional_behind (hSome : digits ≠ []) (zeros : ℕ) :
    Positional (['0', '.'] ++ List.replicate zeros '0' ++ digits) := by
  have hZero : ∀ c ∈ ['0'], c.isDigit = true := isDigit_zeros 1
  have hAll := isDigit_append (isDigit_zeros zeros) hDigits
  rw [List.append_assoc]
  exact .fraction hZero hAll (List.append_ne_nil_of_right_ne_nil (List.replicate zeros '0') hSome)

theorem positional_within {n : ℕ} (hn : n < digits.length) :
    Positional (digits.take n ++ '.' :: digits.drop n) := by
  refine .fraction (fun c hc => hDigits c (List.mem_of_mem_take hc))
    (fun c hc => hDigits c (List.mem_of_mem_drop hc)) ?_
  rw [Ne, List.drop_eq_nil_iff]
  omega

end Point

namespace Decimal

/-- Whether the digits are written without an exponent. -/
def Plain (coefficient : ℕ) (exponent : ℤ) : Prop :=
  exponent ≤ 0 ∧ -6 < (Text.decimal coefficient).length + exponent

variable {digits : List Char} {exponent : ℤ}

theorem positional_layout (hDigits : ∀ c ∈ digits, c.isDigit = true) (hSome : digits ≠ [])
    (h : exponent ≤ 0 ∧ -6 < digits.length + exponent) : Positional (layout digits exponent) := by
  rw [layout]
  dsimp only
  rw [if_pos h]
  split
  · exact positional_behind hDigits hSome _
  · split
    · exact .whole hDigits hSome
    · rename_i hShort
      exact positional_within hDigits (not_le.mp hShort)

theorem letter_mem_layout (hSome : digits ≠ []) (h : ¬ (exponent ≤ 0 ∧ -6 < digits.length + exponent)) :
    'E' ∈ layout digits exponent := by
  have hLength := List.length_pos_iff.mpr hSome
  have hPoint : ¬ (digits.length : ℤ) + exponent = 1 := by omega
  rw [layout]
  dsimp only
  rw [if_neg h, if_neg hPoint]
  simp

end Decimal

namespace Binary64

/-- Whether the number is written without an exponent. -/
def Plain (m : ℕ) (q : ℤ) : Prop := m = 0 ∨ (10 : ℚ) ^ (-4 : ℤ) ≤ value m q ∧ value m q < 10 ^ (16 : ℤ)

variable {digits : List Char} {point : ℤ}

theorem positional_layout (hDigits : ∀ c ∈ digits, c.isDigit = true) (hSome : digits ≠ [])
    (h : -4 < point ∧ point ≤ 16) : Positional (layout digits point) := by
  rw [layout, if_pos h]
  split
  · exact positional_behind hDigits hSome _
  · split
    · exact .fraction (isDigit_append hDigits (isDigit_zeros _)) (isDigit_zeros 1) (List.cons_ne_nil _ _)
    · rename_i hShort
      exact positional_within hDigits (not_le.mp hShort)

theorem letter_mem_layout (h : ¬ (-4 < point ∧ point ≤ 16)) : 'e' ∈ layout digits point := by
  rw [layout, if_neg h]
  simp

variable {m : ℕ} {q : ℤ}

theorem text_finite (negative : Bool) (hm : m ≠ 0) :
    text (finite negative m q) = (if negative then ['-'] else []) ++
      layout (Text.decimal (written m q).1)
        ((Text.decimal (written m q).1).length + (written m q).2) := by
  rw [text]
  exact if_neg hm

/-- The place of the leading digit decides the layout, and the value decides the place. -/
theorem plain_iff (h : Scaled m q) (hm : m ≠ 0) :
    Plain m q ↔ -4 < (Text.decimal (written m q).1).length + (written m q).2 ∧
      (Text.decimal (written m q).1).length + (written m q).2 ≤ 16 := by
  have hLow := place_le_iff h (Nat.pos_of_ne_zero hm) clears_neg_four
  have hHigh := place_le_iff h (Nat.pos_of_ne_zero hm) clears_sixteen
  rw [Plain, or_iff_right hm, ← not_lt, ← hLow, ← hHigh, not_le]

end Binary64

/-- A finite number is a sign and a body: digits and a point, or else something with a letter. -/
theorem Decimal.text_cases (negative : Bool) (coefficient : ℕ) (exponent : ℤ) :
    ∃ body, (finite negative coefficient exponent).text = (if negative then ['-'] else []) ++ body ∧
      (Plain coefficient exponent → Positional body) ∧ (¬ Plain coefficient exponent → 'E' ∈ body) :=
  ⟨_, rfl, positional_layout (isDigit_decimal _) (decimal_ne_nil _),
    letter_mem_layout (decimal_ne_nil _)⟩

theorem Binary64.text_cases (negative : Bool) {m : ℕ} {q : ℤ} (h : Scaled m q) :
    ∃ body, (finite negative m q).text = (if negative then ['-'] else []) ++ body ∧
      (Plain m q → Positional body) ∧ (¬ Plain m q → 'e' ∈ body) := by
  rcases eq_or_ne m 0 with rfl | hm
  · have hZero : ∀ c ∈ ['0'], c.isDigit = true := isDigit_zeros 1
    exact ⟨['0', '.', '0'], rfl, fun _ => .fraction hZero hZero (List.cons_ne_nil _ _),
      fun hNot => absurd (Or.inl rfl) hNot⟩
  · rw [plain_iff h hm]
    exact ⟨_, text_finite negative hm, positional_layout (isDigit_decimal _) (decimal_ne_nil _),
      letter_mem_layout⟩

end UriRouting.Number
