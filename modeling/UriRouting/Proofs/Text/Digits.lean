import UriRouting.Text.Digits

/-! # Digits read back

A number that is written with zeros in front of it, up to a width that it does not exceed, has one digit
for each place. Read in the same base these digits are the number. -/

set_option autoImplicit false

namespace UriRouting.Text

/-- The digits of a number in all places of a width, the first place last. -/
def digits (base : Nat) : Nat → Nat → List Nat
  | 0, _ => []
  | width + 1, n => digits base width (n / base) ++ [n % base]

section Digits

variable {base : Nat}

@[simp] theorem length_digits (base width n : Nat) : (digits base width n).length = width := by
  induction width generalizing n with
  | zero => rfl
  | succ width ih => rw [digits, List.length_append, ih, List.length_singleton]

theorem lt_of_mem_digits (hBase : 0 < base) {width n : Nat} : ∀ d ∈ digits base width n, d < base := by
  induction width generalizing n with
  | zero => exact List.forall_mem_nil _
  | succ width ih =>
    exact List.forall_mem_append.mpr ⟨ih, List.forall_mem_singleton.mpr (Nat.mod_lt n hBase)⟩

theorem div_lt_pow {width n : Nat} (h : n < Nat.pow base (width + 1)) : n / base < Nat.pow base width := by
  have hLess : n < Nat.pow base width * base := h
  exact Nat.div_lt_of_lt_mul (by rwa [Nat.mul_comm])

/-- The value of digits behind a value that is read already. -/
def valueFrom (base value : Nat) (ds : List Nat) : Nat := ds.foldl (fun value d => value * base + d) value

theorem valueFrom_digits {width n : Nat} (h : n < Nat.pow base width) : valueFrom base 0 (digits base width n) = n := by
  induction width generalizing n with
  | zero =>
    exact (Nat.lt_one_iff.mp h).symm
  | succ width ih =>
    rw [digits, valueFrom, List.foldl_append]
    change valueFrom base 0 (digits base width (n / base)) * base + n % base = n
    rw [ih (div_lt_pow h), Nat.mul_comm, Nat.div_add_mod]

theorem digits_zero (base width : Nat) : digits base width 0 = List.replicate width 0 := by
  induction width with
  | zero => rfl
  | succ width ih => rw [digits, Nat.zero_div, Nat.zero_mod, ih, ← List.replicate_succ']

theorem padded_eq_digits (hBase : 1 < base) {width n : Nat} (h : n < Nat.pow base (width + 1)) :
    padded base (width + 1) n = (digits base (width + 1) n).map Nat.digitChar := by
  induction width generalizing n with
  | zero =>
    replace h : n < base := (Nat.pow_one base).subst h
    simp [padded, digits, Nat.toDigits_of_lt_base h, Nat.mod_eq_of_lt h]
  | succ width ih =>
    rw [digits, List.map_append, List.map_singleton, padded, Nat.toDigits_eq_if hBase]
    split
    · rename_i hLess
      rw [Nat.div_eq_of_lt hLess, Nat.mod_eq_of_lt hLess, digits_zero, List.map_replicate]
      rfl
    · rw [← ih (div_lt_pow h), padded, List.length_append, List.length_singleton, Nat.add_sub_add_right,
        ← List.append_assoc]

end Digits

/-! ## Reading -/

theorem digit_digitChar : ∀ d < 16, (Unicode.decimalDigitValue? d.digitChar).or (digitValue? d.digitChar) = some d := by
  decide +kernel

/-- Digits are none of the characters that reading passes over. -/
theorem isPlain_digitChar : ∀ d < 16, Unicode.isBlank d.digitChar = false ∧ d.digitChar ≠ '+' ∧
    d.digitChar ≠ '-' ∧ d.digitChar ≠ '_' ∧ d.digitChar ≠ 'x' ∧ d.digitChar ≠ 'X' := by decide +kernel

section Reading

variable {base : Nat} {ds : List Nat}

theorem scriptDigit?_digitChar {d : Nat} (hBase : base ≤ 16) (h : d < base) :
    scriptDigit? base d.digitChar = some d := by
  rw [scriptDigit?, digit_digitChar d (Nat.lt_of_lt_of_le h hBase), Option.filter_some, if_pos (decide_eq_true h)]

theorem readDigits?_map_digitChar (hBase : base ≤ 16) (h : ∀ d ∈ ds, d < base) (value : Nat) :
    readDigits? base value (ds.map Nat.digitChar) = some (valueFrom base value ds) := by
  induction ds generalizing value with
  | nil => rfl
  | cons d ds ih =>
    obtain ⟨hd, hds⟩ := List.forall_mem_cons.mp h
    obtain ⟨-, -, -, hLow, -⟩ := isPlain_digitChar d (Nat.lt_of_lt_of_le hd hBase)
    have hStep : readDigits? base value (d.digitChar :: ds.map Nat.digitChar) =
        (scriptDigit? base d.digitChar).bind fun d => readDigits? base (value * base + d) (ds.map Nat.digitChar) := by
      rw [readDigits?.eq_def]
      split
      · rename_i hEq
        cases hEq
      · rename_i hEq
        exact absurd (List.cons.inj hEq).1 hLow
      · rename_i hEq
        obtain ⟨rfl, rfl⟩ := List.cons.inj hEq
        cases scriptDigit? base d.digitChar <;> rfl
    rw [List.map_cons, hStep, scriptDigit?_digitChar hBase hd]
    exact ih hds _

/-- Nothing is taken off at either end. -/
theorem trimmed_eq_self {p : Char → Bool} {s : List Char} (h : ∀ c ∈ s, p c = false) :
    ((s.dropWhile p).reverse.dropWhile p).reverse = s := by
  have hKept (s : List Char) (h : ∀ c ∈ s, p c = false) : s.dropWhile p = s := by
    cases s with
    | nil => rfl
    | cons c s => rw [List.dropWhile_cons, h c List.mem_cons_self, if_neg Bool.false_ne_true]
  rw [hKept s h, hKept _ fun c hc => h c (List.mem_reverse.mp hc), List.reverse_reverse]

theorem trim_eq_self {s : List Char} (h : ∀ c ∈ s, Unicode.isBlank c = false) : Unicode.trim s = s :=
  trimmed_eq_self h

theorem dropHexPrefix_eq_self {s : List Char} (h : ∀ c ∈ s, c ≠ 'x' ∧ c ≠ 'X') : dropHexPrefix s = s := by
  rw [dropHexPrefix.eq_def]
  split
  · rename_i x rest
    obtain ⟨hLower, hUpper⟩ := h x (by simp)
    rw [if_neg (by simp [hLower, hUpper])]
  · rfl

theorem readInteger?_map_digitChar (hBase : base ≤ 16) (hSome : ds ≠ []) (h : ∀ d ∈ ds, d < base) :
    readInteger? base (ds.map Nat.digitChar) = some (.ofNat (valueFrom base 0 ds)) := by
  have hPlain : ∀ c ∈ ds.map Nat.digitChar, Unicode.isBlank c = false ∧ c ≠ '+' ∧ c ≠ '-' ∧ c ≠ '_' ∧
      c ≠ 'x' ∧ c ≠ 'X' :=
    List.forall_mem_map.mpr fun d hd => isPlain_digitChar d (Nat.lt_of_lt_of_le (h d hd) hBase)
  have hPrefix : (if base == 16 then dropHexPrefix (ds.map Nat.digitChar) else ds.map Nat.digitChar) =
      ds.map Nat.digitChar := by
    rw [dropHexPrefix_eq_self fun c hc => (hPlain c hc).2.2.2.2, ite_self]
  have hNatural : readNatural? base (ds.map Nat.digitChar) = some (valueFrom base 0 ds) := by
    cases ds with
    | nil => exact absurd rfl hSome
    | cons d ds =>
      obtain ⟨hd, hds⟩ := List.forall_mem_cons.mp h
      rw [List.map_cons, readNatural?, scriptDigit?_digitChar hBase hd]
      refine (readDigits?_map_digitChar hBase hds d).trans ?_
      rw [valueFrom, valueFrom, List.foldl_cons, Nat.zero_mul, Nat.zero_add]
  rw [readInteger?, trim_eq_self fun c hc => (hPlain c hc).1]
  dsimp only
  split
  · rename_i rest hEq
    exact absurd rfl (hPlain '+' (by rw [hEq]; exact List.mem_cons_self)).2.1
  · rename_i rest hEq
    exact absurd rfl (hPlain '-' (by rw [hEq]; exact List.mem_cons_self)).2.2.1
  · rw [hPrefix, hNatural]
    rfl

theorem readInteger?_padded (hBase : 1 < base) (hLetters : base ≤ 16) {width n : Nat}
    (h : n < Nat.pow base (width + 1)) : readInteger? base (padded base (width + 1) n) = some (.ofNat n) := by
  have hSome : digits base (width + 1) n ≠ [] := by
    intro hNil
    have hLength := length_digits base (width + 1) n
    rw [hNil] at hLength
    cases hLength
  rw [padded_eq_digits hBase h,
    readInteger?_map_digitChar hLetters hSome (lt_of_mem_digits (Nat.lt_of_succ_lt hBase)), valueFrom_digits h]

end Reading

end UriRouting.Text
