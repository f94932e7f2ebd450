import UriRouting.Proofs.Text.Digits
import UriRouting.Uuid

/-! # Identifiers read back

The text of an identifier has nothing in it that reading would drop but the hyphens between the groups of
digits, and without them it is all thirty-two digits of the number. -/

set_option autoImplicit false

namespace UriRouting.Uuid

/-- A text that has not the first character of the mark is kept. -/
theorem without_eq_self {c : Char} {mark s : List Char} (h : c ∉ s) : without (c :: mark) 0 s = s := by
  induction s with
  | nil => rfl
  | cons d s ih =>
    obtain ⟨hd, hs⟩ := not_or.mp (mt List.mem_cons.mpr h)
    have hNot : ¬ (c :: mark).isPrefixOf (d :: s) = true := by simp [List.isPrefixOf, hd]
    rw [without, if_neg hNot, ih hs]

theorem trimBraces_eq_self {s : List Char} (h : ∀ c ∈ s, c ≠ '\x7b' ∧ c ≠ '\x7d') : trimBraces s = s :=
  Text.trimmed_eq_self fun c hc => by simp [h c hc]

/-- Hexadecimal digits are neither in a name space nor around or between the groups. -/
theorem isPlain_hexDigit : ∀ d < 16, d.digitChar ≠ 'u' ∧ d.digitChar ≠ '-' ∧ d.digitChar ≠ '\x7b' ∧
    d.digitChar ≠ '\x7d' := by decide

section Text

variable (u : Uuid)

theorem value_lt_pow : u.value < Nat.pow 16 (31 + 1) := u.value_lt

theorem hex_eq : u.hex = (Text.digits 16 32 u.value).map Nat.digitChar :=
  Text.padded_eq_digits (by decide) u.value_lt_pow

theorem length_hex : u.hex.length = 32 := by rw [hex_eq, List.length_map, Text.length_digits]

theorem isPlain_of_mem_hex {c : Char} (h : c ∈ u.hex) : c ≠ 'u' ∧ c ≠ '-' ∧ c ≠ '\x7b' ∧ c ≠ '\x7d' := by
  rw [hex_eq] at h
  obtain ⟨d, hd, rfl⟩ := List.mem_map.mp h
  exact isPlain_hexDigit d (Text.lt_of_mem_digits (by decide) d hd)

/-- The groups, one behind the other, are all the digits. -/
theorem hex_eq_groups : u.hex = u.hex.take 8 ++ ((u.hex.drop 8).take 4 ++ ((u.hex.drop 12).take 4 ++
    ((u.hex.drop 16).take 4 ++ u.hex.drop 20))) := by
  have hNext (start : Nat) : (u.hex.drop start).take 4 ++ u.hex.drop (start + 4) = u.hex.drop start := by
    rw [← List.drop_drop, List.take_append_drop]
  rw [hNext 16, hNext 12, hNext 8, List.take_append_drop]

theorem text_eq : u.text = u.hex.take 8 ++ ('-' :: (u.hex.drop 8).take 4 ++ ('-' :: (u.hex.drop 12).take 4 ++
    ('-' :: (u.hex.drop 16).take 4 ++ '-' :: u.hex.drop 20))) := by
  simp only [text, List.append_assoc, List.cons_append]

theorem mem_text {c : Char} (h : c ∈ u.text) : c = '-' ∨ c ∈ u.hex := by
  rw [text_eq] at h
  simp only [List.mem_append, List.cons_append, List.mem_cons] at h
  grind [List.mem_of_mem_take, List.mem_of_mem_drop]

theorem filter_text : u.text.filter (· != '-') = u.hex := by
  have hDigits {s : List Char} (hSub : s ⊆ u.hex) : s.filter (· != '-') = s :=
    List.filter_eq_self.mpr fun c hc => bne_iff_ne.mpr (u.isPlain_of_mem_hex (hSub hc)).2.1
  have hGroup (start : Nat) : (u.hex.drop start).take 4 ⊆ u.hex :=
    ((List.take_sublist 4 _).trans (List.drop_sublist start _)).subset
  have hHyphen (s : List Char) : ('-' :: s).filter (· != '-') = s.filter (· != '-') := rfl
  rw [text_eq]
  simp only [List.filter_append, List.cons_append, hHyphen]
  rw [hDigits (List.take_subset 8 _), hDigits (hGroup 8), hDigits (hGroup 12), hDigits (hGroup 16),
    hDigits (List.drop_subset 20 _), ← hex_eq_groups]

theorem ofText?_text : ofText? u.text = some u := by
  have hPlain {c : Char} (h : c ∈ u.text) : c ≠ 'u' ∧ c ≠ '\x7b' ∧ c ≠ '\x7d' := by
    rcases u.mem_text h with rfl | h
    · decide
    · obtain ⟨hName, -, hBraces⟩ := u.isPlain_of_mem_hex h
      exact ⟨hName, hBraces⟩
  have hName : 'u' ∉ u.text := fun h => (hPlain h).1 rfl
  have hUrn : without "urn:".toList 0 u.text = u.text := without_eq_self hName
  have hUuid : without "uuid:".toList 0 u.text = u.text := without_eq_self hName
  have hRead : Text.readInteger? 16 u.hex = some (.ofNat u.value) :=
    Text.readInteger?_padded (by decide) (by decide) u.value_lt_pow
  rw [ofText?, hUrn, hUuid, trimBraces_eq_self fun c hc => (hPlain hc).2, filter_text, if_pos u.length_hex, hRead]
  exact dif_pos u.value_lt

end Text

end UriRouting.Uuid
