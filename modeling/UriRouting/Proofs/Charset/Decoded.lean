import UriRouting.Proofs.Charset.Encoded

/-! # Decoded text

In the charsets that extend ASCII every character has one form: what is read as a character is what
that character is encoded to. Bytes that can be decoded are therefore those that the decoded text is
encoded to. -/

set_option autoImplicit false

namespace UriRouting.Charset

/-- What reads as a character is its encoded form. -/
def Canonical (next : PieceReader) (encodeChar? : Char → Option (List UInt8)) : Prop :=
  ∀ b rest c extra, next b rest = .char c extra → encodeChar? c = some (b :: rest.take extra)

theorem encodes_of_strictText {cs : Charset} {next : PieceReader}
    (hNext : Canonical next cs.encodeChar?) {codec : String} {start : Nat} {bytes : List UInt8}
    {s : List Char} (h : strictText codec start (pieces next bytes) = .ok s) : cs.Encodes s bytes := by
  induction bytes using (measure List.length).wf.induction generalizing start s with
  | h bytes ih =>
    cases bytes with
    | nil =>
      cases h
      exact .nil
    | cons b rest =>
      rw [pieces_cons] at h
      cases hPiece : next b rest with
      | bad reason extra =>
        rw [hPiece] at h
        cases h
      | char c extra =>
        rw [hPiece, strictText, Piece.extra] at h
        obtain ⟨s, hRest, hPure⟩ := bind_eq_ok_iff.mp h
        cases hPure
        have hShorter : (rest.drop extra).length < (b :: rest).length := by
          rw [List.length_drop, List.length_cons]
          omega
        have hSplit : b :: rest = (b :: rest.take extra) ++ rest.drop extra := by
          rw [List.cons_append, List.take_append_drop]
        rw [hSplit]
        exact .cons (hNext b rest c extra hPiece) (ih _ hShorter hRest)

section Utf8

theorem readTail_zero_eq_char {bits taken low high extra : Nat} {rest : List UInt8} {c : Char}
    (h : Utf8.readTail bits taken 0 low high rest = .char c extra) :
    c = Char.ofNat bits ∧ extra = taken := by
  rw [Utf8.readTail] at h
  obtain ⟨rfl, rfl⟩ := Piece.char.inj h
  exact ⟨rfl, rfl⟩

theorem readTail_succ_eq_char {bits taken owed low high extra : Nat} {rest : List UInt8} {c : Char}
    (h : Utf8.readTail bits taken (owed + 1) low high rest = .char c extra) :
    ∃ b more, rest = b :: more ∧ low ≤ b.toNat ∧ b.toNat ≤ high ∧
      Utf8.readTail (bits * 0x40 + (b.toNat - 0x80)) (taken + 1) owed 0x80 0xBF more =
        .char c extra := by
  cases rest with
  | nil => cases h
  | cons b more =>
    rw [Utf8.readTail] at h
    split at h
    · rename_i hRange
      exact ⟨b, more, rfl, hRange.1, hRange.2, h⟩
    · cases h

theorem byte_eq {n : Nat} {b : UInt8} (h : n = b.toNat) : UInt8.ofNat n = b := by
  rw [h, UInt8.ofNat_toNat]

theorem tail_eq {n : Nat} {b : UInt8} (h : 0x80 + n % 0x40 = b.toNat) : Utf8.tail n = b := byte_eq h

theorem encodeChar_one {b : UInt8} (hb : b.toNat < 0x80) :
    Utf8.encodeChar (Char.ofNat b.toNat) = [b] := by
  rw [Utf8.encodeChar, toNat_ofNat (Or.inl (by omega)), if_pos hb, UInt8.ofNat_toNat]

theorem encodeChar_two {b₀ b₁ : UInt8} (h₀ : 0xC2 ≤ b₀.toNat ∧ b₀.toNat < 0xE0)
    (h₁ : 0x80 ≤ b₁.toNat ∧ b₁.toNat ≤ 0xBF) :
    Utf8.encodeChar (Char.ofNat ((b₀.toNat - 0xC0) * 0x40 + (b₁.toNat - 0x80))) = [b₀, b₁] := by
  generalize hCode : (b₀.toNat - 0xC0) * 0x40 + (b₁.toNat - 0x80) = n
  rw [Utf8.encodeChar, toNat_ofNat (Or.inl (by omega)), if_neg (by omega), if_pos (by omega),
    byte_eq (b := b₀) (by omega), tail_eq (b := b₁) (by omega)]

theorem encodeChar_three {b₀ b₁ b₂ : UInt8} (h₀ : 0xE0 ≤ b₀.toNat ∧ b₀.toNat < 0xF0)
    (h₁ : (if b₀.toNat = 0xE0 then 0xA0 else 0x80) ≤ b₁.toNat ∧
      b₁.toNat ≤ if b₀.toNat = 0xED then 0x9F else 0xBF)
    (h₂ : 0x80 ≤ b₂.toNat ∧ b₂.toNat ≤ 0xBF) :
    Utf8.encodeChar (Char.ofNat (((b₀.toNat - 0xE0) * 0x40 + (b₁.toNat - 0x80)) * 0x40 +
      (b₂.toNat - 0x80))) = [b₀, b₁, b₂] := by
  -- The least first tail shuts out shorter forms, the greatest one surrogates.
  have hLow : 0x80 ≤ b₁.toNat ∧ (b₀.toNat = 0xE0 → 0xA0 ≤ b₁.toNat) := by
    have h := h₁.1
    split at h <;> omega
  have hHigh : b₁.toNat ≤ 0xBF ∧ (b₀.toNat = 0xED → b₁.toNat ≤ 0x9F) := by
    have h := h₁.2
    split at h <;> omega
  generalize hCode : ((b₀.toNat - 0xE0) * 0x40 + (b₁.toNat - 0x80)) * 0x40 + (b₂.toNat - 0x80) = n
  have hValid : n < 0xD800 ∨ 0xDFFF < n ∧ n < 0x110000 := by omega
  rw [Utf8.encodeChar, toNat_ofNat hValid, if_neg (by omega), if_neg (by omega), if_pos (by omega),
    byte_eq (b := b₀) (by omega), tail_eq (b := b₁) (by omega), tail_eq (b := b₂) (by omega)]

theorem encodeChar_four {b₀ b₁ b₂ b₃ : UInt8} (h₀ : 0xF0 ≤ b₀.toNat ∧ b₀.toNat < 0xF5)
    (h₁ : (if b₀.toNat = 0xF0 then 0x90 else 0x80) ≤ b₁.toNat ∧
      b₁.toNat ≤ if b₀.toNat = 0xF4 then 0x8F else 0xBF)
    (h₂ : 0x80 ≤ b₂.toNat ∧ b₂.toNat ≤ 0xBF) (h₃ : 0x80 ≤ b₃.toNat ∧ b₃.toNat ≤ 0xBF) :
    Utf8.encodeChar (Char.ofNat ((((b₀.toNat - 0xF0) * 0x40 + (b₁.toNat - 0x80)) * 0x40 +
      (b₂.toNat - 0x80)) * 0x40 + (b₃.toNat - 0x80))) = [b₀, b₁, b₂, b₃] := by
  have hLow : 0x80 ≤ b₁.toNat ∧ (b₀.toNat = 0xF0 → 0x90 ≤ b₁.toNat) := by
    have h := h₁.1
    split at h <;> omega
  have hHigh : b₁.toNat ≤ 0xBF ∧ (b₀.toNat = 0xF4 → b₁.toNat ≤ 0x8F) := by
    have h := h₁.2
    split at h <;> omega
  generalize hCode : (((b₀.toNat - 0xF0) * 0x40 + (b₁.toNat - 0x80)) * 0x40 +
    (b₂.toNat - 0x80)) * 0x40 + (b₃.toNat - 0x80) = n
  rw [Utf8.encodeChar, toNat_ofNat (Or.inr (by omega)), if_neg (by omega), if_neg (by omega),
    if_neg (by omega), byte_eq (b := b₀) (by omega), tail_eq (b := b₁) (by omega),
    tail_eq (b := b₂) (by omega), tail_eq (b := b₃) (by omega)]

theorem lead?_eq_some {b : Nat} {lead : Utf8.Lead} (h : Utf8.lead? b = some lead) :
    (b < 0x80 ∧ lead = ⟨b, 0, 0, 0⟩) ∨
    (0xC2 ≤ b ∧ b < 0xE0 ∧ lead = ⟨b - 0xC0, 1, 0x80, 0xBF⟩) ∨
    (0xE0 ≤ b ∧ b < 0xF0 ∧ lead = ⟨b - 0xE0, 2, if b = 0xE0 then 0xA0 else 0x80,
      if b = 0xED then 0x9F else 0xBF⟩) ∨
    (0xF0 ≤ b ∧ b < 0xF5 ∧ lead = ⟨b - 0xF0, 3, if b = 0xF0 then 0x90 else 0x80,
      if b = 0xF4 then 0x8F else 0xBF⟩) := by
  unfold Utf8.lead? at h
  split at h
  · rename_i hOne
    exact Or.inl ⟨hOne, (Option.some.inj h).symm⟩
  · split at h
    · cases h
    · split at h
      · rename_i _ hLeast hTwo
        exact Or.inr (Or.inl ⟨Nat.le_of_not_lt hLeast, hTwo, (Option.some.inj h).symm⟩)
      · split at h
        · rename_i _ _ hLeast hThree
          exact Or.inr (Or.inr (Or.inl ⟨Nat.le_of_not_lt hLeast, hThree, (Option.some.inj h).symm⟩))
        · split at h
          · rename_i _ _ _ hLeast hFour
            exact Or.inr (Or.inr (Or.inr
              ⟨Nat.le_of_not_lt hLeast, hFour, (Option.some.inj h).symm⟩))
          · cases h

theorem canonical_utf8 : Canonical Utf8.next fun c => some (Utf8.encodeChar c) := by
  intro b rest c extra h
  refine congrArg some ?_
  rw [Utf8.next] at h
  split at h
  · rename_i lead hLead
    rcases lead?_eq_some hLead with ⟨hLess, rfl⟩ | ⟨hLeast, hLess, rfl⟩ | ⟨hLeast, hLess, rfl⟩ |
      ⟨hLeast, hLess, rfl⟩
    · obtain ⟨hChar, hExtra⟩ := readTail_zero_eq_char h
      rw [hChar, hExtra]
      exact encodeChar_one hLess
    · obtain ⟨b₁, rest, rfl, hLow₁, hHigh₁, h⟩ := readTail_succ_eq_char h
      obtain ⟨hChar, hExtra⟩ := readTail_zero_eq_char h
      rw [hChar, hExtra]
      exact encodeChar_two ⟨hLeast, hLess⟩ ⟨hLow₁, hHigh₁⟩
    · obtain ⟨b₁, rest, rfl, hLow₁, hHigh₁, h⟩ := readTail_succ_eq_char h
      obtain ⟨b₂, rest, rfl, hLow₂, hHigh₂, h⟩ := readTail_succ_eq_char h
      obtain ⟨hChar, hExtra⟩ := readTail_zero_eq_char h
      rw [hChar, hExtra]
      exact encodeChar_three ⟨hLeast, hLess⟩ ⟨hLow₁, hHigh₁⟩ ⟨hLow₂, hHigh₂⟩
    · obtain ⟨b₁, rest, rfl, hLow₁, hHigh₁, h⟩ := readTail_succ_eq_char h
      obtain ⟨b₂, rest, rfl, hLow₂, hHigh₂, h⟩ := readTail_succ_eq_char h
      obtain ⟨b₃, rest, rfl, hLow₃, hHigh₃, h⟩ := readTail_succ_eq_char h
      obtain ⟨hChar, hExtra⟩ := readTail_zero_eq_char h
      rw [hChar, hExtra]
      exact encodeChar_four ⟨hLeast, hLess⟩ ⟨hLow₁, hHigh₁⟩ ⟨hLow₂, hHigh₂⟩ ⟨hLow₃, hHigh₃⟩
  · cases h

end Utf8

section SingleByte

theorem canonical_below {limit : Nat} :
    Canonical (SingleByte.nextBelow limit) fun c => (SingleByte.byteBelow? limit c).map ([·]) := by
  intro b rest c extra h
  have hByte := b.toNat_lt
  rw [SingleByte.nextBelow] at h
  split at h
  · rename_i hLess
    cases h
    have hCode : (Char.ofNat b.toNat).toNat = b.toNat := toNat_ofNat (Or.inl (by omega))
    simp only [SingleByte.byteBelow?, hCode, hLess, if_true, UInt8.ofNat_toNat, Option.map_some,
      List.take_zero]
  · cases h

theorem windowsByte?_of_windowsChar? {b : UInt8} {c : Char} (h : SingleByte.windowsChar? b = some c) :
    SingleByte.windowsByte? c = some b := by
  have hAll : ∀ i : Fin 256, (SingleByte.windowsChar? (UInt8.ofNat i.val)).all
      (fun c => SingleByte.windowsByte? c = some (UInt8.ofNat i.val)) = true := by decide +kernel
  have hByte := hAll ⟨b.toNat, b.toNat_lt⟩
  rw [UInt8.ofNat_toNat, h] at hByte
  exact of_decide_eq_true hByte

theorem canonical_windows :
    Canonical SingleByte.nextWindows fun c => (SingleByte.windowsByte? c).map ([·]) := by
  intro b rest c extra h
  rw [SingleByte.nextWindows] at h
  split at h
  · rename_i d hChar
    cases h
    simp only [windowsByte?_of_windowsChar? hChar, Option.map_some, List.take_zero]
  · cases h

end SingleByte

theorem encodes_of_decode {cs : Charset} (hcs : cs ∈ extendingAscii) {bytes : List UInt8}
    {s : List Char} (h : cs.decode bytes = .ok s) : cs.Encodes s bytes := by
  simp only [extendingAscii, List.mem_cons, List.not_mem_nil, or_false] at hcs
  rcases hcs with rfl | rfl | rfl | rfl
  · exact encodes_of_strictText canonical_utf8 h
  · exact encodes_of_strictText canonical_below h
  · exact encodes_of_strictText canonical_below h
  · exact encodes_of_strictText canonical_windows h

end UriRouting.Charset
