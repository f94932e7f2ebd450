import UriRouting.PercentEncoding
import UriRouting.Proofs.Charset.Encoded

/-! # Encoding and decoding with percent signs

What encoding writes is made of unreserved characters and percent signs alone, and in a charset that
extends ASCII strict decoding reads it back. -/

set_option autoImplicit false

namespace UriRouting.PercentEncoding

open Charset (asciiBytes extendingAscii Encodes)

/-- The characters of encoded text. -/
def isWritten (c : Char) : Bool := isUnreserved c || c == '%'

theorem toNat_lt_of_isUnreserved {c : Char} (h : isUnreserved c = true) : c.toNat < 0x80 := by
  simp only [isUnreserved, Bool.or_eq_true, Bool.and_eq_true, decide_eq_true_eq, beq_iff_eq,
    Char.le_def, UInt32.le_iff_toNat_le] at h
  change c.val.toNat < 0x80
  rcases h with (((((⟨-, h⟩ | ⟨-, h⟩) | ⟨-, h⟩) | rfl) | rfl) | rfl) | rfl
  · exact Nat.lt_of_le_of_lt h (by decide)
  · exact Nat.lt_of_le_of_lt h (by decide)
  · exact Nat.lt_of_le_of_lt h (by decide)
  · decide
  · decide
  · decide
  · decide

theorem toNat_lt_of_isWritten {c : Char} (h : isWritten c = true) : c.toNat < 0x80 := by
  rcases Bool.or_eq_true_iff.mp h with h | h
  · exact toNat_lt_of_isUnreserved h
  · rw [eq_of_beq h]
    decide

theorem percent_notMem_of_unreserved {s : List Char} (h : ∀ c ∈ s, isUnreserved c = true) : '%' ∉ s := by
  intro hMem
  have hPercent := h '%' hMem
  revert hPercent
  decide

/-! ## Bytes -/

/-- No other character of ASCII has the byte of a percent sign. -/
theorem ofNat_ne_percent {c : Char} (hc : c.toNat < 0x80) (hNot : c ≠ '%') :
    UInt8.ofNat c.toNat ≠ percent := by
  intro hEq
  have hByte := congrArg UInt8.toNat hEq
  rw [UInt8.toNat_ofNat'] at hByte
  have hValue : percent.toNat = '%'.toNat := rfl
  exact hNot (Char.toNat_inj.mp (by omega))

theorem isUnreserved_hexDigit (n : Nat) (hn : n < 16) : isUnreserved (hexDigit n) = true := by
  have hAll : ∀ n : Fin 16, isUnreserved (hexDigit n.val) = true := by decide +kernel
  exact hAll ⟨n, hn⟩

theorem hexValue?_hexDigit (n : Nat) (hn : n < 16) :
    hexValue? (UInt8.ofNat (hexDigit n).toNat) = some n := by
  have hAll : ∀ n : Fin 16, hexValue? (UInt8.ofNat (hexDigit n.val).toNat) = some n.val := by
    decide +kernel
  exact hAll ⟨n, hn⟩

theorem toNat_ofNat_byte (b : UInt8) : (Char.ofNat b.toNat).toNat = b.toNat :=
  Charset.toNat_ofNat (Or.inl (Nat.lt_trans b.toNat_lt (by decide)))

theorem isWritten_of_mem_escapeByte {b : UInt8} {c : Char} (hc : c ∈ escapeByte b) :
    isWritten c = true := by
  have hByte := b.toNat_lt
  rw [escapeByte] at hc
  split at hc
  · rename_i hUnreserved
    rw [List.mem_singleton.mp hc, isWritten, hUnreserved, Bool.true_or]
  · simp only [List.mem_cons, List.not_mem_nil, or_false] at hc
    rcases hc with rfl | rfl | rfl
    · decide
    · rw [isWritten, isUnreserved_hexDigit _ (by omega), Bool.true_or]
    · rw [isWritten, isUnreserved_hexDigit _ (by omega), Bool.true_or]

theorem isWritten_of_mem_encodeBytes {bytes : List UInt8} {c : Char} (hc : c ∈ encodeBytes bytes) :
    isWritten c = true := by
  obtain ⟨b, -, hc⟩ := List.mem_flatMap.mp hc
  exact isWritten_of_mem_escapeByte hc

theorem hexValue?_ne_percent {b : UInt8} {n : Nat} (h : hexValue? b = some n) : b ≠ percent := by
  rintro rfl
  cases h

/-- The bytes that written bytes stand for. -/
def unescaped (cs : Charset) (strict : Bool) (written : List UInt8) :
    Except DecodeError (List UInt8) := do
  let more ← unescapeAll cs strict (Text.splitOn percent written).2
  pure ((Text.splitOn percent written).1 ++ more)

section Unescaped

variable {cs : Charset} {strict : Bool} {back : List UInt8}

theorem unescaped_append {front : List UInt8} (h : percent ∉ front) :
    unescaped cs strict (front ++ back) =
      unescaped cs strict back >>= fun bytes => pure (front ++ bytes) := by
  simp only [unescaped, Text.splitOn_append _ _ h, bind_assoc, pure_bind, List.append_assoc]

theorem unescaped_escape {high low : UInt8} {m n : Nat} (hHigh : hexValue? high = some m)
    (hLow : hexValue? low = some n) :
    unescaped cs strict (percent :: high :: low :: back) =
      unescaped cs strict back >>= fun bytes => pure (UInt8.ofNat (m * 16 + n) :: bytes) := by
  have hFirst : unescape? (high :: low :: (Text.splitOn percent back).1) =
      some (UInt8.ofNat (m * 16 + n) :: (Text.splitOn percent back).1) := by
    rw [unescape?, hHigh, hLow]
    rfl
  simp only [unescaped, Text.splitOn_cons_self, Text.splitOn_cons_of_ne _ (hexValue?_ne_percent hHigh),
    Text.splitOn_cons_of_ne _ (hexValue?_ne_percent hLow), unescapeAll, hFirst, bind_assoc, pure_bind,
    List.nil_append, List.cons_append]

/-- A percent sign with no pair of digits behind it is an error or stands for itself. -/
theorem unescaped_stray (h : unescape? (Text.splitOn percent back).1 = none) :
    unescaped cs strict (percent :: back) =
      if strict then
        throw (.malformed (String.ofList (cs.decodeLenient ((Text.splitOn percent back).1.take 2))))
      else unescaped cs strict back >>= fun bytes => pure (percent :: bytes) := by
  simp only [unescaped, Text.splitOn_cons_self, unescapeAll, h]
  split
  · rfl
  · simp only [bind_assoc, pure_bind, List.nil_append, List.cons_append]

end Unescaped

/-- Bytes in front of which nothing has been escaped, and the bytes of the escapes behind. -/
def Unescapes (cs : Charset) (strict : Bool) (written bytes : List UInt8) : Prop :=
  ∃ more, unescapeAll cs strict (Text.splitOn percent written).2 = .ok more ∧
    (Text.splitOn percent written).1 ++ more = bytes

namespace Unescapes

variable {cs : Charset} {strict : Bool} {written bytes : List UInt8}

theorem iff_unescaped : Unescapes cs strict written bytes ↔ unescaped cs strict written = .ok bytes := by
  rw [unescaped, bind_eq_ok_iff, Unescapes]
  simp only [pure, Except.pure, Except.ok.injEq]

theorem plain (h : Unescapes cs strict written bytes) {b : UInt8} (hb : b ≠ percent) :
    Unescapes cs strict (b :: written) (b :: bytes) := by
  have hFront : percent ∉ [b] := fun hMem => hb (List.mem_singleton.mp hMem).symm
  have hAppend : unescaped cs strict ([b] ++ written) = _ := unescaped_append hFront
  rw [iff_unescaped.mp h] at hAppend
  exact iff_unescaped.mpr hAppend

theorem escape (h : Unescapes cs strict written bytes) {high low : UInt8} {m n : Nat}
    (hHigh : hexValue? high = some m) (hLow : hexValue? low = some n) :
    Unescapes cs strict (percent :: high :: low :: written) (UInt8.ofNat (m * 16 + n) :: bytes) := by
  have hEscape : unescaped cs strict (percent :: high :: low :: written) = _ :=
    unescaped_escape hHigh hLow
  rw [iff_unescaped.mp h] at hEscape
  exact iff_unescaped.mpr hEscape

end Unescapes

theorem unescapes_encodeBytes (cs : Charset) (strict : Bool) (bytes : List UInt8) :
    Unescapes cs strict (asciiBytes (encodeBytes bytes)) bytes := by
  induction bytes with
  | nil => exact ⟨[], rfl, rfl⟩
  | cons b bytes ih =>
    have hByte := b.toNat_lt
    rw [encodeBytes, List.flatMap_cons, escapeByte]
    split
    · rename_i hUnreserved
      have hSame : UInt8.ofNat (Char.ofNat b.toNat).toNat = b := by
        rw [toNat_ofNat_byte, UInt8.ofNat_toNat]
      have hNot : b ≠ percent := by
        rintro rfl
        revert hUnreserved
        decide
      rw [List.singleton_append, asciiBytes, List.map_cons, hSame]
      exact ih.plain hNot
    · have hHalves : UInt8.ofNat (b.toNat / 16 * 16 + b.toNat % 16) = b := by
        rw [Nat.div_add_mod', UInt8.ofNat_toNat]
      have hEscape := ih.escape (hexValue?_hexDigit (b.toNat / 16) (by omega))
        (hexValue?_hexDigit (b.toNat % 16) (by omega))
      rw [hHalves] at hEscape
      exact hEscape

/-! ## Text -/

theorem charset_eq_ok_iff {encoding : String} {cs : Charset} :
    charset encoding = .ok cs ↔ Charset.ofName? encoding = some cs := by
  rw [charset]
  cases Charset.ofName? encoding with
  | none => simp [throw, throwThe, MonadExceptOf.throw]
  | some other => simp [pure, Except.pure]

theorem ofName?_utf8 : Charset.ofName? "utf-8" = some .utf8 := by decide +kernel

theorem encode_eq_ok {encoding : String} {s text : List Char} (h : encode encoding s = .ok text) :
    (∀ c ∈ s, isUnreserved c = true) ∧ text = s ∨
      ∃ cs bytes, Charset.ofName? encoding = some cs ∧ cs.encode s = .ok bytes ∧
        text = encodeBytes bytes := by
  rw [encode] at h
  split at h
  · rename_i hAll
    cases h
    exact Or.inl ⟨List.all_eq_true.mp hAll, rfl⟩
  · obtain ⟨cs, hName, h⟩ := bind_eq_ok_iff.mp h
    obtain ⟨bytes, hBytes, h⟩ := bind_eq_ok_iff.mp h
    cases h
    exact Or.inr ⟨cs, bytes, charset_eq_ok_iff.mp hName, hBytes, rfl⟩

theorem exists_encode {encoding : String} {cs : Charset} (hName : Charset.ofName? encoding = some cs)
    (h : ∀ c, ∃ front, cs.encodeChar? c = some front) (s : List Char) :
    ∃ text, encode encoding s = .ok text := by
  rw [encode]
  split
  · exact ⟨s, rfl⟩
  · obtain ⟨bytes, hBytes⟩ := Charset.exists_encode h s
    exact ⟨_, bind_eq_ok_iff.mpr ⟨cs, charset_eq_ok_iff.mpr hName,
      bind_eq_ok_iff.mpr ⟨bytes, hBytes, rfl⟩⟩⟩

theorem isWritten_of_encode {encoding : String} {s text : List Char} (h : encode encoding s = .ok text) :
    ∀ c ∈ text, isWritten c = true := by
  intro c hc
  rcases encode_eq_ok h with ⟨hAll, rfl⟩ | ⟨cs, bytes, -, -, rfl⟩
  · rw [isWritten, hAll c hc, Bool.true_or]
  · exact isWritten_of_mem_encodeBytes hc

theorem plusToSpace_of_isWritten {text : List Char} (h : ∀ c ∈ text, isWritten c = true) :
    plusToSpace text = text := by
  refine (List.map_congr_left fun c hc => if_neg ?_).trans (List.map_id text)
  rintro rfl
  have hPlus := h '+' hc
  revert hPlus
  decide

section Decode

variable {encoding : String} {cs : Charset}

theorem decode_of_isWritten {text : List Char} (h : ∀ c ∈ text, isWritten c = true)
    (plusAsSpace strict : Bool) : decode encoding plusAsSpace strict text =
      if text.contains '%' then decodeEscapes encoding strict text else .ok text := by
  rw [decode, plusToSpace_of_isWritten h, ite_self]
  rfl

theorem decodeEscapes_eq (hName : Charset.ofName? encoding = some cs) (strict : Bool) (s : List Char) :
    decodeEscapes encoding strict s = (do
      let written ← (cs.encode s).mapError .charset
      let bytes ← unescaped cs strict written
      if strict then (cs.decode bytes).mapError .charset else pure (cs.decodeLenient bytes)) := by
  rw [decodeEscapes, charset_eq_ok_iff.mpr hName]
  simp only [unescaped, bind_assoc, pure_bind]
  rfl

/-- Decoding text of ASCII is decoding the bytes that it escapes. -/
theorem decode_eq_of_unescapes (hName : Charset.ofName? encoding = some cs)
    (hcs : cs ∈ extendingAscii) {text : List Char} {bytes : List UInt8}
    (hText : ∀ c ∈ text, isWritten c = true) (hBytes : Unescapes cs true (asciiBytes text) bytes)
    (plusAsSpace : Bool) :
    decode encoding plusAsSpace true text = (cs.decode bytes).mapError .charset := by
  have hWritten : cs.Encodes text (asciiBytes text) :=
    Charset.encodes_asciiBytes hcs fun c hc => toNat_lt_of_isWritten (hText c hc)
  rw [decode_of_isWritten hText]
  split
  · rw [decodeEscapes_eq hName, (Charset.encode_eq_ok_iff_of_ascii hcs).mpr hWritten]
    change unescaped cs true _ >>= _ = _
    rw [Unescapes.iff_unescaped.mp hBytes]
    rfl
  · rename_i hNone
    obtain ⟨more, hMore, hAppend⟩ := hBytes
    -- Passed on as it is, the text has to be what its own bytes stand for.
    have hPercent : percent ∉ asciiBytes text := by
      intro hMem
      obtain ⟨c, hc, hEq⟩ := List.mem_map.mp hMem
      refine ofNat_ne_percent (toNat_lt_of_isWritten (hText c hc)) (fun hChar => ?_) hEq
      exact hNone (List.contains_iff_mem.mpr (hChar ▸ hc))
    have hSplit := Text.splitOn_append percent [] hPercent
    rw [List.append_nil] at hSplit
    rw [hSplit] at hMore hAppend
    cases hMore
    have hSame : asciiBytes text = bytes := by
      simpa [Text.splitOn] using hAppend
    rw [← hSame, Charset.decode_of_encodes hcs hWritten]
    rfl

theorem decode_encodeBytes (hName : Charset.ofName? encoding = some cs) (hcs : cs ∈ extendingAscii)
    (bytes : List UInt8) (plusAsSpace : Bool) :
    decode encoding plusAsSpace true (encodeBytes bytes) = (cs.decode bytes).mapError .charset :=
  decode_eq_of_unescapes hName hcs (fun _ hc => isWritten_of_mem_encodeBytes hc)
    (unescapes_encodeBytes cs true bytes) plusAsSpace

theorem decode_encode (hName : Charset.ofName? encoding = some cs) (hcs : cs ∈ extendingAscii)
    {s text : List Char} (h : encode encoding s = .ok text) (plusAsSpace : Bool) :
    decode encoding plusAsSpace true text = .ok s := by
  have hText := isWritten_of_encode h
  rcases encode_eq_ok h with ⟨hAll, rfl⟩ | ⟨cs', bytes, hName', hBytes, rfl⟩
  · have hNone := mt List.contains_iff_mem.mp (percent_notMem_of_unreserved hAll)
    rw [decode_of_isWritten hText, if_neg hNone]
  · cases hName.symm.trans hName'
    rw [decode_encodeBytes hName hcs, Charset.decode_of_encodes hcs
      ((Charset.encode_eq_ok_iff_of_ascii hcs).mp hBytes)]
    rfl

end Decode

end UriRouting.PercentEncoding
