import UriRouting.Proofs.PercentEncoding

/-! # Wide charsets and charsets with a signature

Decoding encodes the escaped text once more before it looks for percent signs. In a wide charset no
percent sign then has two digits right behind it, and a signature comes in front of the text a second
time. Such charsets give back the text that needs no escape and no other. -/

set_option autoImplicit false

namespace UriRouting.Charset

/-- The charsets in which a character of ASCII takes two or four bytes. -/
def wide : List Charset := [utf16, utf16Little, utf16Big, utf32, utf32Little, utf32Big]

/-- How many zeros stand in front of the byte of a character of ASCII, and how many behind it. -/
def padding : Charset → Nat × Nat
  | utf16 | utf16Little => (0, 1)
  | utf16Big => (1, 0)
  | utf32 | utf32Little => (0, 3)
  | utf32Big => (3, 0)
  | _ => (0, 0)

def padded (cs : Charset) (c : Char) : List UInt8 :=
  List.replicate cs.padding.1 0 ++ UInt8.ofNat c.toNat :: List.replicate cs.padding.2 0

section Beyond

variable {cs : Charset}

theorem eq_signedUtf8_or_mem_wide (hcs : cs ∉ extendingAscii) : cs = signedUtf8 ∨ cs ∈ wide := by
  revert hcs
  cases cs <;> decide

theorem exists_encodeChar? (hcs : cs ∉ extendingAscii) (c : Char) :
    ∃ front, cs.encodeChar? c = some front := by
  rcases eq_signedUtf8_or_mem_wide hcs with rfl | hWide
  · exact ⟨_, rfl⟩
  · simp only [wide, List.mem_cons, List.not_mem_nil, or_false] at hWide
    rcases hWide with rfl | rfl | rfl | rfl | rfl | rfl <;> exact ⟨_, rfl⟩

theorem encodeChar?_eq_padded (hcs : cs ∉ extendingAscii) {c : Char} (hc : c.toNat < 0x80) :
    cs.encodeChar? c = some (cs.padded c) := by
  have hUnit : c.toNat < 0x10000 := Nat.lt_of_lt_of_le hc (by decide)
  have hLow : c.toNat % 0x100 = c.toNat := by omega
  have hHigh : c.toNat / 0x100 = 0 := by omega
  rcases eq_signedUtf8_or_mem_wide hcs with rfl | hWide
  · simp [encodeChar?, Utf8.encodeChar, hc, padded, padding]
  · simp only [wide, List.mem_cons, List.not_mem_nil, or_false] at hWide
    have hTop : c.toNat / 0x1000000 = 0 := by omega
    have hThird : c.toNat / 0x10000 % 0x100 = 0 := by omega
    rcases hWide with rfl | rfl | rfl | rfl | rfl | rfl
    · simp [encodeChar?, Utf16.encodeChar, Utf16.unitBytes, hUnit, hLow, hHigh, padded, padding]
    · simp [encodeChar?, Utf16.encodeChar, Utf16.unitBytes, hUnit, hLow, hHigh, padded, padding]
    · simp [encodeChar?, Utf16.encodeChar, Utf16.unitBytes, hUnit, hLow, hHigh, padded, padding]
    · simp [encodeChar?, Utf32.encodeChar, hTop, hThird, hLow, hHigh, padded, padding, List.replicate]
    · simp [encodeChar?, Utf32.encodeChar, hTop, hThird, hLow, hHigh, padded, padding, List.replicate]
    · simp [encodeChar?, Utf32.encodeChar, hTop, hThird, hLow, hHigh, padded, padding, List.replicate]

theorem encode_eq_padded (hcs : cs ∉ extendingAscii) {s : List Char} (hs : ∀ c ∈ s, c.toNat < 0x80) :
    cs.encode s = .ok (cs.signature ++ s.flatMap cs.padded) := by
  have hEncodes : cs.Encodes s (s.flatMap cs.padded) := by
    induction s with
    | nil => exact .nil
    | cons c s ih =>
      obtain ⟨hc, hs⟩ := List.forall_mem_cons.mp hs
      exact .cons (encodeChar?_eq_padded hcs hc) (ih hs)
  exact encode_eq_ok_iff.mpr ⟨_, hEncodes, rfl⟩

theorem padding_pos (hcs : cs ∈ wide) : 0 < cs.padding.1 ∨ 0 < cs.padding.2 := by
  revert hcs
  cases cs <;> decide

theorem notMem_extendingAscii_of_wide (hcs : cs ∈ wide) : cs ∉ extendingAscii := by
  revert hcs
  cases cs <;> decide

/-- What stands behind a character of ASCII is nothing or a zero. -/
theorem padded_behind (hcs : cs ∈ wide) (s : List Char) :
    List.replicate cs.padding.2 (0 : UInt8) ++ s.flatMap cs.padded = [] ∨
      ∃ more, List.replicate cs.padding.2 (0 : UInt8) ++ s.flatMap cs.padded = 0 :: more := by
  cases hBehind : cs.padding.2 with
  | succ n => exact Or.inr ⟨_, rfl⟩
  | zero =>
    cases s with
    | nil => exact Or.inl rfl
    | cons c s =>
      have hFront : 0 < cs.padding.1 := by
        have hPos := padding_pos hcs
        omega
      obtain ⟨n, hn⟩ := Nat.exists_eq_add_one.mpr hFront
      rw [List.flatMap_cons, padded, hn]
      exact Or.inr ⟨_, rfl⟩

end Beyond

end UriRouting.Charset

namespace UriRouting.PercentEncoding

open Charset (asciiBytes extendingAscii wide)

theorem percent_notMem_signature (cs : Charset) : percent ∉ cs.signature := by
  cases cs <;> decide

/-! ## Wide charsets -/

theorem percent_notMem_zeros (n : Nat) : percent ∉ List.replicate n (0 : UInt8) := by
  intro hMem
  cases List.eq_of_mem_replicate hMem

theorem percent_notMem_padded {cs : Charset} {c : Char} (hc : c.toNat < 0x80) (hNot : c ≠ '%') :
    percent ∉ cs.padded c := by
  rw [Charset.padded, List.mem_append, List.mem_cons, not_or, not_or]
  exact ⟨percent_notMem_zeros _, (ofNat_ne_percent hc hNot).symm, percent_notMem_zeros _⟩

theorem unescape?_splitOn_eq_none {back : List UInt8} (h : back = [] ∨ ∃ more, back = 0 :: more) :
    unescape? (Text.splitOn percent back).1 = none := by
  obtain rfl | ⟨more, rfl⟩ := h
  · rfl
  · rw [Text.splitOn_cons_of_ne more (by decide)]
    cases (Text.splitOn percent more).1 <;> rfl

/-- In a wide charset no escape can be read. -/
theorem exists_malformed_of_wide {encoding : String} {cs : Charset}
    (hName : Charset.ofName? encoding = some cs) (hcs : cs ∈ wide) {text : List Char}
    (hText : ∀ c ∈ text, isWritten c = true) (hPercent : '%' ∈ text) (plusAsSpace : Bool) :
    ∃ found, decode encoding plusAsSpace true text = .error (.malformed found) := by
  obtain ⟨front, back, rfl, hFront⟩ := List.eq_append_cons_of_mem hPercent
  have hAscii : ∀ c ∈ front ++ '%' :: back, c.toNat < 0x80 := fun c hc =>
    toNat_lt_of_isWritten (hText c hc)
  let before := cs.signature ++ front.flatMap cs.padded ++ List.replicate cs.padding.1 0
  let behind := List.replicate cs.padding.2 0 ++ back.flatMap cs.padded
  have hEncode : cs.encode (front ++ '%' :: back) = .ok (before ++ percent :: behind) := by
    rw [Charset.encode_eq_padded (Charset.notMem_extendingAscii_of_wide hcs) hAscii]
    simp [before, behind, Charset.padded, percent]
  have hBefore : percent ∉ before := by
    have hPadded : percent ∉ front.flatMap cs.padded := by
      intro hMem
      obtain ⟨c, hc, hMem⟩ := List.mem_flatMap.mp hMem
      exact percent_notMem_padded (hAscii c (List.mem_append_left _ hc))
        (fun hEq => hFront (hEq ▸ hc)) hMem
    simp only [before, List.mem_append, not_or]
    exact ⟨⟨percent_notMem_signature cs, hPadded⟩, percent_notMem_zeros _⟩
  have hUnescaped : unescaped cs true (before ++ percent :: behind) = _ :=
    (unescaped_append hBefore).trans (congrArg (· >>= _)
      (unescaped_stray (unescape?_splitOn_eq_none (Charset.padded_behind hcs back))))
  rw [decode_of_isWritten hText, if_pos (List.contains_iff_mem.mpr hPercent), decodeEscapes_eq hName,
    hEncode]
  change ∃ found, (unescaped cs true _ >>= _) = _
  rw [hUnescaped]
  exact ⟨_, rfl⟩

/-! ## The signature -/

theorem decode_signed {body : List UInt8} {s : List Char} (h : Charset.signedUtf8.Encodes s body) :
    Charset.signedUtf8.decode (Charset.signature .signedUtf8 ++ body) = .ok s := by
  refine h.strictText_pieces (fun c front hChar => ?_) _ _
  cases hChar
  exact Charset.readsAs_utf8 c

theorem encode_signed_ascii {s : List Char} (hs : ∀ c ∈ s, c.toNat < 0x80) :
    Charset.signedUtf8.encode s = .ok (Charset.signature .signedUtf8 ++ asciiBytes s) := by
  have hPadded : Charset.padded .signedUtf8 = fun c => [UInt8.ofNat c.toNat] := rfl
  rw [Charset.encode_eq_padded (by decide) hs, hPadded, ← List.map_eq_flatMap]
  rfl

/-- The signature of the value is read as a character behind the signature of the escaped text. -/
theorem decode_encode_signed {encoding : String} (hName : Charset.ofName? encoding = some .signedUtf8)
    {s : List Char} {bytes : List UInt8} (hBytes : Charset.signedUtf8.encode s = .ok bytes)
    (plusAsSpace : Bool) :
    decode encoding plusAsSpace true (encodeBytes bytes) = .ok ('\uFEFF' :: s) := by
  obtain ⟨body, hBody, rfl⟩ := Charset.encode_eq_ok_iff.mp hBytes
  generalize hSigned : Charset.signature .signedUtf8 ++ body = bytes
  have hMarked : Charset.signedUtf8.Encodes ('\uFEFF' :: s) bytes := hSigned ▸ .cons rfl hBody
  have hText : ∀ c ∈ encodeBytes bytes, isWritten c = true := fun _ hc =>
    isWritten_of_mem_encodeBytes hc
  have hPercent : '%' ∈ encodeBytes bytes := by
    rw [← hSigned]
    exact List.mem_cons_self
  have hUnescaped : unescaped .signedUtf8 true
      (Charset.signature .signedUtf8 ++ asciiBytes (encodeBytes bytes)) =
        .ok (Charset.signature .signedUtf8 ++ bytes) := by
    rw [unescaped_append (percent_notMem_signature .signedUtf8),
      Unescapes.iff_unescaped.mp (unescapes_encodeBytes .signedUtf8 true bytes)]
    rfl
  rw [decode_of_isWritten hText, if_pos (List.contains_iff_mem.mpr hPercent), decodeEscapes_eq hName,
    encode_signed_ascii fun c hc => toNat_lt_of_isWritten (hText c hc)]
  change (unescaped _ _ _ >>= fun bytes => (Charset.signedUtf8.decode bytes).mapError .charset) = _
  rw [hUnescaped]
  exact congrArg (Except.mapError DecodeError.charset) (decode_signed hMarked)

/-! ## Texts that come back -/

/-- What has to be escaped is not read back as what it was. -/
theorem exists_decode_encode_iff {encoding : String} {cs : Charset}
    (hName : Charset.ofName? encoding = some cs) (hcs : cs ∉ extendingAscii) (s : List Char) :
    ∃ text, encode encoding s = .ok text ∧ ∀ plusAsSpace,
      (decode encoding plusAsSpace true text = .ok s ↔ ∀ c ∈ s, isUnreserved c = true) := by
  obtain ⟨text, hEncode⟩ := exists_encode hName (Charset.exists_encodeChar? hcs) s
  refine ⟨text, hEncode, fun plusAsSpace => ?_⟩
  have hText := isWritten_of_encode hEncode
  have hUnescaped (hNone : '%' ∉ text) : decode encoding plusAsSpace true text = .ok text := by
    rw [decode_of_isWritten hText, if_neg (mt List.contains_iff_mem.mp hNone)]
  have hUnreserved (hNone : '%' ∉ text) : ∀ c ∈ text, isUnreserved c = true := fun c hc =>
    (Bool.or_eq_true_iff.mp (hText c hc)).resolve_right fun hEq => hNone (eq_of_beq hEq ▸ hc)
  constructor
  · intro hDecode
    by_cases hPercent : '%' ∈ text
    · rcases Charset.eq_signedUtf8_or_mem_wide hcs with rfl | hWide
      · rcases encode_eq_ok hEncode with ⟨hAll, rfl⟩ | ⟨cs, bytes, hName', hBytes, rfl⟩
        · exact hAll
        · cases hName.symm.trans hName'
          have hMarked := (decode_encode_signed hName hBytes plusAsSpace).symm.trans hDecode
          exact absurd (Except.ok.inj hMarked) (List.cons_ne_self _ _)
      · obtain ⟨found, hError⟩ := exists_malformed_of_wide hName hWide hText hPercent plusAsSpace
        cases hError.symm.trans hDecode
    · cases (hUnescaped hPercent).symm.trans hDecode
      exact hUnreserved hPercent
  · intro hAll
    cases (encode_of_unreserved hAll).symm.trans hEncode
    exact hUnescaped (percent_notMem_of_unreserved hAll)

/-- The bytes of the first text are two letters, and those letters are what it is read as. -/
theorem decode_encode_pair_of_letters :
    (∃ text, encode "utf-16-le" "\u4141".toList = .ok text ∧
      ∀ plusAsSpace, ¬ decode "utf-16-le" plusAsSpace true text = .ok "\u4141".toList) ∧
    ∃ text, encode "utf-8-sig" "a-b".toList = .ok text ∧
      decode "utf-8-sig" true true text = .ok "a-b".toList := by
  have hName : Charset.ofName? "utf-16-le" = some .utf16Little := by decide +kernel
  have hName' : Charset.ofName? "utf-8-sig" = some .signedUtf8 := by decide +kernel
  have hReserved : isUnreserved '\u4141' = false := by decide
  have hUnreserved : ∀ c ∈ "a-b".toList, isUnreserved c = true := List.all_eq_true.mp (by rfl)
  obtain ⟨text, hEncode, hDecode⟩ := exists_decode_encode_iff hName (by decide) "\u4141".toList
  obtain ⟨text', hEncode', hDecode'⟩ := exists_decode_encode_iff hName' (by decide) "a-b".toList
  refine ⟨⟨text, hEncode, fun plusAsSpace h => ?_⟩, text', hEncode', (hDecode' true).mpr hUnreserved⟩
  have hAll := (hDecode plusAsSpace).mp h '\u4141' List.mem_cons_self
  cases hReserved.symm.trans hAll

theorem decode_encode_of_accent :
    (encode "utf-16" "é".toList = .ok "%FF%FE%E9%00".toList ∧
      decode "utf-16" true true "%FF%FE%E9%00".toList = .error (.malformed "\u4600")) ∧
    (encode "utf-16-le" "é".toList = .ok "%E9%00".toList ∧
      decode "utf-16-le" true true "%E9%00".toList = .error (.malformed "\u4500")) ∧
    (encode "utf-16-be" "é".toList = .ok "%00%E9".toList ∧
      decode "utf-16-be" true true "%00%E9".toList = .error (.malformed "0")) ∧
    (encode "utf-32-be" "é".toList = .ok "%00%00%00%E9".toList ∧
      decode "utf-32-be" true true "%00%00%00%E9".toList = .error (.malformed "\uFFFD")) ∧
    encode "utf-8-sig" "é".toList = .ok "%EF%BB%BF%C3%A9".toList ∧
      decode "utf-8-sig" true true "%EF%BB%BF%C3%A9".toList = .ok "\uFEFFé".toList := by
  have hName : Charset.ofName? "utf-8-sig" = some .signedUtf8 := by decide +kernel
  have hBytes : Charset.signedUtf8.encode "é".toList = .ok [0xEF, 0xBB, 0xBF, 0xC3, 0xA9] := by rfl
  exact ⟨⟨by rfl, by rfl⟩, ⟨by rfl, by rfl⟩, ⟨by rfl, by rfl⟩, ⟨by rfl, by rfl⟩, by rfl,
    decode_encode_signed hName hBytes true⟩

end UriRouting.PercentEncoding
