import UriRouting.Proofs.PercentEncoding.OnePass

/-! # Lenient decoding

Decoding that is not strict keeps malformed escapes and replaces what cannot be decoded. It still encodes
the text first, and fails where an escape stands in a text that the charset cannot encode. -/

set_option autoImplicit false

namespace UriRouting

namespace Charset

variable {cs : Charset} {s : List Char}

theorem encodes_flatMap (h : ∀ c ∈ s, cs.encodeChar? c ≠ none) :
    cs.Encodes s (s.flatMap (PercentEncoding.bytesOf cs)) := by
  induction s with
  | nil => exact .nil
  | cons c rest ih =>
    obtain ⟨hc, hRest⟩ := List.forall_mem_cons.mp h
    obtain ⟨front, hFront⟩ := Option.ne_none_iff_exists'.mp hc
    rw [List.flatMap_cons, PercentEncoding.bytesOf_eq hFront]
    exact .cons hFront (ih hRest)

theorem Encodes.encodeChar?_ne_none {bytes : List UInt8} (h : cs.Encodes s bytes) :
    ∀ c ∈ s, cs.encodeChar? c ≠ none := by
  induction h with
  | nil => exact List.forall_mem_nil _
  | cons hChar h ih =>
    refine List.forall_mem_cons.mpr ⟨?_, ih⟩
    rw [hChar]
    exact Option.some_ne_none _

theorem exists_encode_error_iff : (∃ e, cs.encode s = .error e) ↔ ∃ c ∈ s, cs.encodeChar? c = none := by
  constructor
  · rintro ⟨e, hError⟩
    by_contra! hAll
    have hOk := encode_eq_ok_iff.mpr ⟨_, encodes_flatMap hAll, rfl⟩
    cases hError.symm.trans hOk
  · rintro ⟨c, hc, hNone⟩
    cases hEncode : cs.encode s with
    | error e => exact ⟨e, rfl⟩
    | ok bytes =>
      obtain ⟨body, hBody, -⟩ := encode_eq_ok_iff.mp hEncode
      exact absurd hNone (hBody.encodeChar?_ne_none c hc)

theorem eq_of_encode {bytes : List UInt8} (h : cs.encode s = .ok bytes) :
    bytes = cs.signature ++ s.flatMap (PercentEncoding.bytesOf cs) := by
  obtain ⟨body, hBody, rfl⟩ := encode_eq_ok_iff.mp h
  have hSame := encode_eq_ok_iff.mpr ⟨_, encodes_flatMap hBody.encodeChar?_ne_none, rfl⟩
  exact Except.ok.inj (h.symm.trans hSame)

end Charset

namespace PercentEncoding

/-- The byte that a percent sign gives together with the two bytes behind it. -/
def escape? (b high low : UInt8) : Option UInt8 :=
  if b = percent then do
    let m ← hexValue? high
    let n ← hexValue? low
    pure (UInt8.ofNat (m * 16 + n))
  else none

/-- The bytes that others stand for, where a percent sign that begins no escape stands for itself. -/
def unescapeKept : List UInt8 → List UInt8
  | b :: high :: low :: rest =>
    match escape? b high low with
    | some byte => byte :: unescapeKept rest
    | none => b :: unescapeKept (high :: low :: rest)
  | short => short

theorem exists_of_unescape?_splitOn {back bytes : List UInt8}
    (h : unescape? (Text.splitOn percent back).1 = some bytes) :
    ∃ high low rest m n, back = high :: low :: rest ∧ hexValue? high = some m ∧ hexValue? low = some n := by
  have hBack := Text.splitOn_join percent back
  unfold unescape? at h
  split at h
  · rename_i high low first hFirst
    obtain ⟨m, hHigh, h⟩ := Option.bind_eq_some_iff.mp h
    obtain ⟨n, hLow, -⟩ := Option.bind_eq_some_iff.mp h
    rw [hFirst, List.cons_append, List.cons_append] at hBack
    exact ⟨high, low, _, m, n, hBack.symm, hHigh, hLow⟩
  · cases h

section Lenient

variable {cs : Charset} {b : UInt8} {back bytes : List UInt8}

theorem unescaped_kept (h : unescaped cs false back = .ok bytes)
    (hStray : b = percent → unescape? (Text.splitOn percent back).1 = none) :
    unescaped cs false (b :: back) = .ok (b :: bytes) := by
  by_cases hb : b = percent
  · subst hb
    rw [unescaped_stray (hStray rfl), if_neg Bool.false_ne_true, h]
    rfl
  · have hFront : percent ∉ [b] := fun hMem => hb (List.mem_singleton.mp hMem).symm
    have hAppend : unescaped cs false ([b] ++ back) = _ := unescaped_append hFront
    rw [h] at hAppend
    exact hAppend

theorem unescaped_short (h : back.length < 3) : unescaped cs false back = .ok back := by
  induction back with
  | nil => rfl
  | cons b back ih =>
    rw [List.length_cons] at h
    refine unescaped_kept (ih (by omega)) fun _ => ?_
    apply Option.eq_none_iff_forall_ne_some.mpr
    intro bytes hBytes
    obtain ⟨high, low, rest, -, -, rfl, -, -⟩ := exists_of_unescape?_splitOn hBytes
    simp only [List.length_cons] at h
    omega

/-- Cutting at percent signs keeps what reading from left to right keeps. -/
theorem unescaped_lenient (written : List UInt8) :
    unescaped cs false written = .ok (unescapeKept written) := by
  fun_induction unescapeKept written with
  | case1 b high low rest byte hEscape ih =>
    rw [escape?] at hEscape
    split at hEscape
    · rename_i hb
      obtain ⟨m, hHigh, hEscape⟩ := Option.bind_eq_some_iff.mp hEscape
      obtain ⟨n, hLow, hEscape⟩ := Option.bind_eq_some_iff.mp hEscape
      cases hEscape
      rw [hb, unescaped_escape hHigh hLow, ih]
      rfl
    · cases hEscape
  | case2 b high low rest hNone ih =>
    refine unescaped_kept ih fun hb => ?_
    apply Option.eq_none_iff_forall_ne_some.mpr
    intro bytes hBytes
    obtain ⟨_, _, _, m, n, hEq, hHigh, hLow⟩ := exists_of_unescape?_splitOn hBytes
    cases hEq
    simp [escape?, hb, hHigh, hLow] at hNone
  | case3 short hShort =>
    refine unescaped_short ?_
    match short with
    | [] | [_] | [_, _] => simp
    | b :: high :: low :: rest => exact absurd rfl (hShort b high low rest)

theorem unescapeAll_lenient {tokens : List (List UInt8)} (h : unescapeAll cs true tokens = .ok bytes) :
    unescapeAll cs false tokens = .ok bytes := by
  induction tokens generalizing bytes with
  | nil => exact h
  | cons token rest ih =>
    rw [unescapeAll] at h ⊢
    cases hToken : unescape? token with
    | none =>
      rw [hToken] at h
      cases h
    | some front =>
      rw [hToken] at h
      obtain ⟨more, hMore, hBytes⟩ := bind_eq_ok_iff.mp h
      exact bind_eq_ok_iff.mpr ⟨more, ih hMore, hBytes⟩

end Lenient

section Decode

variable {encoding : String} {cs : Charset} {s t : List Char}

theorem exists_mem_plusToSpace_iff {P : Char → Prop} (hPlus : ¬ P '+') (hSpace : ¬ P ' ') :
    (∃ c ∈ plusToSpace s, P c) ↔ ∃ c ∈ s, P c := by
  constructor
  · rintro ⟨d, hd, hP⟩
    obtain ⟨c, hc, rfl⟩ := List.mem_map.mp hd
    split at hP
    · exact absurd hP hSpace
    · exact ⟨c, hc, hP⟩
  · rintro ⟨c, hc, hP⟩
    refine ⟨c, List.mem_map.mpr ⟨c, hc, if_neg ?_⟩, hP⟩
    rintro rfl
    exact hPlus hP

theorem decodeEscapes_lenient (hName : Charset.ofName? encoding = some cs) (s : List Char) :
    decodeEscapes encoding false s =
      (cs.encode s).mapError .charset >>= fun written => pure (cs.decodeLenient (unescapeKept written)) := by
  rw [decodeEscapes_eq hName]
  simp only [unescaped_lenient]
  rfl

theorem decodeEscapes_of_strict (hName : Charset.ofName? encoding = some cs)
    (h : decodeEscapes encoding true s = .ok t) : decodeEscapes encoding false s = .ok t := by
  rw [decodeEscapes, charset_eq_ok_iff.mpr hName] at h ⊢
  obtain ⟨_, hCharset, h⟩ := bind_eq_ok_iff.mp h
  obtain ⟨written, hWritten, h⟩ := bind_eq_ok_iff.mp h
  obtain ⟨bytes, hBytes, h⟩ := bind_eq_ok_iff.mp h
  refine bind_eq_ok_iff.mpr ⟨_, hCharset, bind_eq_ok_iff.mpr ⟨written, hWritten, ?_⟩⟩
  refine bind_eq_ok_iff.mpr ⟨bytes, unescapeAll_lenient hBytes, ?_⟩
  cases mapError_eq_ok_iff.mp hCharset
  exact congrArg Except.ok (Charset.decodeLenient_of_decode (mapError_eq_ok_iff.mp h))

/-- Decoding that is not strict fails just where an escape stands in a text that cannot be encoded. What
strict decoding reads it reads too; otherwise it keeps and replaces what is wrong. -/
theorem decode_lenient (hName : Charset.ofName? encoding = some cs) (plusAsSpace : Bool) (s : List Char) :
    let text := if plusAsSpace then plusToSpace s else s
    ((∃ e, decode encoding plusAsSpace false s = .error e) ↔
      '%' ∈ s ∧ ∃ c ∈ s, cs.encodeChar? c = none) ∧
    (∀ t, decode encoding plusAsSpace false s = .ok t →
      t = if '%' ∈ s then
        cs.decodeLenient (unescapeKept (cs.signature ++ text.flatMap (bytesOf cs))) else text) ∧
    ∀ t, decode encoding plusAsSpace true s = .ok t → decode encoding plusAsSpace false s = .ok t := by
  intro text
  have hPlus : cs.encodeChar? '+' ≠ none := by cases cs <;> decide
  have hSpace : cs.encodeChar? ' ' ≠ none := by cases cs <;> decide
  have hSame {P : Char → Prop} (hPlus : ¬ P '+') (hSpace : ¬ P ' ') :
      (∃ c ∈ text, P c) ↔ ∃ c ∈ s, P c := by
    cases plusAsSpace with
    | true => exact exists_mem_plusToSpace_iff hPlus hSpace
    | false => rfl
  have hPercent : text.contains '%' = true ↔ '%' ∈ s := by
    rw [List.contains_iff_mem]
    simpa using hSame (P := (· = '%')) (by decide) (by decide)
  have hUnencodable : (∃ e, cs.encode text = .error e) ↔ ∃ c ∈ s, cs.encodeChar? c = none :=
    Charset.exists_encode_error_iff.trans (hSame hPlus hSpace)
  have hDecode (strict : Bool) : decode encoding plusAsSpace strict s =
      if '%' ∈ s then decodeEscapes encoding strict text else .ok text := if_congr hPercent rfl rfl
  rw [← hUnencodable]
  by_cases hEscape : '%' ∈ s
  · have hLenient : decode encoding plusAsSpace false s = (cs.encode text).mapError .charset >>=
        fun written => pure (cs.decodeLenient (unescapeKept written)) := by
      rw [hDecode, if_pos hEscape, decodeEscapes_lenient hName]
    rw [if_pos hEscape]
    refine ⟨?_, fun t h => ?_, fun t h => ?_⟩
    · rw [hLenient, and_iff_right hEscape]
      cases cs.encode text with
      | error e => exact ⟨fun _ => ⟨e, rfl⟩, fun _ => ⟨_, rfl⟩⟩
      | ok written =>
        constructor
        · rintro ⟨e, hError⟩
          cases hError
        · rintro ⟨e, hError⟩
          cases hError
    · rw [hLenient] at h
      obtain ⟨written, hWritten, h⟩ := bind_eq_ok_iff.mp h
      cases h
      rw [← Charset.eq_of_encode (mapError_eq_ok_iff.mp hWritten)]
    · rw [hDecode, if_pos hEscape] at h ⊢
      exact decodeEscapes_of_strict hName h
  · have hPassed (strict : Bool) : decode encoding plusAsSpace strict s = .ok text := by
      rw [hDecode, if_neg hEscape]
    rw [if_neg hEscape, hPassed, hPassed]
    refine ⟨⟨?_, fun h => absurd h.1 hEscape⟩, fun t h => (Except.ok.inj h).symm, fun t h => h⟩
    rintro ⟨e, hError⟩
    cases hError

/-- An escape that is cut short and a byte that begins no character; a letter that is no part of ASCII. -/
theorem decode_lenient_of_truncated :
    decode "utf-8" true false "a+%4%C3".toList = .ok "a %4\uFFFD".toList ∧
    (∀ t, decode "utf-8" true true "a+%41".toList = .ok t → decode "utf-8" true false "a+%41".toList = .ok t) ∧
    ∃ e, decode "us-ascii" false false "é%41".toList = .error e := by
  have hName : Charset.ofName? "utf-8" = some .utf8 := by decide +kernel
  have hName' : Charset.ofName? "us-ascii" = some .ascii := by decide +kernel
  obtain ⟨hFails, hValue, -⟩ := decode_lenient hName true "a+%4%C3".toList
  obtain ⟨-, -, hAgrees⟩ := decode_lenient hName true "a+%41".toList
  obtain ⟨hFails', -, -⟩ := decode_lenient hName' false "é%41".toList
  refine ⟨?_, hAgrees, hFails'.mpr ⟨by decide, 'é', by decide, by decide⟩⟩
  cases hDecode : decode "utf-8" true false "a+%4%C3".toList with
  | error e =>
    obtain ⟨-, c, -, hNone⟩ := hFails.mp ⟨e, hDecode⟩
    cases hNone
  | ok t => exact congrArg Except.ok ((hValue t hDecode).trans (by decide +kernel))

/-- The text is encoded before its escapes are looked at, and that is strict. -/
theorem decode_of_unencodable :
    decode "ascii" true false "é%41".toList =
      .error (.charset (.encode "ascii" 0 'é' 1 (.outOfRange 0x80))) := by
  rfl

end Decode

end PercentEncoding

end UriRouting
