import UriRouting.Proofs.PercentEncoding
import UriRouting.Text.Digits

/-! # Decoding in one pass

Decoding cuts the bytes of a text at their percent signs and looks at the front of each part. In a
charset that extends ASCII this is the same as reading the characters once from left to right, where a
percent sign takes the two digits behind it and any other character stands for its bytes. -/

set_option autoImplicit false

namespace UriRouting.PercentEncoding

open Charset (extendingAscii)

/-- The value of a hexadecimal digit of either case. -/
def digit? (c : Char) : Option Nat := if Text.isHexDigit c then Text.digitValue? c else none

/-- The byte that two digits at the front of a text give. -/
def escaped? : List Char → Option UInt8
  | high :: low :: _ => do
    let m ← digit? high
    let n ← digit? low
    pure (UInt8.ofNat (m * 16 + n))
  | _ => none

/-- The bytes of a character; one that cannot be encoded has none. -/
def bytesOf (cs : Charset) (c : Char) : List UInt8 := (cs.encodeChar? c).getD []

/-- What is found behind a percent sign and in front of the next one, two bytes at most. -/
def found (cs : Charset) (rest : List Char) : List UInt8 :=
  ((rest.takeWhile (· ≠ '%')).flatMap (bytesOf cs)).take 2

/-- The bytes that text stands for, read from left to right. -/
def scan (cs : Charset) (strict : Bool) : List Char → Except DecodeError (List UInt8)
  | [] => pure []
  | c :: rest =>
    if c = '%' then
      match escaped? rest with
      | some b => do
        let bytes ← scan cs strict (rest.drop 2)
        pure (b :: bytes)
      | none =>
        if strict then throw (.malformed (String.ofList (cs.decodeLenient (found cs rest))))
        else do
          let bytes ← scan cs strict rest
          pure (percent :: bytes)
    else do
      let bytes ← scan cs strict rest
      pure (bytesOf cs c ++ bytes)
termination_by s => s.length

/-- Decoding as one pass: all of the text has to be encodable, and the bytes it stands for are decoded. -/
def decodeOnePass (cs : Charset) (plusAsSpace strict : Bool) (s : List Char) :
    Except DecodeError (List Char) :=
  let s := if plusAsSpace then plusToSpace s else s
  if '%' ∈ s then do
    let _ ← (cs.encode s).mapError .charset
    let bytes ← scan cs strict s
    if strict then (cs.decode bytes).mapError .charset else pure (cs.decodeLenient bytes)
  else pure s

/-! ## Digits -/

theorem digit?_of_lt {c : Char} (hc : c.toNat < 0x80) : digit? c = hexValue? (UInt8.ofNat c.toNat) := by
  have hAll : ∀ n : Fin 0x80, digit? (Char.ofNat n.val) = hexValue? (UInt8.ofNat n.val) := by
    decide +kernel
  have hChar := hAll ⟨c.toNat, hc⟩
  rwa [Char.ofNat_toNat] at hChar

theorem toNat_lt_of_digit? {c : Char} {n : Nat} (h : digit? c = some n) : c.toNat < 0x80 := by
  rw [digit?] at h
  split at h
  · rename_i hDigit
    simp only [Text.isHexDigit, Bool.or_eq_true, Bool.and_eq_true, decide_eq_true_eq, Char.le_def,
      UInt32.le_iff_toNat_le] at hDigit
    change c.val.toNat < 0x80
    rcases hDigit with (⟨-, hMost⟩ | ⟨-, hMost⟩) | ⟨-, hMost⟩
    · exact Nat.lt_of_le_of_lt hMost (by decide)
    · exact Nat.lt_of_le_of_lt hMost (by decide)
    · exact Nat.lt_of_le_of_lt hMost (by decide)
  · cases h

theorem toNat_lt_of_hexValue? {b : UInt8} {n : Nat} (h : hexValue? b = some n) : b.toNat < 0x80 := by
  rw [hexValue?] at h
  split at h
  · omega
  · split at h
    · omega
    · split at h
      · omega
      · cases h

/-! ## Characters and their bytes -/

section Encodes

variable {cs : Charset} {strict : Bool} {s : List Char} {written : List UInt8}

theorem bytesOf_eq {c : Char} {front : List UInt8} (h : cs.encodeChar? c = some front) :
    bytesOf cs c = front := by
  rw [bytesOf, h, Option.getD_some]

variable (hcs : cs ∈ extendingAscii)

include hcs

theorem encodeChar?_percent : cs.encodeChar? '%' = some [percent] :=
  Charset.encodeChar?_of_lt hcs (by decide)

theorem percent_notMem {c : Char} (hc : c ≠ '%') {front : List UInt8}
    (h : cs.encodeChar? c = some front) : percent ∉ front := by
  intro hMem
  by_cases hLess : c.toNat < 0x80
  · cases (Charset.encodeChar?_of_lt hcs hLess).symm.trans h
    exact ofNat_ne_percent hLess hc (List.mem_singleton.mp hMem).symm
  · have hLeast := (Charset.le_of_mem_encodeChar? hcs (Nat.le_of_not_lt hLess) h).2 _ hMem
    revert hLeast
    decide

/-- The bytes in front of the first percent sign are those of the text in front of it. -/
theorem takeWhile_of_encodes (h : cs.Encodes s written) :
    written.takeWhile (· ≠ percent) = (s.takeWhile (· ≠ '%')).flatMap (bytesOf cs) := by
  induction h with
  | nil => rfl
  | @cons c front rest back hChar h ih =>
    by_cases hc : c = '%'
    · subst hc
      cases (encodeChar?_percent hcs).symm.trans hChar
      simp
    · have hFront : ∀ b ∈ front, decide (b ≠ percent) = true := fun b hb =>
        decide_eq_true fun hEq => percent_notMem hcs hc hChar (hEq ▸ hb)
      have hKept : (c :: rest).takeWhile (· ≠ '%') = c :: rest.takeWhile (· ≠ '%') :=
        List.takeWhile_cons_of_pos (decide_eq_true hc)
      rw [List.takeWhile_append_of_pos hFront, ih, hKept, List.flatMap_cons, bytesOf_eq hChar]

theorem found_eq (h : cs.Encodes s written) :
    found cs s = (Text.splitOn percent written).1.take 2 := by
  rw [found, Text.splitOn_fst, takeWhile_of_encodes hcs h]

/-- Two digits at the front of the text are two digits at the front of its bytes. -/
theorem exists_of_escaped? (h : cs.Encodes s written) {b : UInt8} (hb : escaped? s = some b) :
    ∃ high low m n back, hexValue? high = some m ∧ hexValue? low = some n ∧
      b = UInt8.ofNat (m * 16 + n) ∧ written = high :: low :: back ∧ cs.Encodes (s.drop 2) back := by
  unfold escaped? at hb
  split at hb
  · rename_i high low rest
    obtain ⟨m, hHigh, hb⟩ := Option.bind_eq_some_iff.mp hb
    obtain ⟨n, hLow, hb⟩ := Option.bind_eq_some_iff.mp hb
    cases hb
    have hHigh' := toNat_lt_of_digit? hHigh
    have hLow' := toNat_lt_of_digit? hLow
    rw [digit?_of_lt hHigh'] at hHigh
    rw [digit?_of_lt hLow'] at hLow
    rcases h with _ | ⟨hChar, _ | ⟨hChar', h⟩⟩
    cases (Charset.encodeChar?_of_lt hcs hHigh').symm.trans hChar
    cases (Charset.encodeChar?_of_lt hcs hLow').symm.trans hChar'
    exact ⟨_, _, m, n, _, hHigh, hLow, rfl, rfl, h⟩
  · cases hb

theorem unescape?_eq_none (h : cs.Encodes s written) (hNone : escaped? s = none) :
    unescape? (Text.splitOn percent written).1 = none := by
  apply Option.eq_none_iff_forall_ne_some.mpr
  intro bytes hBytes
  unfold unescape? at hBytes
  split at hBytes
  · rename_i high low back hFirst
    obtain ⟨m, hHigh, hBytes⟩ := Option.bind_eq_some_iff.mp hBytes
    obtain ⟨n, hLow, -⟩ := Option.bind_eq_some_iff.mp hBytes
    -- The digits are the first two bytes of all that follows, and so its first two characters.
    have hWritten := Text.splitOn_join percent written
    rw [hFirst, List.cons_append, List.cons_append] at hWritten
    rw [← hWritten] at h
    obtain ⟨c, more, rfl, hc, rfl, hMore⟩ := h.exists_ascii hcs (toNat_lt_of_hexValue? hHigh)
    obtain ⟨d, rest, rfl, hd, rfl, -⟩ := hMore.exists_ascii hcs (toNat_lt_of_hexValue? hLow)
    rw [← digit?_of_lt hc] at hHigh
    rw [← digit?_of_lt hd] at hLow
    rw [escaped?, hHigh, hLow] at hNone
    cases hNone
  · cases hBytes

/-- Cutting at percent signs and reading from left to right give the same bytes or the same error. -/
theorem unescaped_eq_scan (h : cs.Encodes s written) :
    unescaped cs strict written = scan cs strict s := by
  fun_induction scan cs strict s generalizing written with
  | case1 =>
    cases h
    rfl
  | case2 rest b hb ih =>
    obtain _ | ⟨hChar, hRest⟩ := h
    cases (encodeChar?_percent hcs).symm.trans hChar
    obtain ⟨high, low, m, n, back, hHigh, hLow, rfl, rfl, hBack⟩ := exists_of_escaped? hcs hRest hb
    exact (unescaped_escape hHigh hLow).trans (by rw [ih hBack])
  | case3 rest hNone hStrict =>
    obtain _ | ⟨hChar, hRest⟩ := h
    cases (encodeChar?_percent hcs).symm.trans hChar
    refine (unescaped_stray (unescape?_eq_none hcs hRest hNone)).trans ?_
    rw [if_pos hStrict, found_eq hcs hRest]
  | case4 rest hNone hLenient ih =>
    obtain _ | ⟨hChar, hRest⟩ := h
    cases (encodeChar?_percent hcs).symm.trans hChar
    refine (unescaped_stray (unescape?_eq_none hcs hRest hNone)).trans ?_
    rw [if_neg hLenient, ih hRest]
  | case5 c rest hc ih =>
    obtain _ | ⟨hChar, hRest⟩ := h
    rw [unescaped_append (percent_notMem hcs hc hChar), ih hRest, bytesOf_eq hChar]

end Encodes

theorem decode_eq_decodeOnePass {encoding : String} {cs : Charset}
    (hName : Charset.ofName? encoding = some cs) (hcs : cs ∈ extendingAscii)
    (plusAsSpace strict : Bool) (s : List Char) :
    decode encoding plusAsSpace strict s = decodeOnePass cs plusAsSpace strict s := by
  rw [decode, decodeOnePass]
  generalize (if plusAsSpace = true then plusToSpace s else s) = text
  by_cases hPercent : '%' ∈ text
  · rw [if_pos (List.contains_iff_mem.mpr hPercent), if_pos hPercent, decodeEscapes_eq hName]
    cases hWritten : cs.encode text with
    | error e => rfl
    | ok written =>
      have hScan : unescaped cs strict written = scan cs strict text :=
        unescaped_eq_scan hcs ((Charset.encode_eq_ok_iff_of_ascii hcs).mp hWritten)
      change (unescaped cs strict written >>= _) = (scan cs strict text >>= _)
      rw [hScan]
  · rw [if_neg (fun hMem => hPercent (List.contains_iff_mem.mp hMem)), if_neg hPercent]

/-- Escapes that overlap, that are cut short and that complete a character begun by another escape. -/
theorem decode_overlapping_escapes :
    decode "utf-8" true false "a+%%41%4%c3%A9é%".toList
        = decodeOnePass .utf8 true false "a+%%41%4%c3%A9é%".toList ∧
      decodeOnePass .utf8 true false "a+%%41%4%c3%A9é%".toList = .ok "a %A%4éé%".toList ∧
      decode "cp1252" false true "€%80%4é%41".toList
        = decodeOnePass .windows1252 false true "€%80%4é%41".toList ∧
      decodeOnePass .windows1252 false true "€%80%4é%41".toList = .error (.malformed "4é") := by
  have hName : Charset.ofName? "utf-8" = some .utf8 := by decide +kernel
  have hName' : Charset.ofName? "cp1252" = some .windows1252 := by decide +kernel
  have hLenient := decode_eq_decodeOnePass hName (by decide) true false "a+%%41%4%c3%A9é%".toList
  have hStrict := decode_eq_decodeOnePass hName' (by decide) false true "€%80%4é%41".toList
  obtain ⟨text, hText, hValue⟩ := exists_ok_of_any
    (x := decode "utf-8" true false "a+%%41%4%c3%A9é%".toList)
    (p := fun t => t = "a %A%4éé%".toList) (by decide +kernel)
  cases of_decide_eq_true hValue
  exact ⟨hLenient, hLenient.symm.trans hText, hStrict, hStrict.symm.trans (by rfl)⟩

end UriRouting.PercentEncoding
