import UriRouting.Proofs.Charset.Decoded
import UriRouting.Proofs.PercentEncoding

/-! # Canonical text

Every text has one encoded form: unreserved characters stand for themselves, and all other bytes are
escaped with digits in upper case. In a charset that extends ASCII encoding and strict decoding are
inverse to each other between the texts that can be encoded and the canonical texts that can be
decoded. -/

set_option autoImplicit false

namespace UriRouting.PercentEncoding

open Charset (asciiBytes extendingAscii)

/-- Text in which just the bytes that need it are escaped, with digits in upper case. -/
inductive Canonical : List Char → Prop where
  | nil : Canonical []
  | unreserved {c : Char} {rest : List Char} (hc : isUnreserved c = true) (h : Canonical rest) :
      Canonical (c :: rest)
  | escape {b : UInt8} {rest : List Char} (hb : isUnreserved (Char.ofNat b.toNat) = false)
      (h : Canonical rest) :
      Canonical ('%' :: hexDigit (b.toNat / 16) :: hexDigit (b.toNat % 16) :: rest)

theorem escapeByte_of_isUnreserved {c : Char} (hc : isUnreserved c = true) :
    escapeByte (UInt8.ofNat c.toNat) = [c] := by
  have hLess := toNat_lt_of_isUnreserved hc
  have hByte : (UInt8.ofNat c.toNat).toNat = c.toNat := by
    rw [UInt8.toNat_ofNat']
    omega
  simp only [escapeByte, hByte, Char.ofNat_toNat, hc, if_true]

theorem encodeBytes_cons (b : UInt8) (bytes : List UInt8) :
    encodeBytes (b :: bytes) = escapeByte b ++ encodeBytes bytes := rfl

theorem canonical_encodeBytes (bytes : List UInt8) : Canonical (encodeBytes bytes) := by
  induction bytes with
  | nil => exact .nil
  | cons b bytes ih =>
    rw [encodeBytes_cons, escapeByte]
    split
    · rename_i hUnreserved
      exact .unreserved hUnreserved ih
    · rename_i hReserved
      exact .escape (Bool.eq_false_iff.mpr hReserved) ih

theorem Canonical.exists_bytes {text : List Char} (h : Canonical text) :
    ∃ bytes, text = encodeBytes bytes := by
  induction h with
  | nil => exact ⟨[], rfl⟩
  | @unreserved c rest hc h ih =>
    obtain ⟨bytes, rfl⟩ := ih
    refine ⟨UInt8.ofNat c.toNat :: bytes, ?_⟩
    rw [encodeBytes_cons, escapeByte_of_isUnreserved hc]
    rfl
  | @escape b rest hb h ih =>
    obtain ⟨bytes, rfl⟩ := ih
    refine ⟨b :: bytes, ?_⟩
    rw [encodeBytes_cons, escapeByte, if_neg (Bool.eq_false_iff.mp hb)]
    rfl

theorem encodeBytes_asciiBytes {s : List Char} (h : ∀ c ∈ s, isUnreserved c = true) :
    encodeBytes (asciiBytes s) = s := by
  induction s with
  | nil => rfl
  | cons c s ih =>
    obtain ⟨hc, hs⟩ := List.forall_mem_cons.mp h
    rw [asciiBytes, List.map_cons, encodeBytes_cons, escapeByte_of_isUnreserved hc,
      List.singleton_append]
    exact congrArg (c :: ·) (ih hs)

theorem canonical_of_unreserved {text : List Char} (h : ∀ c ∈ text, isUnreserved c = true) :
    Canonical text := by
  induction text with
  | nil => exact .nil
  | cons c text ih =>
    obtain ⟨hc, hText⟩ := List.forall_mem_cons.mp h
    exact .unreserved hc (ih hText)

theorem canonical_of_encode {encoding : String} {s text : List Char} (h : encode encoding s = .ok text) :
    Canonical text := by
  rcases encode_eq_ok h with ⟨hAll, rfl⟩ | ⟨cs, bytes, -, -, rfl⟩
  · exact canonical_of_unreserved hAll
  · exact canonical_encodeBytes bytes

section Inverse

variable {encoding : String} {cs : Charset}

theorem encode_of_encodes (hName : Charset.ofName? encoding = some cs) (hcs : cs ∈ extendingAscii)
    {s : List Char} {bytes : List UInt8} (h : cs.encode s = .ok bytes) :
    encode encoding s = .ok (encodeBytes bytes) := by
  rw [encode]
  split
  · -- Passing unreserved text on gives what escaping its bytes would give.
    rename_i hAll
    have hUnreserved : ∀ c ∈ s, isUnreserved c = true := List.all_eq_true.mp hAll
    have hAscii : cs.encode s = .ok (asciiBytes s) :=
      (Charset.encode_eq_ok_iff_of_ascii hcs).mpr
        (Charset.encodes_asciiBytes hcs fun c hc => toNat_lt_of_isUnreserved (hUnreserved c hc))
    cases hAscii.symm.trans h
    exact congrArg Except.ok (encodeBytes_asciiBytes hUnreserved).symm
  · refine bind_eq_ok_iff.mpr ⟨cs, charset_eq_ok_iff.mpr hName, ?_⟩
    exact bind_eq_ok_iff.mpr ⟨bytes, h, rfl⟩

/-- Text that can be encoded has a canonical form that decodes to it, and canonical text that can be
decoded is the form of what it decodes to. -/
theorem encode_decode_inverse (hName : Charset.ofName? encoding = some cs)
    (hcs : cs ∈ extendingAscii) :
    (∀ s bytes, cs.encode s = .ok bytes → ∃ text, encode encoding s = .ok text ∧ Canonical text ∧
      ∀ plusAsSpace, decode encoding plusAsSpace true text = .ok s) ∧
    ∀ text s plusAsSpace, Canonical text → decode encoding plusAsSpace true text = .ok s →
      encode encoding s = .ok text := by
  constructor
  · intro s bytes hBytes
    have hEncode := encode_of_encodes hName hcs hBytes
    exact ⟨_, hEncode, canonical_encodeBytes bytes, decode_encode hName hcs hEncode⟩
  · intro text s plusAsSpace hCanonical hDecode
    obtain ⟨bytes, rfl⟩ := hCanonical.exists_bytes
    rw [decode_encodeBytes hName hcs, mapError_eq_ok_iff] at hDecode
    have hEncodes := Charset.encodes_of_decode hcs hDecode
    exact encode_of_encodes hName hcs ((Charset.encode_eq_ok_iff_of_ascii hcs).mpr hEncodes)

/-- A currency sign outside ASCII beside characters with a meaning in queries and escapes. -/
theorem encode_decode_inverse_of_currency :
    ∃ text, encode "cp1252" "€+%~".toList = .ok text ∧ Canonical text ∧
      (∀ plusAsSpace, decode "cp1252" plusAsSpace true text = .ok "€+%~".toList) ∧
      encode "cp1252" "š".toList = .ok "%9A".toList := by
  have hName : Charset.ofName? "cp1252" = some .windows1252 := by decide +kernel
  have hMem : Charset.windows1252 ∈ extendingAscii := by decide
  obtain ⟨hForm, hBack⟩ := encode_decode_inverse hName hMem
  obtain ⟨text, hEncode, hCanonical, hDecode⟩ :=
    hForm "€+%~".toList [0x80, 0x2B, 0x25, 0x7E] (by rfl)
  have hEscape : Canonical "%9A".toList := .escape (b := 0x9A) (by decide) .nil
  exact ⟨text, hEncode, hCanonical, hDecode, hBack _ "š".toList true hEscape (by rfl)⟩

end Inverse

end UriRouting.PercentEncoding
