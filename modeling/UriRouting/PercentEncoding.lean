import UriRouting.Charset.Codec
import UriRouting.Text.Split

/-! # Percent-encoding

Unreserved characters stand for themselves; every other byte is written as a percent sign and two
hexadecimal digits. Text that holds nothing to encode or to decode is passed on before the charset is
even looked up. -/

set_option autoImplicit false

namespace UriRouting.PercentEncoding

def isUnreserved (c : Char) : Bool :=
  ('A' ≤ c && c ≤ 'Z') || ('a' ≤ c && c ≤ 'z') || ('0' ≤ c && c ≤ '9') ||
    c == '-' || c == '.' || c == '_' || c == '~'

def hexDigit (n : Nat) : Char := Char.ofNat (if n < 10 then 48 + n else 55 + n)

def escapeByte (b : UInt8) : List Char :=
  let c := Char.ofNat b.toNat
  if isUnreserved c then [c] else ['%', hexDigit (b.toNat / 16), hexDigit (b.toNat % 16)]

def charset (encoding : String) : Except Charset.Error Charset :=
  match Charset.ofName? encoding with
  | some cs => pure cs
  | none => throw (.ofName encoding)

def encodeBytes (bytes : List UInt8) : List Char := bytes.flatMap escapeByte

def encode (encoding : String) (s : List Char) : Except Charset.Error (List Char) :=
  if s.all isUnreserved then pure s
  else do
    let cs ← charset encoding
    let bytes ← cs.encode s
    pure (encodeBytes bytes)

theorem encode_of_unreserved {encoding : String} {s : List Char} (h : ∀ c ∈ s, isUnreserved c) :
    encode encoding s = .ok s := by
  have : s.all isUnreserved = true := by simpa using h
  simp [encode, this, pure, Except.pure]

inductive DecodeError where
  | charset (e : Charset.Error)
  /-- What stands behind a percent sign, two bytes at most, is no pair of digits. -/
  | malformed (found : String)
deriving DecidableEq, Repr

def DecodeError.message : DecodeError → String
  | charset e => e.message
  | malformed found => "Malformed percent-encoded sequence: %" ++ found

def percent : UInt8 := 0x25

def hexValue? (b : UInt8) : Option Nat :=
  if 48 ≤ b.toNat ∧ b.toNat ≤ 57 then some (b.toNat - 48)
  else if 65 ≤ b.toNat ∧ b.toNat ≤ 70 then some (b.toNat - 55)
  else if 97 ≤ b.toNat ∧ b.toNat ≤ 102 then some (b.toNat - 87)
  else none

/-- The bytes that stand behind a percent sign, with their first two digits taken as one byte. -/
def unescape? : List UInt8 → Option (List UInt8)
  | a :: b :: rest => do
    let high ← hexValue? a
    let low ← hexValue? b
    pure (UInt8.ofNat (high * 16 + low) :: rest)
  | _ => none

def unescapeAll (cs : Charset) (strict : Bool) : List (List UInt8) → Except DecodeError (List UInt8)
  | [] => pure []
  | token :: rest =>
    match unescape? token with
    | some bytes => do
      let more ← unescapeAll cs strict rest
      pure (bytes ++ more)
    | none =>
      if strict then throw (.malformed (String.ofList (cs.decodeLenient (token.take 2))))
      else do
        let more ← unescapeAll cs strict rest
        pure (percent :: token ++ more)

def plusToSpace (s : List Char) : List Char := s.map fun c => if c = '+' then ' ' else c

def decodeEscapes (encoding : String) (strict : Bool) (s : List Char) : Except DecodeError (List Char) := do
  let cs ← (charset encoding).mapError .charset
  let bytes ← (cs.encode s).mapError .charset
  let (first, tokens) := Text.splitOn percent bytes
  let bytes ← unescapeAll cs strict tokens
  if strict then (cs.decode (first ++ bytes)).mapError .charset
  else pure (cs.decodeLenient (first ++ bytes))

def decode (encoding : String) (plusAsSpace strict : Bool) (s : List Char) :
    Except DecodeError (List Char) :=
  let s := if plusAsSpace then plusToSpace s else s
  if s.contains '%' then decodeEscapes encoding strict s else pure s

end UriRouting.PercentEncoding
