import UriRouting.Charset.Piece

/-! # UTF-8

A lead byte tells how many continuation bytes follow; the first of them may be restricted further, so
that every character has one form. A run of bad bytes ends where the bytes stop being the beginning of
a character. -/

set_option autoImplicit false

namespace UriRouting.Charset.Utf8

def tail (n : Nat) : UInt8 := UInt8.ofNat (0x80 + n % 0x40)

def encodeChar (c : Char) : List UInt8 :=
  let n := c.toNat
  if n < 0x80 then [UInt8.ofNat n]
  else if n < 0x800 then [UInt8.ofNat (0xC0 + n / 0x40), tail n]
  else if n < 0x10000 then [UInt8.ofNat (0xE0 + n / 0x1000), tail (n / 0x40), tail n]
  else [UInt8.ofNat (0xF0 + n / 0x40000), tail (n / 0x1000), tail (n / 0x40), tail n]

/-- What a lead byte says: its own bits, the number of bytes to follow, and the range of the first. -/
structure Lead where
  bits : Nat
  count : Nat
  low : Nat
  high : Nat
deriving DecidableEq, Repr

def lead? (b : Nat) : Option Lead :=
  if b < 0x80 then some ⟨b, 0, 0, 0⟩
  else if b < 0xC2 then none
  else if b < 0xE0 then some ⟨b - 0xC0, 1, 0x80, 0xBF⟩
  else if b < 0xF0 then
    some ⟨b - 0xE0, 2, if b = 0xE0 then 0xA0 else 0x80, if b = 0xED then 0x9F else 0xBF⟩
  else if b < 0xF5 then
    some ⟨b - 0xF0, 3, if b = 0xF0 then 0x90 else 0x80, if b = 0xF4 then 0x8F else 0xBF⟩
  else none

/-- Reads the bytes that are still owed; `taken` of them have been read. -/
def readTail (bits : Nat) (taken : Nat) : Nat → Nat → Nat → List UInt8 → Piece
  | 0, _, _, _ => .char (Char.ofNat bits) taken
  | _ + 1, _, _, [] => .bad .unexpectedEnd taken
  | owed + 1, low, high, b :: rest =>
    if low ≤ b.toNat ∧ b.toNat ≤ high then
      readTail (bits * 0x40 + (b.toNat - 0x80)) (taken + 1) owed 0x80 0xBF rest
    else .bad .invalidContinuation taken

def next : PieceReader := fun b rest =>
  match lead? b.toNat with
  | some lead => readTail lead.bits 0 lead.count lead.low lead.high rest
  | none => .bad .invalidStart 0

end UriRouting.Charset.Utf8
