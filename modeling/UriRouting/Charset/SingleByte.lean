import UriRouting.Charset.Piece

/-! # Charsets of one byte a character

Latin-1 is the first 256 code points and ASCII the first 128. Windows-1252 puts other characters in
place of most control characters above ASCII, and leaves five bytes undefined. -/

set_option autoImplicit false

namespace UriRouting.Charset.SingleByte

/-- The characters of bytes 0x80 to 0x9F in Windows-1252. -/
def windowsBlock : List (Option Char) :=
  [some '\u20AC', none, some '\u201A', some '\u0192', some '\u201E', some '\u2026', some '\u2020',
   some '\u2021', some '\u02C6', some '\u2030', some '\u0160', some '\u2039', some '\u0152', none,
   some '\u017D', none, none, some '\u2018', some '\u2019', some '\u201C', some '\u201D',
   some '\u2022', some '\u2013', some '\u2014', some '\u02DC', some '\u2122', some '\u0161',
   some '\u203A', some '\u0153', none, some '\u017E', some '\u0178']

def windowsChar? (b : UInt8) : Option Char :=
  if b < 0x80 || 0xA0 ≤ b then some (Char.ofNat b.toNat)
  else (windowsBlock[b.toNat - 0x80]?).join

def windowsByte? (c : Char) : Option UInt8 :=
  if c.toNat < 0x80 || (0xA0 ≤ c.toNat && c.toNat < 0x100) then some (UInt8.ofNat c.toNat)
  else (windowsBlock.findIdx? (· = some c)).map fun i => UInt8.ofNat (0x80 + i)

def byteBelow? (limit : Nat) (c : Char) : Option UInt8 :=
  if c.toNat < limit then some (UInt8.ofNat c.toNat) else none

def nextBelow (limit : Nat) : PieceReader := fun b _ =>
  if b.toNat < limit then .char (Char.ofNat b.toNat) 0 else .bad (.outOfRange limit) 0

def nextWindows : PieceReader := fun b _ =>
  match windowsChar? b with
  | some c => .char c 0
  | none => .bad .undefined 0

end UriRouting.Charset.SingleByte
