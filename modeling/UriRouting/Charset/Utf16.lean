import UriRouting.Charset.Piece

/-! # UTF-16 and UTF-32

Units of two or four bytes. In units of two, code points above U+FFFF take a pair of surrogates. -/

set_option autoImplicit false

namespace UriRouting.Charset

inductive ByteOrder where
  | little | big
deriving DecidableEq, Repr

namespace Utf16

def unit (order : ByteOrder) (first second : UInt8) : Nat :=
  match order with
  | .little => second.toNat * 0x100 + first.toNat
  | .big => first.toNat * 0x100 + second.toNat

def unitBytes (order : ByteOrder) (n : Nat) : List UInt8 :=
  let high := UInt8.ofNat (n / 0x100)
  let low := UInt8.ofNat (n % 0x100)
  match order with
  | .little => [low, high]
  | .big => [high, low]

def isHighSurrogate (n : Nat) : Bool := 0xD800 ≤ n && n < 0xDC00

def isLowSurrogate (n : Nat) : Bool := 0xDC00 ≤ n && n < 0xE000

def encodeChar (order : ByteOrder) (c : Char) : List UInt8 :=
  let n := c.toNat
  if n < 0x10000 then unitBytes order n
  else
    unitBytes order (0xD800 + (n - 0x10000) / 0x400) ++
      unitBytes order (0xDC00 + (n - 0x10000) % 0x400)

/-- A high surrogate with nothing whole behind it spoils all that is left. -/
def next (order : ByteOrder) : PieceReader := fun b rest =>
  match rest with
  | [] => .bad .truncated 0
  | b' :: rest =>
    let n := unit order b b'
    if isHighSurrogate n then
      match rest with
      | c :: c' :: _ =>
        let m := unit order c c'
        if isLowSurrogate m then
          .char (Char.ofNat (0x10000 + (n - 0xD800) * 0x400 + (m - 0xDC00))) 3
        else .bad .illegalSurrogate 1
      | _ => .bad .unexpectedEnd (rest.length + 1)
    else if isLowSurrogate n then .bad .illegalEncoding 1
    else .char (Char.ofNat n) 1

end Utf16

namespace Utf32

def encodeChar (order : ByteOrder) (c : Char) : List UInt8 :=
  let n := c.toNat
  let bytes := [UInt8.ofNat (n / 0x1000000), UInt8.ofNat (n / 0x10000 % 0x100),
    UInt8.ofNat (n / 0x100 % 0x100), UInt8.ofNat (n % 0x100)]
  match order with
  | .little => bytes.reverse
  | .big => bytes

def codePoint (b₀ b₁ b₂ b₃ : UInt8) : Nat :=
  ((b₀.toNat * 0x100 + b₁.toNat) * 0x100 + b₂.toNat) * 0x100 + b₃.toNat

def next (order : ByteOrder) : PieceReader := fun b rest =>
  match rest with
  | b₁ :: b₂ :: b₃ :: _ =>
    let n := match order with
      | .little => codePoint b₃ b₂ b₁ b
      | .big => codePoint b b₁ b₂ b₃
    if 0xD800 ≤ n ∧ n < 0xE000 then .bad .surrogateCodePoint 3
    else if 0x110000 ≤ n then .bad .codePointTooLarge 3
    else .char (Char.ofNat n) 3
  | _ => .bad .truncated rest.length

end Utf32

end UriRouting.Charset
