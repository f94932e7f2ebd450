import UriRouting.Number.Binary64

/-! # Decimal numbers

A finite decimal keeps its coefficient and its exponent, so that `1.50` and `1.5` differ in text. -/

set_option autoImplicit false

namespace UriRouting.Number

inductive Decimal where
  | finite (negative : Bool) (coefficient : Nat) (exponent : Int)
  | infinite (negative : Bool)
  | nan
deriving DecidableEq, Repr

namespace Decimal

/-- Positional if the exponent is not positive and at most five zeros follow the point; otherwise one
digit before the point and a signed exponent. -/
def layout (digits : List Char) (exponent : Int) : List Char :=
  let point := digits.length + exponent
  if exponent ≤ 0 ∧ -6 < point then
    if point ≤ 0 then ['0', '.'] ++ List.replicate (-point).toNat '0' ++ digits
    else if digits.length ≤ point.toNat then digits
    else digits.take point.toNat ++ '.' :: digits.drop point.toNat
  else
    let fraction := match digits.drop 1 with
      | [] => []
      | more => '.' :: more
    let mark := if point = 1 then [] else
      ['E', if point ≤ 0 then '-' else '+'] ++ Text.decimal (point - 1).natAbs
    digits.take 1 ++ fraction ++ mark

def text : Decimal → List Char
  | nan => ['N', 'a', 'N']
  | infinite negative => (if negative then ['-'] else []) ++ "Infinity".toList
  | finite negative coefficient exponent =>
    (if negative then ['-'] else []) ++ layout (Text.decimal coefficient) exponent

def isZero : Decimal → Bool
  | finite _ 0 _ => true
  | _ => false

def readUnsigned? (negative : Bool) (s : List Char) : Option Decimal :=
  let whole := s.takeWhile Unicode.isAsciiDigit
  let rest := s.drop whole.length
  let fraction := match rest with
    | '.' :: more => more.takeWhile Unicode.isAsciiDigit
    | _ => []
  let rest := match rest with
    | '.' :: more => more.drop fraction.length
    | _ => rest
  if whole.isEmpty && fraction.isEmpty then none
  else (Binary64.readExponent? rest).map fun e =>
    finite negative (Text.valueOf 10 (whole ++ fraction)) (e - fraction.length)

def ofText? (s : List Char) : Option Decimal :=
  let (negative, s) := match s with
    | '-' :: rest => (true, rest)
    | '+' :: rest => (false, rest)
    | _ => (false, s)
  if s == "NaN".toList then some nan
  else if s == "Infinity".toList || s == "Inf".toList then some (infinite negative)
  else readUnsigned? negative s

end Decimal

end UriRouting.Number
