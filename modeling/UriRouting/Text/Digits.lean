import UriRouting.Unicode.Blank
import UriRouting.Unicode.DecimalDigit

/-! # Digits and integers in text

Writing: digits in a base, padded with zeros. Reading: white space at both ends, a sign, the prefix
`0x` in base sixteen, digits of any script, and single low lines between digits. -/

set_option autoImplicit false

namespace UriRouting.Text

/-- `n` in the given base, lower case, with zeros in front up to `width` digits. -/
def padded (base width n : Nat) : List Char :=
  let digits := Nat.toDigits base n
  List.replicate (width - digits.length) '0' ++ digits

def decimal (n : Nat) : List Char := Nat.toDigits 10 n

def decimalInt : Int → List Char
  | .ofNat n => decimal n
  | .negSucc n => '-' :: decimal (n + 1)

def isHexDigit (c : Char) : Bool :=
  ('0' ≤ c && c ≤ '9') || ('a' ≤ c && c ≤ 'f') || ('A' ≤ c && c ≤ 'F')

def isOctalDigit (c : Char) : Bool := '0' ≤ c && c ≤ '7'

def digitValue? (c : Char) : Option Nat :=
  if '0' ≤ c && c ≤ '9' then some (c.toNat - 48)
  else if 'a' ≤ c && c ≤ 'z' then some (c.toNat - 87)
  else if 'A' ≤ c && c ≤ 'Z' then some (c.toNat - 55)
  else none

/-- The value of a run of ASCII digits and letters; other characters count as zero. -/
def valueOf (base : Nat) (s : List Char) : Nat :=
  s.foldl (fun n c => n * base + (digitValue? c).getD 0) 0

def scriptDigit? (base : Nat) (c : Char) : Option Nat :=
  ((Unicode.decimalDigitValue? c).or (digitValue? c)).filter (· < base)

def readDigits? (base : Nat) (value : Nat) : List Char → Option Nat
  | [] => some value
  | '_' :: c :: rest =>
    match scriptDigit? base c with
    | some d => readDigits? base (value * base + d) rest
    | none => none
  | c :: rest =>
    match scriptDigit? base c with
    | some d => readDigits? base (value * base + d) rest
    | none => none

def readNatural? (base : Nat) : List Char → Option Nat
  | [] => none
  | c :: rest =>
    match scriptDigit? base c with
    | some d => readDigits? base d rest
    | none => none

/-- In base sixteen the digits may stand behind `0x`, with one low line in between. -/
def dropHexPrefix : List Char → List Char
  | '0' :: x :: rest =>
    if x == 'x' || x == 'X' then
      match rest with
      | '_' :: digits => digits
      | _ => rest
    else '0' :: x :: rest
  | s => s

def readInteger? (base : Nat) (s : List Char) : Option Int :=
  let magnitude? (s : List Char) := readNatural? base (if base == 16 then dropHexPrefix s else s)
  match Unicode.trim s with
  | '+' :: rest => (magnitude? rest).map Int.ofNat
  | '-' :: rest => (magnitude? rest).map fun n => -Int.ofNat n
  | rest => (magnitude? rest).map Int.ofNat

end UriRouting.Text
