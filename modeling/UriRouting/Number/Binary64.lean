import UriRouting.Number.Rounding
import UriRouting.Text.Digits

/-! # Binary floating-point numbers

Numbers of 53 significant bits, read from decimal text by rounding to nearest, and written with the
fewest digits that read back. All arithmetic is on integers. -/

set_option autoImplicit false

namespace UriRouting.Number

/-- A finite number is `m * 2 ^ q`, where `m < 2 ^ 53`, `-1074 ≤ q ≤ 971`, and `2 ^ 52 ≤ m` unless `q`
is least. -/
inductive Binary64 where
  | finite (negative : Bool) (m : Nat) (q : Int)
  | infinite (negative : Bool)
  | nan
deriving DecidableEq, Repr

namespace Binary64

/-- The number nearest to `num / den`. -/
def ofRatio (negative : Bool) (num den : Nat) : Binary64 :=
  let guess := max ((num.log2 : Int) - den.log2 - 53) (-1074)
  let scaled (q : Int) : Nat × Nat := (num * Nat.pow 2 (-q).toNat, den * Nat.pow 2 q.toNat)
  let tooFine := Nat.pow 2 53 ≤ (scaled guess).1 / (scaled guess).2
  let q := if tooFine then guess + 1 else guess
  let m := roundToEven (scaled q).1 (scaled q).2
  let (m, q) := if m = Nat.pow 2 53 then (Nat.pow 2 52, q + 1) else (m, q)
  if 971 < q then infinite negative else finite negative m q

def ofDecimal (negative : Bool) (digits : Nat) (e : Int) : Binary64 :=
  let leading := (Text.decimal digits).length + e
  if digits = 0 ∨ leading < -400 then finite negative 0 (-1074)
  else if 400 < leading then infinite negative
  else ofRatio negative (digits * Nat.pow 10 e.toNat) (Nat.pow 10 (-e).toNat)

/-- Whether `digits * 10 ^ e` rounds to `m * 2 ^ q`. The gap below a power of two is half as wide. -/
def readsBack (m : Nat) (q : Int) (digits : Nat) (e : Int) : Bool :=
  let low := if m = Nat.pow 2 52 ∧ -1074 < q then 4 * m - 1 else 4 * m - 2
  let high := 4 * m + 2
  let value := digits * Nat.pow 10 e.toNat * Nat.pow 2 (2 - q).toNat
  let unit := Nat.pow 10 (-e).toNat * Nat.pow 2 (q - 2).toNat
  if m % 2 = 0 then low * unit ≤ value && value ≤ high * unit
  else low * unit < value && value < high * unit

/-- Of the two neighbours of `m * 2 ^ q` among the multiples of `10 ^ e`, the one that reads back; if
both do, the nearer one, and on a tie the even one. -/
def candidate? (m : Nat) (q e : Int) : Option Nat :=
  let num := m * Nat.pow 2 q.toNat * Nat.pow 10 (-e).toNat
  let den := Nat.pow 2 (-q).toNat * Nat.pow 10 e.toNat
  let below := num / den
  let nearest := roundToEven num den
  match readsBack m q below e, readsBack m q (below + 1) e with
  | true, true => some nearest
  | true, false => some below
  | false, true => some (below + 1)
  | false, false => none

/-- The least `k` with `m * 2 ^ q < 10 ^ k`, for positive `m`. -/
def magnitude (m : Nat) (q : Int) : Int :=
  (Text.decimal (m * Nat.pow 10 350 * Nat.pow 2 q.toNat / Nat.pow 2 (-q).toNat)).length - 350

def shortest (m : Nat) (q : Int) : Nat × Int :=
  let k := magnitude m q
  let found := (List.range 17).findSome? fun (n : Nat) =>
    let e := k - (n + 1)
    (candidate? m q e).map fun digits => (digits, e)
  found.getD (m * Nat.pow 2 q.toNat * Nat.pow 5 (-q).toNat, min q 0)

def dropZeros : Nat → Nat → Int → Nat × Int
  | fuel + 1, digits, e => if digits % 10 = 0 then dropZeros fuel (digits / 10) (e + 1) else (digits, e)
  | 0, digits, e => (digits, e)

/-- Positional from `10 ^ -4` up to `10 ^ 16`, with at least one digit behind the point; otherwise one
digit before the point and a signed exponent of at least two digits. -/
def layout (digits : List Char) (point : Int) : List Char :=
  if -4 < point ∧ point ≤ 16 then
    if point ≤ 0 then ['0', '.'] ++ List.replicate (-point).toNat '0' ++ digits
    else if digits.length ≤ point.toNat then
      digits ++ List.replicate (point.toNat - digits.length) '0' ++ ['.', '0']
    else digits.take point.toNat ++ '.' :: digits.drop point.toNat
  else
    let fraction := match digits.drop 1 with
      | [] => []
      | more => '.' :: more
    digits.take 1 ++ fraction ++ ['e', if point ≤ 0 then '-' else '+'] ++
      Text.padded 10 2 (point - 1).natAbs

def text : Binary64 → List Char
  | nan => ['n', 'a', 'n']
  | infinite negative => (if negative then ['-'] else []) ++ ['i', 'n', 'f']
  | finite negative m q =>
    let sign := if negative then ['-'] else []
    if m = 0 then sign ++ ['0', '.', '0']
    else
      let (digits, e) := shortest m q
      let (digits, e) := dropZeros 400 digits e
      let digits := Text.decimal digits
      sign ++ layout digits (digits.length + e)

def isZero : Binary64 → Bool
  | finite _ 0 _ => true
  | _ => false

def readExponent? : List Char → Option Int
  | [] => some 0
  | c :: rest => if c == 'e' || c == 'E' then Text.readInteger? 10 rest else none

def readUnsigned? (negative : Bool) (s : List Char) : Option Binary64 :=
  let whole := s.takeWhile Unicode.isAsciiDigit
  let rest := s.drop whole.length
  let fraction := match rest with
    | '.' :: more => more.takeWhile Unicode.isAsciiDigit
    | _ => []
  let rest := match rest with
    | '.' :: more => more.drop fraction.length
    | _ => rest
  if whole.isEmpty && fraction.isEmpty then none
  else (readExponent? rest).map fun e =>
    ofDecimal negative (Text.valueOf 10 (whole ++ fraction)) (e - fraction.length)

def ofText? (s : List Char) : Option Binary64 :=
  let (negative, s) := match s with
    | '-' :: rest => (true, rest)
    | '+' :: rest => (false, rest)
    | _ => (false, s)
  if s == ['n', 'a', 'n'] then some nan
  else if s == ['i', 'n', 'f'] then some (infinite negative)
  else readUnsigned? negative s

end Binary64

end UriRouting.Number
