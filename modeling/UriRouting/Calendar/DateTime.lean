import UriRouting.Calendar.Date
import UriRouting.Text.Digits

/-! # Points in time

A date with a time of day and, if it is known, the offset of its zone. Offsets are counted in
microseconds. A zone is its offset and nothing more: rules by which an offset changes, and the hour that
such a change repeats, are left out, and two points in time are the same if all their parts are. The
standard text has the date, a separator, the time, microseconds if there are any, and the offset as
hours, minutes and whatever is smaller and not zero. -/

set_option autoImplicit false

namespace UriRouting.Calendar

structure DateTime where
  year : Nat
  month : Nat
  day : Nat
  hour : Nat
  minute : Nat
  second : Nat
  microsecond : Nat
  offset? : Option Int
deriving DecidableEq, Repr

def microsecondsPerDay : Nat := 86400000000

def isOffset (offset : Int) : Bool := offset.natAbs < microsecondsPerDay

namespace DateTime

def isValid (t : DateTime) : Bool :=
  isDate t.year t.month t.day && t.hour < 24 && t.minute < 60 && t.second < 60 &&
    t.microsecond < 1000000 && t.offset?.all isOffset

def two (n : Nat) : List Char := Text.padded 10 2 n

def offsetParts (offset : Int) : Char × Nat × Nat × Nat × Nat :=
  let n := offset.natAbs
  let seconds := n / 1000000
  (if offset < 0 then '-' else '+', seconds / 3600, seconds / 60 % 60, seconds % 60, n % 1000000)

def offsetText (offset : Int) : List Char :=
  let (sign, hours, minutes, seconds, micros) := offsetParts offset
  sign :: two hours ++ ':' :: two minutes ++
    if micros ≠ 0 then ':' :: two seconds ++ '.' :: Text.padded 10 6 micros
    else if seconds ≠ 0 then ':' :: two seconds
    else []

def text (separator : Char) (t : DateTime) : List Char :=
  Text.padded 10 4 t.year ++ '-' :: two t.month ++ '-' :: two t.day ++ separator ::
    two t.hour ++ ':' :: two t.minute ++ ':' :: two t.second ++
    (if t.microsecond ≠ 0 then '.' :: Text.padded 10 6 t.microsecond else []) ++
    match t.offset? with
    | some offset => offsetText offset
    | none => []

def readFixed? (width : Nat) (s : List Char) : Option (Nat × List Char) :=
  let digits := s.take width
  if digits.length = width && digits.all Unicode.isAsciiDigit then
    some (Text.valueOf 10 digits, s.drop width)
  else none

def readMicros? (s : List Char) : Option (Nat × List Char) :=
  let digits := s.takeWhile Unicode.isAsciiDigit
  if digits.isEmpty then none
  else some (Text.valueOf 10 ((digits ++ List.replicate 6 '0').take 6), s.drop digits.length)

def readClock? (s : List Char) : Option ((Nat × Nat × Nat × Nat) × List Char) := do
  let (hour, rest) ← readFixed? 2 s
  match rest with
  | ':' :: rest =>
    let (minute, rest) ← readFixed? 2 rest
    match rest with
    | ':' :: rest =>
      let (second, rest) ← readFixed? 2 rest
      match rest with
      | '.' :: rest =>
        let (micros, rest) ← readMicros? rest
        pure ((hour, minute, second, micros), rest)
      | _ => pure ((hour, minute, second, 0), rest)
    | _ => pure ((hour, minute, 0, 0), rest)
  | _ => pure ((hour, 0, 0, 0), rest)

def readOffset? : List Char → Option (Option Int)
  | [] => some none
  | ['Z'] => some (some 0)
  | sign :: rest => do
    let ((hours, minutes, seconds, micros), rest) ← readClock? rest
    let n : Int := (((hours * 60 + minutes) * 60 + seconds) * 1000000 + micros : Nat)
    if !rest.isEmpty then none
    else if sign = '+' then pure (some n)
    else if sign = '-' then pure (some (-n))
    else none

/-- Reads the standard text, whatever its separator; the time of day may be missing. -/
def ofText? (s : List Char) : Option DateTime := do
  let (year, rest) ← readFixed? 4 s
  let '-' :: rest := rest | none
  let (month, rest) ← readFixed? 2 rest
  let '-' :: rest := rest | none
  let (day, rest) ← readFixed? 2 rest
  let t ← match rest with
    | [] => pure ⟨year, month, day, 0, 0, 0, 0, none⟩
    | _ :: rest => do
      let ((hour, minute, second, micros), rest) ← readClock? rest
      pure ⟨year, month, day, hour, minute, second, micros, ← readOffset? rest⟩
  if t.isValid then pure t else none

end DateTime

end UriRouting.Calendar
