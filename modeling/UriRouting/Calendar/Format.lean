import UriRouting.Calendar.DateTime
import UriRouting.Pattern.Match
import UriRouting.Pattern.Reader
import UriRouting.Unicode.Case

/-! # Date formats

A format is text with directives, each a percent sign and a letter. To read a date the format becomes
a pattern that takes no notice of letter case, with a group for each directive and with white space
standing for any white space; the text has to end where the first match ends. -/

set_option autoImplicit false

namespace UriRouting.Calendar

inductive Directive where
  | year | yearOfCentury | month | day | hour | hourOfHalfDay | minute | second | microsecond
  | dayOfYear | halfDay | monthAbbreviation | monthName | weekdayAbbreviation | weekdayName | offset
deriving DecidableEq, Repr

namespace Directive

def ofLetter? : Char → Option Directive
  | 'Y' => some year
  | 'y' => some yearOfCentury
  | 'm' => some month
  | 'd' => some day
  | 'H' => some hour
  | 'I' => some hourOfHalfDay
  | 'M' => some minute
  | 'S' => some second
  | 'f' => some microsecond
  | 'j' => some dayOfYear
  | 'p' => some halfDay
  | 'b' => some monthAbbreviation
  | 'B' => some monthName
  | 'a' => some weekdayAbbreviation
  | 'A' => some weekdayName
  | 'z' => some offset
  | _ => none

def abbreviation (name : String) : String := String.ofList (name.toList.take 3)

def pattern : Directive → String
  | year => "\\d\\d\\d\\d"
  | yearOfCentury => "\\d\\d"
  | month => "1[0-2]|0[1-9]|[1-9]"
  | day => "3[0-1]|[1-2]\\d|0[1-9]|[1-9]| [1-9]"
  | hour => "2[0-3]|[0-1]\\d|\\d"
  | hourOfHalfDay => "1[0-2]|0[1-9]|[1-9]"
  | minute => "[0-5]\\d|\\d"
  | second => "6[0-1]|[0-5]\\d|\\d"
  | microsecond => "[0-9][0-9]?[0-9]?[0-9]?[0-9]?[0-9]?"
  | dayOfYear => "36[0-6]|3[0-5]\\d|[1-2]\\d\\d|0[1-9]\\d|00[1-9]|[1-9]\\d|0[1-9]|[1-9]"
  | halfDay => "am|pm"
  | monthAbbreviation => String.intercalate "|" (monthNames.map abbreviation)
  | monthName => String.intercalate "|" monthNames
  | weekdayAbbreviation => String.intercalate "|" (weekdayNames.map abbreviation)
  | weekdayName => String.intercalate "|" weekdayNames
  | offset =>
    "[+-]\\d\\d:?[0-5]\\d(?::?[0-5]\\d(?:\\.\\d\\d?\\d?\\d?\\d?\\d?)?)?|(?-i:Z)"

end Directive

inductive FormatItem where
  | literal (c : Char)
  | directive (d : Directive)
  /-- A percent sign before a letter that means nothing, or before the end. -/
  | stray (letter? : Option Char)
deriving DecidableEq, Repr

def formatItems : List Char → List FormatItem
  | '%' :: '%' :: rest => .literal '%' :: formatItems rest
  | '%' :: c :: rest =>
    match Directive.ofLetter? c with
    | some d => .directive d :: formatItems rest
    | none => .stray (some c) :: formatItems rest
  | ['%'] => [.stray none]
  | c :: rest => .literal c :: formatItems rest
  | [] => []

namespace Directive

def write (t : DateTime) : Directive → List Char
  | year => Text.decimal t.year
  | yearOfCentury => DateTime.two (t.year % 100)
  | month => DateTime.two t.month
  | day => DateTime.two t.day
  | hour => DateTime.two t.hour
  | hourOfHalfDay => DateTime.two ((t.hour + 11) % 12 + 1)
  | minute => DateTime.two t.minute
  | second => DateTime.two t.second
  | microsecond => Text.padded 10 6 t.microsecond
  | dayOfYear => Text.padded 10 3 (Calendar.dayOfYear t.year t.month t.day)
  | halfDay => if t.hour < 12 then ['A', 'M'] else ['P', 'M']
  | monthAbbreviation => ((monthNames[t.month - 1]?).getD "").toList.take 3
  | monthName => ((monthNames[t.month - 1]?).getD "").toList
  | weekdayAbbreviation => ((weekdayNames[weekday t.year t.month t.day]?).getD "").toList.take 3
  | weekdayName => ((weekdayNames[weekday t.year t.month t.day]?).getD "").toList
  | offset =>
    match t.offset? with
    | none => []
    | some zone =>
      let (sign, hours, minutes, seconds, micros) := DateTime.offsetParts zone
      sign :: DateTime.two hours ++ DateTime.two minutes ++
        if micros ≠ 0 then DateTime.two seconds ++ '.' :: Text.padded 10 6 micros
        else if seconds ≠ 0 then DateTime.two seconds
        else []

end Directive

/-- Writes a date; a stray percent sign stands for itself. -/
def DateTime.format (t : DateTime) (format : List Char) : List Char :=
  (formatItems format).flatMap fun
    | .literal c => [c]
    | .directive d => d.write t
    | .stray letter? => '%' :: letter?.toList

/-- The pattern of a format: white space takes any white space. -/
def formatPattern (afterBlank : Bool) : List FormatItem → List Char
  | [] => []
  | .literal c :: rest =>
    if Unicode.isBlank c then
      (if afterBlank then [] else "\\s+".toList) ++ formatPattern true rest
    else Pattern.literally [c] ++ formatPattern false rest
  | .directive d :: rest => '(' :: d.pattern.toList ++ ')' :: formatPattern false rest
  | .stray _ :: rest => formatPattern false rest

structure Reading where
  year? : Option Nat := none
  month : Nat := 1
  day : Nat := 1
  hour : Nat := 0
  minute : Nat := 0
  second : Nat := 0
  microsecond : Nat := 0
  dayOfYear? : Option Nat := none
  offset? : Option Int := none

namespace Reading

def placeOf? (names : List String) (name : List Char) : Option Nat :=
  let lower (s : List Char) := s.map Unicode.toLower
  names.findIdx? fun known => lower known.toList == lower name

def hourOfDay (hour : Nat) (afternoon : Bool) : Nat := hour % 12 + if afternoon then 12 else 0

/-- An offset with or without colons; they stand everywhere or nowhere. -/
def offsetOf? (s : List Char) : Option Int := do
  if s = ['Z'] then pure 0
  else
    let compact ←
      match s with
      | sign :: a :: b :: ':' :: c :: d :: rest =>
        match rest with
        | [] => pure [sign, a, b, c, d]
        | ':' :: more => pure ([sign, a, b, c, d] ++ more)
        | _ => none
      | _ => pure s
    let number? (s : List Char) : Option Nat := (Text.readInteger? 10 s).map Int.toNat
    let hours ← number? ((compact.drop 1).take 2)
    let minutes ← number? ((compact.drop 3).take 2)
    let seconds ← if compact.length ≤ 5 then pure 0 else number? ((compact.drop 5).take 2)
    let fraction := compact.drop 8
    let micros ← number? (fraction ++ List.replicate (6 - fraction.length) '0')
    let n : Int := (((hours * 60 + minutes) * 60 + seconds) * 1000000 + micros : Nat)
    pure (if s.head? = some '-' then -n else n)

/-- Takes in the text of one directive. `halfDay?` is the text of the half day, if the format has one. -/
def add? (halfDay? : Option (List Char)) (r : Reading) (d : Directive) (text : List Char) :
    Option Reading := do
  let number? : Option Nat := (Text.readInteger? 10 text).map Int.toNat
  match d with
  | .year => pure { r with year? := ← number? }
  | .yearOfCentury =>
    let n ← number?
    pure { r with year? := some (if n ≤ 68 then 2000 + n else 1900 + n) }
  | .month => pure { r with month := ← number? }
  | .day => pure { r with day := ← number? }
  | .hour => pure { r with hour := ← number? }
  | .hourOfHalfDay =>
    let afternoon := halfDay?.any fun s => placeOf? ["pm"] s == some 0
    pure { r with hour := hourOfDay (← number?) afternoon }
  | .minute => pure { r with minute := ← number? }
  | .second => pure { r with second := ← number? }
  | .microsecond =>
    let n ← Text.readInteger? 10 (text ++ List.replicate (6 - text.length) '0')
    pure { r with microsecond := n.toNat }
  | .dayOfYear => pure { r with dayOfYear? := ← number? }
  | .halfDay => pure r
  | .monthAbbreviation =>
    pure { r with month := (← placeOf? (monthNames.map Directive.abbreviation) text) + 1 }
  | .monthName => pure { r with month := (← placeOf? monthNames text) + 1 }
  | .weekdayAbbreviation =>
    let _ ← placeOf? (weekdayNames.map Directive.abbreviation) text
    pure r
  | .weekdayName =>
    let _ ← placeOf? weekdayNames text
    pure r
  | .offset => pure { r with offset? := ← offsetOf? text }

/-- The date read, if there is such a date. A day of the year goes before month and day. The year is
1900 unless given, but a leap day without a year counts the days of a leap year. -/
def dateTime? (r : Reading) : Option DateTime :=
  let counted := r.year?.getD (if r.month = 2 ∧ r.day = 29 then 1904 else 1900)
  let (year, month, day) := match r.dayOfYear? with
    | some n => ofDayOfYear counted n
    | none => (counted, r.month, r.day)
  let year := if counted = 0 then 0 else if r.year?.isNone && counted = 1904 then 1900 else year
  let t : DateTime := ⟨year, month, day, r.hour, r.minute, r.second, r.microsecond, r.offset?⟩
  if t.isValid then some t else none

end Reading

/-- A format in which a directive stands twice cannot be read by. -/
inductive FormatError where
  | repeatedDirective
deriving DecidableEq, Repr

def DateTime.ofFormat? (format text : List Char) : Except FormatError (Option DateTime) :=
  let items := formatItems format
  let directives := items.filterMap fun
    | .directive d => some d
    | _ => none
  let hasStray := items.any fun
    | .stray _ => true
    | _ => false
  if hasStray then pure none
  else if directives.eraseDups.length ≠ directives.length then throw .repeatedDirective
  else
    match Pattern.compile (formatPattern false items) with
    | .error _ => pure none
    | .ok p =>
      pure do
        let marks ← { p with mode := { ignoreCase := true } : Pattern.Compiled }.firstMatch? text
        let texts ← (List.range directives.length).mapM fun i => marks.captured? text (i + 1)
        let fields := directives.zip texts
        let r ← fields.foldlM (fun r (d, s) => Reading.add? (fields.lookup .halfDay) r d s) {}
        r.dateTime?

end UriRouting.Calendar
