import UriRouting.Calendar.DateTime
import UriRouting.Number.Binary64
import UriRouting.Number.Decimal
import UriRouting.OrderedMap
import UriRouting.Text.Quoted
import UriRouting.Text.Split
import UriRouting.Uuid

/-! # Values

The values that handlers are called with and that paths are generated from. A value has a text, which
goes into paths, and a literal, which goes into messages. -/

set_option autoImplicit false

namespace UriRouting

/-- What the members of an enumeration are besides: numbers or texts they stand for. -/
inductive EnumBase where
  | plain | int | str
  /-- Numbers that also show as numbers. -/
  | number
deriving DecidableEq, Repr

structure EnumRef where
  name : String
  base : EnumBase
deriving DecidableEq, Repr

inductive Value where
  | null
  | bool (b : Bool)
  | int (n : Int)
  | float (x : Number.Binary64)
  | decimal (d : Number.Decimal)
  | str (s : String)
  | uuid (u : Uuid)
  | dateTime (t : Calendar.DateTime)
  | bytes (bytes : List UInt8)
  | list (items : List Value)
  | map (entries : List (String × Value))
  | member (enum : EnumRef) (name : String) (value : Value)
  /-- `base` is what the object is as a value of the type that its class extends: nothing if that is none. -/
  | object (className : String) (fields : List (String × Value)) (base : Value)

namespace Value

def bracketed (left right : Char) (items : List (List Char)) : List Char :=
  left :: Text.joinWith [',', ' '] items ++ [right]

def durationLiteral (micros : Int) : List Char :=
  let days := micros / 86400000000
  let rest := micros % 86400000000
  let part (label : String) (n : Int) : List (List Char) :=
    if n = 0 then [] else [label.toList ++ '=' :: Text.decimalInt n]
  let parts := part "days" days ++ part "seconds" (rest / 1000000) ++
    part "microseconds" (rest % 1000000)
  "datetime.timedelta".toList ++
    bracketed '(' ')' (if parts.isEmpty then [['0']] else parts)

def dateTimeLiteral (t : Calendar.DateTime) : List Char :=
  let fields := [t.year, t.month, t.day, t.hour, t.minute] ++
    if t.microsecond ≠ 0 then [t.second, t.microsecond]
    else if t.second ≠ 0 then [t.second]
    else []
  let zone := match t.offset? with
    | none => []
    | some offset =>
      ["tzinfo=".toList ++ "datetime.timezone".toList ++
        if offset = 0 then ".utc".toList else bracketed '(' ')' [durationLiteral offset]]
  "datetime.datetime".toList ++ bracketed '(' ')' (fields.map Text.decimal ++ zone)

mutual

def literal : Value → List Char
  | null => "None".toList
  | bool true => "True".toList
  | bool false => "False".toList
  | int n => Text.decimalInt n
  | float x => x.text
  | decimal d => "Decimal('".toList ++ d.text ++ "')".toList
  | str s => Text.quoteChars s.toList
  | uuid u => "UUID('".toList ++ u.text ++ "')".toList
  | dateTime t => dateTimeLiteral t
  | bytes bs => Text.quoteBytes bs
  | list items => bracketed '[' ']' (itemLiterals items)
  | map entries => bracketed '{' '}' (entryLiterals entries)
  | member enum name value =>
    '<' :: enum.name.toList ++ '.' :: name.toList ++ ':' :: ' ' :: literal value ++ ['>']
  | object className _ _ => '<' :: className.toList ++ ['>']

def itemLiterals : List Value → List (List Char)
  | [] => []
  | item :: rest => literal item :: itemLiterals rest

def entryLiterals : List (String × Value) → List (List Char)
  | [] => []
  | (key, value) :: rest =>
    (Text.quoteChars key.toList ++ ':' :: ' ' :: literal value) :: entryLiterals rest

end

def text : Value → List Char
  | str s => s.toList
  | decimal d => d.text
  | uuid u => u.text
  | dateTime t => t.text ' '
  | member enum name value =>
    match enum.base with
    | .number => literal value
    | _ => enum.name.toList ++ '.' :: name.toList
  | v => literal v

def literalText (v : Value) : String := String.ofList v.literal

/-- The text that a value is: its own, or the one that a member or an object is besides. -/
def asText? : Value → Option String
  | str s => some s
  | member ⟨_, .str⟩ _ (str s) => some s
  | object _ _ (str s) => some s
  | _ => none

def isTrue : Value → Bool
  | null => false
  | bool b => b
  | int n => n ≠ 0
  | float x => !x.isZero
  | decimal d => !d.isZero
  | str s => !s.isEmpty
  | bytes bs => !bs.isEmpty
  | list items => !items.isEmpty
  | map entries => !entries.isEmpty
  | member enum _ value =>
    match enum.base with
    | .plain => true
    | _ => value.isTrue
  | object _ _ base =>
    match base with
    | null => true
    | _ => base.isTrue
  | uuid _ | dateTime _ => true

def asInteger? : Value → Option Int
  | int n => some n
  | bool b => some (if b then 1 else 0)
  | _ => none

def same (a b : Value) : Bool :=
  match a.asInteger?, b.asInteger? with
  | some m, some n => m = n
  | none, none => a.literal = b.literal
  | _, _ => false

end Value

end UriRouting
