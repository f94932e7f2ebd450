import UriRouting.Types.Basic

/-! # Property paths

A path of names separated by points leads from a value to one of its parts. What is found by keys are
the parts of maps, and of objects whose class extends them; other values have attributes. Nothing has
only nothing for parts, and so has a missing key; a missing attribute is an error. -/

set_option autoImplicit false

namespace UriRouting

namespace Value

inductive Fault where
  | noAttribute
  | wrongType
deriving DecidableEq, Repr

def realPart? : Value → Option Int
  | int n => some n
  | bool b => some (if b then 1 else 0)
  | member ⟨_, .int⟩ _ (int n) => some n
  | member ⟨_, .number⟩ _ (int n) => some n
  | object _ _ (int n) => some n
  | _ => none

def dateTimeAttribute? (t : Calendar.DateTime) : String → Option Nat
  | "year" => some t.year
  | "month" => some t.month
  | "day" => some t.day
  | "hour" => some t.hour
  | "minute" => some t.minute
  | "second" => some t.second
  | "microsecond" => some t.microsecond
  | _ => none

/-- Attributes that hold values. The others that a value may have, such as methods, are taken for
missing. -/
def attribute? (v : Value) (name : String) : Option Value :=
  match v with
  | object _ fields _ => (fields.lookup name).or (if name = "real" then v.realPart?.map int else none)
  | dateTime t => (dateTimeAttribute? t name).map fun n => int n
  | uuid u => if name = "hex" then some (str (String.ofList u.hex)) else none
  | member _ memberName value =>
    if name = "name" then some (str memberName)
    else if name = "value" then some value
    else if name = "real" then v.realPart?.map int
    else none
  | _ => if name = "real" then v.realPart?.map int else none

/-- What the keys of a map lead to, and those of an object whose class extends maps. -/
def entries? (s : Schema) : Value → Option (List (String × Value))
  | map entries => some entries
  | object className _ base =>
    if .builtin .dict ∈ s.resolutionOrder (.declared className) then
      match base with
      | map entries => some entries
      | _ => some []
    else none
  | _ => none

/-- The part of a value that a name leads to. Keys are asked for by a method, so that an attribute that
has taken the name of the method spoils them all. -/
def part (s : Schema) (v : Value) (name : String) : Except Fault Value :=
  match v with
  | null => pure null
  | _ =>
    match v.entries? s with
    | some entries =>
      if (v.attribute? "get").isSome then throw .wrongType else pure ((entries.lookup name).getD null)
    | none =>
      match v.attribute? name with
      | some found => pure found
      | none => throw .noAttribute

def follow (s : Schema) : List String → Value → Except Fault Value
  | [], v => pure v
  | name :: names, v => do
    let next ← v.part s name
    follow s names next

def atPath (s : Schema) (v : Value) (path : List Char) : Except Fault Value :=
  if path.isEmpty then pure v
  else follow s ((Text.parts '.' path).map String.ofList) v

theorem follow_null (s : Schema) (names : List String) : follow s names null = .ok null := by
  induction names with
  | nil => rfl
  | cons name names ih => exact ih

end Value

end UriRouting
