import UriRouting.Converter.Basic

/-! # Converter registries

A registry maps types to reversible converters. The converter for a value is the one of the first type
in the resolution order of the value's type that has one. -/

set_option autoImplicit false

namespace UriRouting

abbrev Registry := OrderedMap Atom Converter

namespace Registry

inductive Candidate where
  | converter (c : Converter)
  | value (v : Value)

def Candidate.literal : Candidate → String
  | converter _ => "<OneWay>"
  | value v => v.literalText

inductive RegisterError where
  | notAType
  | notReversible (candidate : String)
deriving DecidableEq, Repr

def RegisterError.message : RegisterError → String
  | notAType => "Converters may only be registered for types."
  | notReversible candidate =>
    "Only instances of ReversibleConverter may be registered (" ++ candidate ++ " is not)."

def check (t : TypeExpr) (candidate : Candidate) : Except RegisterError (Atom × Converter) :=
  match t with
  | .atom a =>
    if Schema.isClass a then
      match candidate with
      | .converter c => if c.isReversible then pure (a, c) else throw (.notReversible candidate.literal)
      | .value _ => throw (.notReversible candidate.literal)
    else throw .notAType
  | _ => throw .notAType

def register (r : Registry) (t : TypeExpr) (candidate : Candidate) : Except RegisterError Registry := do
  let (a, c) ← check t candidate
  pure (r.put a c)

/-- Registers one after the other up to the first that is refused; those before it stay. -/
def update (r : Registry) : List (TypeExpr × Candidate) → Registry × Option RegisterError
  | [] => (r, none)
  | (t, candidate) :: rest =>
    match r.register t candidate with
    | .ok r => update r rest
    | .error e => (r, some e)

def firstOf? (r : Registry) (order : List Atom) : Option Converter := order.findSome? r.get?

def lookup? (s : Schema) (r : Registry) (t : TypeExpr) : Option Converter :=
  match t with
  | .atom a => r.firstOf? (s.resolutionOrder a)
  | _ => none

def orderOf (s : Schema) : TypeExpr → List Atom
  | .atom a => s.resolutionOrder a
  | _ => []

theorem lookup?_eq (s : Schema) (r : Registry) (t : TypeExpr) : r.lookup? s t = r.firstOf? (orderOf s t) := by
  cases t <;> rfl

inductive LookupError where
  /-- There is none for a type, nor for what it extends. -/
  | noConverter
deriving DecidableEq, Repr

def converterFor (r : Registry) (order : List Atom) : Except LookupError Converter :=
  match r.firstOf? order with
  | some c => pure c
  | none => throw .noConverter

def hasConverterFor (r : Registry) (order : List Atom) : Bool := (r.firstOf? order).isSome

def hasKey (r : Registry) (t : TypeExpr) : Bool :=
  match t with
  | .atom a => OrderedMap.contains r a
  | _ => false

def delete? (r : Registry) (t : TypeExpr) : Option Registry :=
  match t with
  | .atom a => if OrderedMap.contains r a then some (OrderedMap.erase r a) else none
  | _ => none

def builtin : Registry :=
  [(.builtin .bool, .bool), (.builtin .enumeration, .enum .absent),
   (.builtin .dateTime, .dateTime Converter.defaultFormat), (.builtin .uuid, .uuid)]

theorem firstOf?_cons (r : Registry) (a : Atom) (order : List Atom) :
    r.firstOf? (a :: order) = (r.get? a).or (r.firstOf? order) := by
  simp only [firstOf?, List.findSome?_cons]
  cases r.get? a <;> rfl

end Registry

end UriRouting
