import UriRouting.Pattern.Escape
import UriRouting.Text.Split
import UriRouting.Types.Basic

/-! # Patterns inferred from types

A type belongs to one of a few kinds, and the kind gives the pattern of the fields that take values of
that type. -/

set_option autoImplicit false

namespace UriRouting

inductive FieldKind where
  | integer | character | decimal | boolean
  | enumerated (members : List String)
  | other
deriving DecidableEq, Repr

namespace FieldKind

def never : String := "(?!)"

def pattern : FieldKind → String
  | integer => "-?\\d+"
  | character => "."
  | decimal => "-?\\d*\\.?\\d+"
  | boolean => "true|false"
  | enumerated [] => never
  | enumerated members =>
    String.ofList (Text.joinWith ['|'] (members.map fun name => Pattern.literally name.toList))
  | other => "[^/]+"

end FieldKind

namespace Schema

/-- The kind of a type. Only the very types named count, not what extends them; enumerations are the
exception. -/
def kindOf (s : Schema) (t : TypeExpr) : FieldKind :=
  match t.required with
  | .atom a =>
    match a with
    | .builtin .int => .integer
    | .character => .character
    | .builtin .float | .builtin .decimal => .decimal
    | .builtin .bool => .boolean
    | .builtin .enumeration | .builtin .numberEnumeration => .enumerated []
    | .declared name =>
      match s.enum? name with
      | some e => .enumerated (e.members.map Prod.fst)
      | none => .other
    | _ => .other
  | _ => .other

def inferredPattern (s : Schema) (t : TypeExpr) : String := (s.kindOf t).pattern

end Schema

end UriRouting
