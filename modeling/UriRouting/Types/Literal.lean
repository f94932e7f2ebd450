import UriRouting.Types.Basic

/-! # Types in messages

A type that stands alone is shown with what it is; inside a union it is shown by its name. -/

set_option autoImplicit false

namespace UriRouting

namespace Builtin

def qualifiedName : Builtin → String
  | int => "int"
  | str => "str"
  | float => "float"
  | bool => "bool"
  | decimal => "decimal.Decimal"
  | dateTime => "datetime.datetime"
  | uuid => "uuid.UUID"
  | bytes => "bytes"
  | list => "list"
  | dict => "dict"
  | object => "object"
  | noneType => "NoneType"
  | enumeration => "enum.Enum"
  | numberEnumeration => "enum.IntEnum"

end Builtin

namespace Atom

def memberName : Atom → String
  | builtin b => b.qualifiedName
  | character => "kestrel.routing.inference.Char"
  | intList false => "list[int]"
  | intList true => "typing.List[int]"
  | declared name => "app." ++ name
  | text s => "ForwardRef(" ++ Text.quoted s ++ ")"

def literal (s : Schema) : Atom → String
  | builtin .enumeration => "<enum 'Enum'>"
  | builtin .numberEnumeration => "<enum 'IntEnum'>"
  | builtin b => "<class '" ++ b.qualifiedName ++ "'>"
  | declared name =>
    if (s.enum? name).isSome then "<enum '" ++ name ++ "'>" else "<class 'app." ++ name ++ "'>"
  | text t => Text.quoted t
  | a => a.memberName

end Atom

namespace TypeExpr

def unionLiteral (members : List Atom) : String :=
  let nothing := Atom.builtin .noneType
  match members with
  | [a, b] =>
    if a = nothing then "typing.Optional[" ++ b.memberName ++ "]"
    else if b = nothing then "typing.Optional[" ++ a.memberName ++ "]"
    else "typing.Union[" ++ a.memberName ++ ", " ++ b.memberName ++ "]"
  | _ => "typing.Union[" ++ ", ".intercalate (members.map Atom.memberName) ++ "]"

def literal (s : Schema) : TypeExpr → String
  | absent => "None"
  | atom a => a.literal s
  | union .named members => unionLiteral members
  | union .bars members =>
    " | ".intercalate (members.map fun a =>
      if a = .builtin .noneType then "None" else a.memberName)

end TypeExpr

end UriRouting
