import UriRouting.Value.Basic

/-! # Types

The types that parameters and attributes are declared with. A union has at least two members, none of
them twice and none of them a union; `unionOf` is the way to build one. -/

set_option autoImplicit false

namespace UriRouting

inductive Builtin where
  | int | str | float | bool | decimal | dateTime | uuid | bytes | list | dict | object
  | noneType
  /-- The bases of all enumerations and of those whose members are numbers. -/
  | enumeration | numberEnumeration
deriving DecidableEq, Repr

inductive Atom where
  | builtin (b : Builtin)
  /-- Text of exactly one character. -/
  | character
  /-- Lists of integers; `named` tells the two spellings apart. -/
  | intList (named : Bool)
  /-- An enumeration or a class of the schema. -/
  | declared (name : String)
  /-- Text where a type should stand. -/
  | text (s : String)
deriving DecidableEq, Repr

inductive UnionStyle where
  | named | bars
deriving DecidableEq, Repr

inductive TypeExpr where
  /-- No type at all. -/
  | absent
  | atom (a : Atom)
  | union (style : UnionStyle) (members : List Atom)
deriving DecidableEq, Repr

namespace TypeExpr

def ofBuiltin (b : Builtin) : TypeExpr := atom (.builtin b)

/-- What a type contributes to a union. No type stands for the type of nothing. -/
def members : TypeExpr → List Atom
  | absent => [.builtin .noneType]
  | atom a => [a]
  | union _ members => members

def barStyle : TypeExpr → UnionStyle
  | atom .character | atom (.intList true) | union .named _ => .named
  | _ => .bars

/-- Members of members are members, and a union of one type is that type. -/
def unionOf (style : UnionStyle) (types : List TypeExpr) : TypeExpr :=
  match (types.flatMap members).eraseDups with
  | [] => absent
  | [a] => atom a
  | as =>
    match style with
    | .named => union .named as
    | .bars => union (if types.any (·.barStyle = .named) then .named else .bars) as

def optional (t : TypeExpr) : TypeExpr := unionOf .named [t, ofBuiltin .noneType]

/-- The other member of a union of two of which one is the type of nothing; else the type itself. -/
def required (t : TypeExpr) : TypeExpr :=
  match t with
  | union _ members =>
    match members.filter (· ≠ .builtin .noneType) with
    | [a] => atom a
    | _ => t
  | _ => t

end TypeExpr

def Value.typeOf : Value → Atom
  | .null => .builtin .noneType
  | .bool _ => .builtin .bool
  | .int _ => .builtin .int
  | .float _ => .builtin .float
  | .decimal _ => .builtin .decimal
  | .str _ => .builtin .str
  | .uuid _ => .builtin .uuid
  | .dateTime _ => .builtin .dateTime
  | .bytes _ => .builtin .bytes
  | .list _ => .builtin .list
  | .map _ => .builtin .dict
  | .member enum _ _ => .declared enum.name
  | .object className _ _ => .declared className

structure EnumDef where
  name : String
  base : EnumBase
  declared : List (String × Value)

namespace EnumDef

/-- The members: of several names for one value the first. -/
def membersFrom (seen : List (String × Value)) : List (String × Value) → List (String × Value)
  | [] => []
  | (name, value) :: rest =>
    if seen.any fun entry => entry.2.same value then membersFrom seen rest
    else (name, value) :: membersFrom ((name, value) :: seen) rest

def members (e : EnumDef) : List (String × Value) := membersFrom [] e.declared

def ref (e : EnumDef) : EnumRef := ⟨e.name, e.base⟩

def member? (e : EnumDef) (name : String) : Option Value := do
  let value ← e.declared.lookup name
  let (canonical, value) ← e.members.find? fun entry => entry.2.same value
  pure (.member e.ref canonical value)

end EnumDef

structure ClassDef where
  name : String
  base? : Option Atom
  fields : List (String × TypeExpr)
deriving Repr

structure Schema where
  enums : List EnumDef := []
  classes : List ClassDef := []

namespace Schema

def enum? (s : Schema) (name : String) : Option EnumDef := s.enums.find? (·.name = name)

def class? (s : Schema) (name : String) : Option ClassDef := s.classes.find? (·.name = name)

def builtinOrder : Builtin → List Builtin
  | .bool => [.bool, .int, .object]
  | .object => [.object]
  | .numberEnumeration => [.numberEnumeration, .int, .enumeration, .object]
  | b => [b, .object]

def enumOrder : EnumBase → List Builtin
  | .plain => [.enumeration, .object]
  | .int => [.int, .enumeration, .object]
  | .str => [.str, .enumeration, .object]
  | .number => [.numberEnumeration, .int, .enumeration, .object]

/-- A class and what it extends. The fuel is more than the number of classes in the chain. -/
def classChain (s : Schema) : Nat → Atom → List Atom
  | 0, a => [a]
  | fuel + 1, a =>
    match a with
    | .declared name =>
      match s.class? name with
      | some c =>
        match c.base? with
        | some base => a :: classChain s fuel base
        | none => [a, .builtin .object]
      | none => [a, .builtin .object]
    | .builtin b => (builtinOrder b).map .builtin
    | _ => [a]

def resolutionOrder (s : Schema) (a : Atom) : List Atom :=
  match a with
  | .builtin b => (builtinOrder b).map .builtin
  | .declared name =>
    match s.enum? name with
    | some e => a :: (enumOrder e.base).map .builtin
    | none => s.classChain (s.classes.length + 1) a
  | .intList false => [.builtin .list, .builtin .object]
  | .intList true | .character | .text _ => [a]

def isClass : Atom → Bool
  | .builtin _ | .declared _ => true
  | .character | .intList _ | .text _ => false

end Schema

end UriRouting
