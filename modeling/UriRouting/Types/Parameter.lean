import UriRouting.Text.Split
import UriRouting.Types.Annotation

/-! # Parameters

What a handler declares, and the types that dotted names lead to: the first component names a
parameter, each further one an attribute of the type before it. -/

set_option autoImplicit false

namespace UriRouting

structure Parameter where
  name : String
  type : TypeExpr := .absent
deriving DecidableEq, Repr

namespace Schema

/-- The annotations of a class behind those of what it extends. -/
def annotations (s : Schema) (a : Atom) : List (String × TypeExpr) :=
  (s.resolutionOrder a).reverse.flatMap fun
    | .declared name => ((s.class? name).map (·.fields)).getD []
    | _ => []

def attributeTypes (s : Schema) (a : Atom) : Except Annotation.Error (OrderedMap String TypeExpr) :=
  Annotation.resolveAll s (s.annotations a)

/-- The type of an attribute. What is no class, or a union of more than a class and nothing, has none. -/
def attributeType (s : Schema) (t : TypeExpr) (name : String) :
    Except Annotation.Error TypeExpr :=
  match t.required with
  | .atom a =>
    if Schema.isClass a then do
      let types ← s.attributeTypes a
      pure ((types.get? name).getD .absent)
    else pure .absent
  | _ => pure .absent

def attributePathType (s : Schema) (t : TypeExpr) : List String → Except Annotation.Error TypeExpr
  | [] => pure t
  | name :: names => do
    match ← s.attributeType t name with
    | .absent => pure .absent
    | next => attributePathType s next names

def typeAt (s : Schema) (params : List Parameter) (name : String) :
    Except Annotation.Error TypeExpr :=
  let (head, rest?) := Text.partition '.' name.toList
  match params.find? (·.name = String.ofList head) with
  | none => pure .absent
  | some p =>
    match rest? with
    | none | some [] => pure p.type
    | some rest => s.attributePathType p.type ((Text.parts '.' rest).map String.ofList)

end Schema

end UriRouting
