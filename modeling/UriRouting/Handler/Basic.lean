import UriRouting.Types.Parameter
import UriRouting.Types.Literal

/-! # Handlers

What a route is bound to. Handlers come in several forms, which differ in what can be learned about
their arguments. They are told apart by their names. -/

set_option autoImplicit false

namespace UriRouting

inductive ArgumentKind where
  | positional | positionalOnly | keywordOnly
  /-- Whatever is given beyond the other arguments. -/
  | restPositional | restKeyword
deriving DecidableEq, Repr

namespace ArgumentKind

def isRest : ArgumentKind → Bool
  | restPositional | restKeyword => true
  | _ => false

def isPositional : ArgumentKind → Bool
  | positional | positionalOnly => true
  | _ => false

end ArgumentKind

structure Argument where
  name : String
  type? : Option TypeExpr := none
  kind : ArgumentKind := .positional
deriving Repr

inductive HandlerForm where
  | function
  /-- A function without a name of its own, and without annotations. -/
  | anonymous
  /-- A function around another that it stands for. -/
  | wrapped
  | boundMethod (owner : String)
  /-- A function of a class, with the instance still to be given. -/
  | unboundMethod (owner : String)
  /-- An instance that can be called. -/
  | callable
  /-- A class, with the annotations of its attributes. -/
  | classObject (fields : List (String × TypeExpr))
  /-- A function with its first arguments given. -/
  | partly (bound : List Value)

structure Handler where
  name : String
  form : HandlerForm := .function
  arguments : List Argument := []

namespace Handler

def same (a b : Handler) : Bool := a.name = b.name

/-- The name in reports; forms that have none are shown by their literal. -/
def qualifiedName? (h : Handler) : Option String :=
  match h.form with
  | .function | .wrapped | .classObject _ => some h.name
  | .anonymous => some "<lambda>"
  | .boundMethod owner | .unboundMethod owner => some (owner ++ "." ++ h.name)
  | .callable | .partly _ => none

def literal (h : Handler) : String :=
  match h.form with
  | .function | .wrapped => "<function " ++ h.name ++ ">"
  | .anonymous => "<function <lambda>>"
  | .boundMethod owner => "<bound method " ++ owner ++ "." ++ h.name ++ " of <" ++ owner ++ ">>"
  | .unboundMethod owner => "<function " ++ owner ++ "." ++ h.name ++ ">"
  | .callable => "<callable " ++ h.name ++ ">"
  | .classObject _ => "<class 'app." ++ h.name ++ "'>"
  | .partly bound =>
    "functools.partial(" ++
      ", ".intercalate (("<function " ++ h.name ++ ">") :: bound.map Value.literalText) ++ ")"

def dropPositional : Nat → List Argument → List Argument
  | _, [] => []
  | 0, arguments => arguments
  | n + 1, a :: rest =>
    if a.kind.isPositional then dropPositional n rest else a :: dropPositional (n + 1) rest

def openArguments (h : Handler) : List Argument :=
  match h.form with
  | .anonymous => h.arguments.map fun a => { a with type? := none }
  | .unboundMethod _ => { name := "self" } :: h.arguments
  | .partly bound => dropPositional bound.length h.arguments
  | _ => h.arguments

def annotations (h : Handler) : List (String × TypeExpr) :=
  match h.form with
  | .function | .wrapped | .boundMethod _ | .unboundMethod _ =>
    h.arguments.filterMap fun a => a.type?.map fun t => (a.name, t)
  | .classObject fields => fields
  | .anonymous | .callable | .partly _ => []

/-- The type of an argument: the resolved one, or the annotation as it stands unless it is text. -/
def argumentType (resolved : OrderedMap String TypeExpr) (a : Argument) : TypeExpr :=
  match resolved.get? a.name, a.type? with
  | some t, _ => t
  | none, some (.atom (.text _)) | none, none => .absent
  | none, some t => t

inductive Error where
  | typeText (e : Annotation.Error)
  /-- More arguments are given in advance than the function takes. -/
  | surplus (literal : String)
deriving DecidableEq, Repr

def Error.message : Error → String
  | typeText _ => ""
  | surplus literal => "partial object " ++ literal ++ " has incorrect arguments"

def hasSurplus (h : Handler) : Bool :=
  match h.form with
  | .partly bound =>
    !h.arguments.any (·.kind = .restPositional) &&
      (h.arguments.filter (·.kind.isPositional)).length < bound.length
  | _ => false

def parameters (s : Schema) (h : Handler) : Except Error (List Parameter) := do
  if h.hasSurplus then throw (.surplus h.literal)
  let resolved ← Except.mapError Error.typeText <| Annotation.resolveAll s h.annotations
  let params := (h.openArguments.filter (!·.kind.isRest)).map fun a =>
    (⟨a.name, argumentType resolved a⟩ : Parameter)
  match params with
  | ⟨"self", _⟩ :: rest => pure rest
  | _ => pure params

end Handler

end UriRouting
