import UriRouting.Types.Basic
import UriRouting.Unicode.Word

/-! # Types given as text

An annotation may be text that names a type: a name, a name applied to types in brackets, or types
with bars between them. -/

set_option autoImplicit false

namespace UriRouting

inductive AnnotationFault where
  /-- It is not written as a type is. -/
  | malformed
  | unknownName (name : String)
  /-- It has a meaning, but not that of a type. -/
  | noType
deriving DecidableEq, Repr

namespace Annotation

inductive Token where
  | word (s : String)
  | mark (c : Char)
deriving DecidableEq, Repr

def flush (word : List Char) (tokens : List Token) : List Token :=
  if word.isEmpty then tokens else .word (String.ofList word.reverse) :: tokens

/-- `word` is the word that is being read, backwards. -/
def tokens? (word : List Char) : List Char → Option (List Token)
  | [] => some (flush word [])
  | c :: rest =>
    if Unicode.isIdentifierContinue c then tokens? (c :: word) rest
    else if c = ' ' ∨ c = '\t' then (tokens? [] rest).map (flush word)
    else if c ∈ ['[', ']', ',', '|'] then
      (tokens? [] rest).map fun tokens => flush word (.mark c :: tokens)
    else none

inductive Expr where
  | name (s : String)
  | apply (head : String) (arguments : List Expr)
  | bar (left right : Expr)

mutual

/-- Reads a type; the fuel is at least the number of tokens. -/
def readExpr : Nat → List Token → Option (Expr × List Token)
  | fuel + 1, .word head :: .mark '[' :: rest => do
    let (arguments, rest) ← readArguments fuel rest
    readBars fuel (.apply head arguments) rest
  | fuel + 1, .word s :: rest => readBars fuel (.name s) rest
  | _, _ => none

def readArguments : Nat → List Token → Option (List Expr × List Token)
  | 0, _ => none
  | fuel + 1, tokens => do
    let (argument, rest) ← readExpr fuel tokens
    match rest with
    | .mark ']' :: rest => some ([argument], rest)
    | .mark ',' :: rest => do
      let (more, rest) ← readArguments fuel rest
      pure (argument :: more, rest)
    | _ => none

def readBars : Nat → Expr → List Token → Option (Expr × List Token)
  | fuel + 1, left, .mark '|' :: rest => do
    let (right, rest) ← readExpr fuel rest
    pure (.bar left right, rest)
  | _, left, rest => some (left, rest)

end

def parse? (s : List Char) : Option Expr := do
  let tokens ← tokens? [] s
  match ← readExpr (2 * tokens.length + 1) tokens with
  | (e, []) => some e
  | _ => none

def builtinNames : List (String × TypeExpr) :=
  [("int", .ofBuiltin .int), ("str", .ofBuiltin .str), ("float", .ofBuiltin .float),
   ("bool", .ofBuiltin .bool), ("bytes", .ofBuiltin .bytes), ("list", .ofBuiltin .list),
   ("dict", .ofBuiltin .dict), ("object", .ofBuiltin .object), ("None", .ofBuiltin .noneType),
   ("Decimal", .ofBuiltin .decimal), ("datetime", .ofBuiltin .dateTime), ("UUID", .ofBuiltin .uuid),
   ("Char", .atom .character)]

def unionNames : List String := ["Optional", "Union"]

def nameType (s : Schema) (name : String) : Except AnnotationFault TypeExpr :=
  if (s.enum? name).isSome || (s.class? name).isSome then pure (.atom (.declared name))
  else if name ∈ unionNames then throw .noType
  else
    match builtinNames.lookup name with
    | some t => pure t
    | none => throw (.unknownName name)

def applyType (s : Schema) (head : String) (arguments : List TypeExpr) :
    Except AnnotationFault TypeExpr :=
  match head, arguments with
  | "Optional", [t] => pure t.optional
  | "Optional", _ => throw .noType
  | "Union", ts => pure (.unionOf .named ts)
  | _, ts => do
    let t ← nameType s head
    if t = .ofBuiltin .list ∧ ts = [.ofBuiltin .int] then pure (.atom (.intList false))
    else throw .noType

mutual

def typeOf (s : Schema) : Expr → Except AnnotationFault TypeExpr
  | .name name => nameType s name
  | .apply head arguments => do
    if head ∉ unionNames then let _ ← nameType s head
    let ts ← typesOf s arguments
    applyType s head ts
  | .bar left right => do
    let l ← typeOf s left
    let r ← typeOf s right
    pure (.unionOf .bars [l, r])

def typesOf (s : Schema) : List Expr → Except AnnotationFault (List TypeExpr)
  | [] => pure []
  | e :: rest => do
    let t ← typeOf s e
    let ts ← typesOf s rest
    pure (t :: ts)

end

def ofText (s : Schema) (text : String) : Except AnnotationFault TypeExpr :=
  match parse? text.toList with
  | some e => typeOf s e
  | none => throw .malformed

/-- The type of an annotation: text is read, also as a member of a union, and no type is the type of
nothing. -/
def resolve (s : Schema) (t : TypeExpr) : Except AnnotationFault TypeExpr :=
  match t with
  | .absent => pure (.ofBuiltin .noneType)
  | .atom (.text text) => ofText s text
  | .atom a => pure (.atom a)
  | .union style members => do
    let ts ← members.mapM fun
      | .text text => ofText s text
      | a => pure (.atom a)
    pure (.unionOf style ts)

inductive Error where
  | malformed
deriving DecidableEq, Repr

/-- The types of annotations by name, later ones first in rank. One that names what there is not takes
all of them away. -/
def resolveAll (s : Schema) (annotations : List (String × TypeExpr)) :
    Except Error (OrderedMap String TypeExpr) :=
  let resolved := annotations.foldlM (fun (m : OrderedMap String TypeExpr) entry => do
    let t ← resolve s entry.2
    pure (m.put entry.1 t)) []
  match resolved with
  | .ok m => pure m
  | .error .malformed => throw .malformed
  | .error _ => pure []

end Annotation

end UriRouting
