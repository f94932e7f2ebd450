import UriRouting.Route.Basic
import UriRouting.Types.FieldKind

/-! # Building routes

A builder collects what a route needs, call by call. A call that fails leaves what it had done so
far. -/

set_option autoImplicit false

namespace UriRouting

structure Builder where
  template : Value
  registry : RegistrySource := .own Registry.builtin
  encoding : String := defaultEncoding
  priority : Int := Priority.lowest
  methods : List String := []
  patterns : OrderedMap String String := []
  handler? : Option Handler := none
  declared : List Parameter := []
  /-- The setting of methods beside the standard ones. -/
  customMethods : String := ""

namespace Builder

inductive Target where
  | handler (h : Handler)
  | value (v : Value)

def Target.literal : Target → String
  | handler h => h.literal
  | value v => v.literalText

inductive Error where
  | unknownMethod (text : String)
  | notCallable (literal : String)
  | fault (f : Value.Fault)
  | handler (e : Handler.Error)
  | notBound (template : String)
  | template (e : Template.Error)
deriving DecidableEq, Repr

namespace Error

def message : Error → String
  | unknownMethod text => "Unknown HTTP method: \"" ++ text ++ "\""
  | notCallable literal => "The route handler must be callable (" ++ literal ++ " is not)"
  | notBound shown =>
    "You have created a route, but did not specify any handler to be invoked: " ++ shown
  | template e => e.message
  | handler e => e.message
  | fault _ => ""

end Error

inductive Call where
  | method (v : Value)
  | methods (vs : Value)
  | priority (n : Int)
  /-- The pattern of a field, inferred from a type. -/
  | typed (name : String) (t : TypeExpr)
  | pattern (name regex : String)
  | handler (target : Target)

abbrev Step := Builder × Option Error

def settled (shared : Registry) (b : Builder) : Builder :=
  { b with registry := .own (b.registry.get shared) }

def allowedMethods (b : Builder) : List String := Method.combined b.customMethods

def addMethod (b : Builder) (name : String) : Builder :=
  if name ∈ b.methods then b else { b with methods := b.methods ++ [name] }

def accept (b : Builder) (v : Value) : Step :=
  let unknown : Step := (b, some (.unknownMethod (String.ofList v.text)))
  match v.asText?, v with
  | some s, _ =>
    match Method.standard? b.allowedMethods s with
    | some name => (b.addMethod name, none)
    | none => unknown
  | none, .bytes _ => unknown
  | none, _ => (b, some (.fault .noAttribute))

def acceptAll (b : Builder) : List Value → Step
  | [] => (b, none)
  | v :: rest =>
    match b.accept v with
    | (b, none) => acceptAll b rest
    | failed => failed

/-- What can be gone through item by item: text by its characters, maps by their keys. -/
def items? (v : Value) : Option (List Value) :=
  match v.asText?, v with
  | some s, _ => some (s.toList.map fun c => .str c.toString)
  | none, .list items => some items
  | none, .map entries => some (entries.map fun entry => .str entry.1)
  | none, .bytes bytes => some (bytes.map fun byte => .int byte.toNat)
  | none, .object _ _ base => items? base
  | none, _ => none

def acceptItems (b : Builder) (vs : Value) : Step :=
  match items? vs with
  | some items => b.acceptAll items
  | none => (b, some (.fault .wrongType))

/-- Binds a handler, whose parameters are then looked up. -/
def setHandler (s : Schema) (b : Builder) : Target → Step
  | .value v => (b, some (.notCallable v.literalText))
  | .handler h =>
    let b := { b with handler? := some h }
    match h.parameters s with
    | .ok declared => ({ b with declared }, none)
    | .error e => (b, some (.handler e))

def perform (s : Schema) (b : Builder) : Call → Step
  | .method v => b.accept v
  | .methods vs => b.acceptItems vs
  | .priority n => ({ b with priority := n }, none)
  | .typed name t => ({ b with patterns := b.patterns.put name (s.inferredPattern t) }, none)
  | .pattern name regex => ({ b with patterns := b.patterns.put name regex }, none)
  | .handler target => b.setHandler s target

def fieldTypes (s : Schema) (declared : List Parameter) (names : List String) :
    Except Annotation.Error (OrderedMap String TypeExpr) :=
  names.foldlM (fun m name => do
    let t ← s.typeAt declared name
    pure (OrderedMap.put m name t)) []

def inferredFrom (s : Schema) (types : OrderedMap String TypeExpr) (name : String) : Option String :=
  match types.get? name with
  | none | some .absent => none
  | some t => some (s.inferredPattern t)

def compile (s : Schema) (b : Builder) : Except Error Template := do
  match b.template.asText? with
  | none => throw (.template (.malformed b.template.literalText .notText))
  | some template =>
    let names ← (Template.namesIn template).mapError .template
    let types ← (fieldTypes s b.declared names).mapError fun e => .handler (.typeText e)
    (Template.compile ⟨b.patterns, inferredFrom s types⟩ template).mapError .template

def padRight (width : Nat) (s : String) : String :=
  s ++ String.ofList (List.replicate (width - s.length) ' ')

def padLeft (width : Nat) (s : String) : String :=
  String.ofList (List.replicate (width - s.length) ' ') ++ s

def summary (template : String) (methods : List String) (h : Handler) : String :=
  padRight 50 template ++ Method.listText methods ++ " -> " ++
    padLeft 10 (h.qualifiedName?.getD h.literal)

def build (s : Schema) (b : Builder) : LoggedExcept Error Route := do
  match b.handler? with
  | none => throw (.notBound (String.ofList b.template.text))
  | some h =>
    match b.compile s with
    | .error e => throw e
    | .ok t =>
      (⟨(), t.records⟩ : Logged Unit)
      report .info (summary t.source b.methods h)
      pure ⟨t, h, b.methods, b.priority, b.declared, b.registry, b.encoding⟩

def literal (b : Builder) : String :=
  "<< Route: " ++ String.ofList b.template.text ++ " " ++ Method.listText b.methods ++ " => " ++
    (b.handler?.map Handler.literal).getD "None" ++ " >>"

end Builder

end UriRouting
