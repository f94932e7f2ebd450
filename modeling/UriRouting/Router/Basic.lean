import UriRouting.Route.Builder
import UriRouting.Router.Path

/-! # Routers

A router keeps its routes in the order in which they are tried: by priority, and among equal
priorities by registration. Each route is registered under a label. Routes made through the router
share its registry, in the state in which it is when they are used. -/

set_option autoImplicit false

namespace UriRouting

structure Router (ι : Type) where
  encoding : String := defaultEncoding
  defaultPriority : Int := Priority.lowest
  registry : Registry := Registry.builtin
  routes : List (ι × Route) := []
  /-- The setting of methods beside the standard ones. -/
  customMethods : String := ""

namespace Router

variable {ι : Type}

/-- Puts a route behind all that are not after it. -/
def insert (label : ι) (r : Route) : List (ι × Route) → List (ι × Route)
  | [] => [(label, r)]
  | entry :: rest =>
    if r.before entry.2 then (label, r) :: entry :: rest else entry :: insert label r rest

def register (t : Router ι) (label : ι) (r : Route) : Router ι :=
  { t with routes := insert label r t.routes }

/-- Another registry for what is made from now on; the routes keep the one that they have. -/
def replaceRegistry (t : Router ι) (registry : Registry) : Router ι where
  encoding := t.encoding
  defaultPriority := t.defaultPriority
  registry
  routes := t.routes.map fun entry => (entry.1, entry.2.settled t.registry)
  customMethods := t.customMethods

def builder (t : Router ι) (template : Value) : Builder where
  template
  registry := .shared
  encoding := t.encoding
  priority := t.defaultPriority
  customMethods := t.customMethods

structure Declaration where
  template : Value
  target : Builder.Target
  methods : Value := .list []
  priority? : Option Int := none
  patterns : OrderedMap String String := []

def Declaration.calls (d : Declaration) : List Builder.Call :=
  [.methods d.methods] ++ (d.priority?.map .priority).toList ++
    d.patterns.map (fun entry => .pattern entry.1 entry.2) ++ [.handler d.target]

def performAll (s : Schema) (b : Builder) : List Builder.Call → Except Builder.Error Builder
  | [] => pure b
  | call :: rest =>
    match b.perform s call with
    | (b, none) => performAll s b rest
    | (_, some e) => throw e

def add (s : Schema) (t : Router ι) (label : ι) (d : Declaration) :
    LoggedExcept Builder.Error (Router ι × Route) := do
  let b ← (performAll s (t.builder d.template) d.calls : Except _ _)
  let r ← b.build s
  pure (t.register label r, r)

structure Found (ι : Type) where
  label : ι
  route : Route
  binding : Binding

inductive FindError where
  | methodNotAllowed (method : String) (allowed : List String)
  | read (e : Route.ReadError)
deriving DecidableEq, Repr

def FindError.message : FindError → String
  | methodNotAllowed method allowed =>
    "Method " ++ method ++ " not allowed; allowed methods: " ++ ", ".intercalate allowed
  | read _ => ""

def allowedMethods (routes : List Route) (path : List Char) : List String :=
  (((routes.filter (·.accepts path)).flatMap Route.methods).eraseDups).mergeSort (· ≤ ·)

/-- The first route for a path and a method, with what the path gives. A path that only other methods
may ask for is an error. -/
def find (t : Router ι) (uri : List Char) (method : String) :
    LoggedExcept FindError (Option (Found ι)) := do
  let path := requestPath uri
  match t.routes.find? fun entry => entry.2.accepts path && entry.2.acceptsMethod method with
  | some (label, r) =>
    let binding ← (r.read path).adapt .read
    pure (some ⟨label, r, binding⟩)
  | none =>
    let allowed := allowedMethods (t.routes.map Prod.snd) path
    if allowed.isEmpty then pure none
    else throw (.methodNotAllowed (Method.upper method) allowed)

inductive PathError where
  | notBound (literal : String)
  | generation (e : Generation.Error)
deriving DecidableEq, Repr

def PathError.message : PathError → String
  | notBound literal => "No route is bound to " ++ literal
  | generation e => e.message

/-- The path for calling a handler, by the first route that is bound to it. -/
def pathFor (s : Schema) (t : Router ι) (target : Builder.Target) (values : List Value) :
    LoggedExcept PathError (List Char) :=
  let isBound (r : Route) : Bool := match target with
    | .handler h => r.handler.same h
    | .value _ => false
  match t.routes.find? fun entry => isBound entry.2 with
  | some (_, r) => (r.write s t.registry values).adapt .generation
  | none => throw (.notBound target.literal)

end Router

end UriRouting
