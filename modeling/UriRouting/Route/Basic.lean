import UriRouting.Binding
import UriRouting.Generation
import UriRouting.Handler.Basic
import UriRouting.Method

/-! # Routes

A compiled template bound to a handler. A route reads paths into parameters and writes parameters into
paths, with one encoding for both. -/

set_option autoImplicit false

namespace UriRouting

/-- Where a route looks for converters: a registry of its own, or that of its router. -/
inductive RegistrySource where
  | own (r : Registry)
  | shared

def RegistrySource.get (shared : Registry) : RegistrySource → Registry
  | own r => r
  | RegistrySource.shared => shared

structure Route where
  template : Template
  handler : Handler
  /-- The methods that are accepted; any method if there are none. -/
  methods : List String
  priority : Int
  declared : List Parameter
  registry : RegistrySource
  encoding : String

namespace Route

inductive ReadError where
  | binding (e : Binding.Error)
  | capture (e : Template.CaptureError)
deriving DecidableEq, Repr

def accepts (r : Route) (path : List Char) : Bool := r.template.accepts path

def acceptsMethod (r : Route) (method : String) : Bool :=
  r.methods.isEmpty || Method.upper method ∈ r.methods

def settled (shared : Registry) (r : Route) : Route := { r with registry := .own (r.registry.get shared) }

def before (r other : Route) : Bool := r.priority < other.priority

def read (r : Route) (path : List Char) : LoggedExcept ReadError Binding :=
  if r.accepts path then
    match r.template.captures path with
    | .ok captures => (Binding.ofCaptures r.encoding captures r.template.names).adapt .binding
    | .error e => throw (.capture e)
  else pure {}

def write (s : Schema) (shared : Registry) (r : Route) (values : List Value) :
    LoggedExcept Generation.Error (List Char) :=
  Generation.byName s (r.registry.get shared) r.encoding r.template (r.declared.map .parameter) values

def literal (r : Route) : String :=
  "<Route: " ++ r.template.source ++ " " ++ Method.listText r.methods ++ " -> " ++ r.handler.literal ++
    " (priority=" ++ toString r.priority ++ ")>"

end Route

end UriRouting
