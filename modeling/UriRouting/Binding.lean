import UriRouting.Log
import UriRouting.OrderedMap
import UriRouting.PercentEncoding
import UriRouting.Text.Quoted

/-! # Bindings

The texts that a path gives for the fields of a template are decoded one by one. A field that cannot
be decoded stays unbound and is reported, and does not keep the others from being bound. -/

set_option autoImplicit false

namespace UriRouting

/-- What became of the fields. Each name keeps its last value and its last failure. -/
structure Binding where
  params : OrderedMap String String := []
  failures : OrderedMap String PercentEncoding.DecodeError := []
  /-- The values in the order in which they were handed out. -/
  calls : List (String × String) := []
deriving DecidableEq, Repr

namespace Binding

inductive Error where
  | lengths (captures names : Nat)
  /-- A field has no text. -/
  | missingCapture
deriving DecidableEq, Repr

def Error.message : Error → String
  | lengths captures names =>
    "captures and names must have the same length (" ++ toString captures ++ " != " ++
      toString names ++ ")"
  | missingCapture => "a field has no text"

def isComplete (b : Binding) : Bool := b.failures.isEmpty

def handedOut (b : Binding) : OrderedMap String String := OrderedMap.ofList b.calls

def literal (b : Binding) : String :=
  let params := b.params.map fun entry => Text.quoted entry.1 ++ ": " ++ Text.quoted entry.2
  let failed := (b.failures.keys.mergeSort (· ≤ ·)).map Text.quoted
  "<BindResult: params=\x7b" ++ ", ".intercalate params ++ "\x7d failures=[" ++
    ", ".intercalate failed ++ "]>"

def decodeField (encoding : String) (raw : List Char) : Except PercentEncoding.DecodeError (List Char) :=
  PercentEncoding.decode encoding true true raw

def failureText (name : String) (raw : List Char) (encoding : String)
    (e : PercentEncoding.DecodeError) : String :=
  "Error when decoding url parameter " ++ name ++ "=" ++ String.ofList (Text.quoteChars raw) ++
    " with encoding " ++ encoding ++ ": " ++ e.message

def bindField (encoding : String) (b : Binding) (name : String) (raw : List Char) : Logged Binding :=
  match decodeField encoding raw with
  | .ok value =>
    let value := String.ofList value
    pure { b with params := b.params.put name value, calls := b.calls ++ [(name, value)] }
  | .error e => do
    report .error (failureText name raw encoding e)
    pure { b with failures := b.failures.put name e }

def bindFields (encoding : String) (b : Binding) :
    List (String × Option (List Char)) → LoggedExcept Error Binding
  | [] => pure b
  | (_, none) :: _ => throw .missingCapture
  | (name, some raw) :: rest => do
    let b ← bindField encoding b name raw
    bindFields encoding b rest

def ofCaptures (encoding : String) (captures : List (Option (List Char))) (names : List String) :
    LoggedExcept Error Binding :=
  if captures.length ≠ names.length then throw (.lengths captures.length names.length)
  else bindFields encoding {} (names.zip captures)

end Binding

end UriRouting
