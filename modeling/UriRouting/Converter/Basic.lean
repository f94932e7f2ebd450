import UriRouting.Calendar.Format
import UriRouting.Types.Basic
import UriRouting.Value.Path

/-! # Converters

A converter reads the text of a field as a value, or gives nothing if it cannot. A reversible one also
writes values in the form that it reads. -/

set_option autoImplicit false

namespace UriRouting

namespace Converter

inductive Error where
  | fault (f : Value.Fault)
  | format (e : Calendar.FormatError)
  | other (text : String)
deriving DecidableEq, Repr

end Converter

inductive Converter where
  | bool
  /-- Members by name; without a type nothing can be read. -/
  | enum (type : TypeExpr)
  | dateTime (format : String)
  | uuid
  /-- Writes its tag in front of a value. -/
  | tag (label : String)
  /-- Whatever reads values and writes forms, or fails to. -/
  | own (reads writes : Value → Except Converter.Error Value)
  /-- Only reads. -/
  | oneWay

namespace Converter

def defaultFormat : String := "%Y-%m-%dT%H:%M:%S%z"

def isReversible : Converter → Bool
  | oneWay => false
  | _ => true

def readBool (v : Value) : Value :=
  match v.asText? with
  | some "true" => .bool true
  | some "false" => .bool false
  | _ => .null

/-- Collections cannot be asked for by name. -/
def readMember (member? : String → Option Value) (v : Value) : Except Error Value :=
  match v with
  | .list _ | .map _ | .object _ _ (.list _) | .object _ _ (.map _) => throw (.fault .wrongType)
  | _ => pure ((v.asText?.bind member?).getD .null)

def readEnum (s : Schema) (type : TypeExpr) (v : Value) : Except Error Value :=
  match type with
  | .absent => pure .null
  | .atom (.builtin .enumeration) | .atom (.builtin .numberEnumeration) =>
    readMember (fun _ => none) v
  | .atom (.declared name) =>
    match s.enum? name with
    | some e => readMember e.member? v
    | none => throw (.fault .wrongType)
  | _ => throw (.fault .wrongType)

def readDateTime (format : String) (v : Value) : Except Error Value :=
  match v.asText? with
  | some s =>
    match Calendar.DateTime.ofFormat? format.toList s.toList with
    | .ok t? => pure ((t?.map .dateTime).getD .null)
    | .error e => throw (.format e)
  | none => throw (.fault .wrongType)

def readUuid (v : Value) : Except Error Value :=
  match v.asText?, v with
  | some s, _ => pure (((Uuid.ofText? s.toList).map .uuid).getD .null)
  | none, .null | none, .bytes _ | none, .dateTime _ => throw (.fault .wrongType)
  | none, _ => throw (.fault .noAttribute)

def read (s : Schema) (c : Converter) (v : Value) : Except Error Value :=
  match c with
  | bool => pure (readBool v)
  | enum type => readEnum s type v
  | dateTime format => readDateTime format v
  | uuid => readUuid v
  | tag _ | oneWay => pure v
  | own reads _ => reads v

def memberNameOrText : Value → List Char
  | .member _ name _ => name.toList
  | v => v.text

/-- The form of a value that goes into a path. It is text, unless a value that is no member has a name
that is none. -/
def write (c : Converter) (v : Value) : Except Error Value :=
  match c with
  | bool => pure (.str (if v.isTrue then "true" else "false"))
  | enum _ =>
    match v.attribute? "name" with
    | some name => pure name
    | none => throw (.fault .noAttribute)
  | dateTime format =>
    match v with
    | .dateTime t => pure (.str (String.ofList (t.format format.toList)))
    | _ => throw (.fault .noAttribute)
  | uuid => pure (.str (String.ofList v.text))
  | tag label => pure (.str (label ++ ":" ++ String.ofList (memberNameOrText v)))
  | own _ writes => writes v
  | oneWay => throw (.fault .noAttribute)

end Converter

end UriRouting
