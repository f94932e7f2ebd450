import UriRouting.Converter.Registry
import UriRouting.Template.Compile
import UriRouting.Types.Literal
import UriRouting.Types.Parameter
import UriRouting.Value.Percent

/-! # Generating paths

A path is made from a template by putting values in the places of its fields. `byName` finds the values
by name, converts and encodes them; `inOrder` takes them as they come. -/

set_option autoImplicit false

namespace UriRouting.Generation

inductive Declared where
  | name (s : String)
  | parameter (p : Parameter)
deriving DecidableEq, Repr

namespace Declared

def nameOf : Declared → String
  | name s => s
  | parameter p => p.name

def literal (schema : Schema) : Declared → String
  | name s => Text.quoted s
  | parameter p =>
    "Parameter(name=" ++ Text.quoted p.name ++ ", type=" ++ p.type.literal schema ++ ")"

end Declared

inductive Error where
  /-- As many names as values are needed. -/
  | arity (names values : List String)
  | fault (f : Value.Fault)
  | converter (e : Converter.Error)
  | charset (e : Charset.Error)
deriving DecidableEq, Repr

namespace Error

def message : Error → String
  | arity names values =>
    "declared_params must have the same length as values. Names: [" ++ ", ".intercalate names ++
      "] Values: [" ++ ", ".intercalate values ++ "]"
  | charset e => e.message
  | fault _ | converter _ => ""

end Error

/-- A field takes the value of its own name or of a name that it continues behind a point. -/
def selects (name : String) (field : List Char) : Bool :=
  field = name.toList || (name.toList ++ ['.']).isPrefixOf field

def argumentFor? (field : List Char) (arguments : List (String × Value)) : Option (String × Value) :=
  arguments.find? fun entry => selects entry.1 field

def valueOf (s : Schema) (field : String) (arguments : List (String × Value)) : Except Value.Fault Value :=
  match argumentFor? field.toList arguments with
  | some (name, v) => v.atPath s (field.toList.drop (name.length + 1))
  | none => pure .null

def plainLiteral (text : List Char) : List Char :=
  let (first, more) := Text.splitOnPair '/' '*' text
  first ++ more.flatMap ('/' :: ·)

def formOf (s : Schema) (r : Registry) (v : Value) : Except Converter.Error Value :=
  match r.lookup? s (.atom v.typeOf) with
  | some c => c.write v
  | none => pure (.str (String.ofList v.text))

/-- Whether text may be used without being encoded. That it cannot be, for want of a charset of that name
or of bytes for a character, is put up with; any other failure of a charset is not. -/
def isTolerated : Charset.Error → Bool
  | .unknown _ | .encode .. => true
  | .zeroInName | .undefined _ | .decode .. => false

/-- Encodes the form of a value. Text that cannot be encoded is used as it is, with a warning that shows
the form. -/
def escaped (encoding : String) (form : Value) : LoggedExcept Error (List Char) :=
  match form.percentEncode encoding with
  | .ok encoded => pure encoded
  | .error (.fault f) => throw (.fault f)
  | .error (.charset e) =>
    if isTolerated e then do
      report .warning ("Can't encode parameter : " ++ String.ofList form.text ++ " with encoding : " ++ encoding)
      pure (form.asText?.getD "").toList
    else throw (.charset e)

def fieldText (s : Schema) (r : Registry) (encoding : String) (arguments : List (String × Value))
    (f : Template.Field) : LoggedExcept Error (List Char) := do
  match ← liftExcept Error.fault (valueOf s f.name arguments) with
  | .null => pure []
  | v =>
    let form ← liftExcept Error.converter (formOf s r v)
    escaped encoding form
where
  liftExcept {ε α : Type} (wrap : ε → Error) (x : Except ε α) : LoggedExcept Error α :=
    match x with
    | .ok a => pure a
    | .error e => throw (wrap e)

def tokensByName (s : Schema) (r : Registry) (encoding : String) (arguments : List (String × Value)) :
    List Template.Token → LoggedExcept Error (List Char)
  | [] => pure []
  | .literal text :: rest => do
    let path ← tokensByName s r encoding arguments rest
    pure (plainLiteral text.toList ++ path)
  | .field f :: rest => do
    let text ← fieldText s r encoding arguments f
    let path ← tokensByName s r encoding arguments rest
    pure (text ++ path)

def byName (s : Schema) (r : Registry) (encoding : String) (t : Template) (names : List Declared)
    (values : List Value) : LoggedExcept Error (List Char) :=
  if names.length ≠ values.length then
    throw (.arity (names.map (·.literal s)) (values.map Value.literalText))
  else tokensByName s r encoding ((names.map Declared.nameOf).zip values) t.tokens

def tokensInOrder : List Template.Token → List Value → List Char
  | [], _ => []
  | .literal text :: rest, values => text.toList ++ tokensInOrder rest values
  | .field f :: rest, [] => f.source.toList ++ tokensInOrder rest []
  | .field _ :: rest, v :: values => v.text ++ tokensInOrder rest values

def inOrder (t : Template) (values : List Value) : List Char := tokensInOrder t.tokens values

end UriRouting.Generation
