import UriRouting.PercentEncoding
import UriRouting.Value.Path

/-! # Percent-encoding of values

Text is encoded and decoded; other values are refused, save that a collection in which there is
nothing to decode is passed on. -/

set_option autoImplicit false

namespace UriRouting.Value

inductive EncodeError where
  | fault (f : Fault)
  | charset (e : Charset.Error)
deriving DecidableEq, Repr

inductive DecodeError where
  | fault (f : Fault)
  | percent (e : PercentEncoding.DecodeError)
deriving DecidableEq, Repr

def percentEncode (encoding : String) (v : Value) : Except EncodeError (List Char) :=
  match v.asText?, v with
  | some s, _ => (PercentEncoding.encode encoding s.toList).mapError .charset
  | none, bytes _ => throw (.fault .wrongType)
  | none, _ => throw (.fault .noAttribute)

def holds? (c : Char) : Value → Option Bool
  | list items => some (items.any fun item => item.asText? = some c.toString)
  | map entries => some (entries.any fun entry => entry.1 = c.toString)
  | object _ _ base => holds? c base
  | _ => none

def percentDecode (encoding : String) (plusAsSpace strict : Bool) (v : Value) :
    Except DecodeError Value :=
  match v.asText? with
  | some s => do
    let decoded ← (PercentEncoding.decode encoding plusAsSpace strict s.toList).mapError .percent
    pure (str (String.ofList decoded))
  | none =>
    match v.holds? '+', v.holds? '%' with
    | some plus, some percent =>
      if (plus && plusAsSpace) || percent then throw (.fault .noAttribute) else pure v
    | _, _ => throw (.fault .wrongType)

end UriRouting.Value
