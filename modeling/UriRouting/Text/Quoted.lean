import UriRouting.Text.Digits
import UriRouting.Unicode.Printable

/-! # Quoted text

Text in messages stands between single quotes, or between double quotes if it holds single quotes
and no double ones. The quote in use, the backslash and everything that is not printable is escaped. -/

set_option autoImplicit false

namespace UriRouting.Text

def quoteFor (s : List Char) : Char :=
  if s.contains '\'' && !s.contains '"' then '"' else '\''

def escapeCode (n : Nat) : List Char :=
  if n ≤ 0xFF then '\\' :: 'x' :: padded 16 2 n
  else if n ≤ 0xFFFF then '\\' :: 'u' :: padded 16 4 n
  else '\\' :: 'U' :: padded 16 8 n

def escapeCommon? (quote c : Char) : Option (List Char) :=
  if c == quote || c == '\\' then some ['\\', c]
  else if c == '\n' then some ['\\', 'n']
  else if c == '\r' then some ['\\', 'r']
  else if c == '\t' then some ['\\', 't']
  else none

def escapeChar (quote c : Char) : List Char :=
  match escapeCommon? quote c with
  | some escaped => escaped
  | none => if Unicode.isPrintable c then [c] else escapeCode c.toNat

def quoteChars (s : List Char) : List Char :=
  let quote := quoteFor s
  quote :: s.flatMap (escapeChar quote) ++ [quote]

def quoted (s : String) : String := String.ofList (quoteChars s.toList)

/-- Bytes are quoted one character a byte, with a `b` in front; only printable ASCII stands for itself. -/
def quoteBytes (bytes : List UInt8) : List Char :=
  let chars := bytes.map fun b => Char.ofNat b.toNat
  let quote := quoteFor chars
  let escape (c : Char) : List Char :=
    match escapeCommon? quote c with
    | some escaped => escaped
    | none => if 0x20 ≤ c.toNat && c.toNat < 0x7F then [c] else escapeCode c.toNat
  'b' :: quote :: chars.flatMap escape ++ [quote]

end UriRouting.Text
