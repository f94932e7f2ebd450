import UriRouting.Pattern.Error

/-! # Pattern tokens

A backslash and the character behind it are one token. Places are counted from the end of the pattern
while it is being read, so that what a piece of it means does not depend on what stands before. -/

set_option autoImplicit false

namespace UriRouting.Pattern

inductive Token where
  | plain (c : Char)
  | escaped (c : Char)
  /-- A backslash at the very end. -/
  | dangling
deriving DecidableEq, Repr

namespace Token

def chars : Token → List Char
  | plain c => [c]
  | escaped c => ['\\', c]
  | dangling => ['\\']

def text (t : Token) : String := String.ofList t.chars

def width (t : Token) : Nat := t.chars.length

end Token

def tokenize : List Char → List Token
  | [] => []
  | '\\' :: c :: rest => .escaped c :: tokenize rest
  | ['\\'] => [.dangling]
  | c :: rest => .plain c :: tokenize rest

def charsLeft : List Token → Nat
  | [] => 0
  | t :: ts => t.width + charsLeft ts

/-- A cause and, where the place matters, the number of characters from there to the end. -/
structure Fault where
  cause : Cause
  left? : Option Nat
deriving DecidableEq, Repr

abbrev Read := Except Fault

def fail {α : Type} (cause : Cause) (left : Nat) : Read α := .error ⟨cause, some left⟩

/-- A dangling backslash is an error as soon as it is the next token. -/
def noDangling : List Token → Read Unit
  | .dangling :: _ => fail .danglingBackslash 1
  | _ => pure ()

def take? (c : Char) : List Token → Read (Option (List Token))
  | .plain d :: rest => if c == d then do noDangling rest; pure (some rest) else pure none
  | _ => pure none

def readUpTo (test : Char → Bool) : Nat → List Token → Read (List Char × List Token)
  | n + 1, .plain c :: rest =>
    if test c then do
      noDangling rest
      let (cs, rest) ← readUpTo test n rest
      pure (c :: cs, rest)
    else pure ([], .plain c :: rest)
  | _, ts => pure ([], ts)

def readDigits (ts : List Token) : Read (List Char × List Token) :=
  readUpTo (fun c => '0' ≤ c && c ≤ '9') ts.length ts

/-- A name up to its terminator. `what` says in messages what the name is for. -/
def readName (what : String) (terminator : Char) : List Char → List Token → Read (String × List Token)
  | name, [] =>
    if name.isEmpty then fail (.missingName what) 0
    else fail (.unterminatedName terminator) name.length
  | name, t :: rest => do
    noDangling rest
    if t = .plain terminator then
      if name.isEmpty then fail (.missingName what) (charsLeft rest + 1)
      else pure (String.ofList name, rest)
    else readName what terminator (name ++ t.chars) rest

end UriRouting.Pattern
