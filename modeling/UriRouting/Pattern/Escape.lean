import UriRouting.Pattern.Basic
import UriRouting.Pattern.Token

/-! # Escapes in patterns

What a backslash sequence stands for, inside and outside of a set; and how text is written so that a
pattern takes it literally. -/

set_option autoImplicit false

namespace UriRouting.Pattern

inductive Escape where
  | code (n : Nat)
  | category (kind : Category) (negated : Bool)
  | anchor (a : Anchor)
  /-- A reference to a group, with the length of its text. -/
  | reference (index length : Nat)
deriving DecidableEq, Repr

def controlEscape? : Char → Option Nat
  | 'a' => some 7
  | 'b' => some 8
  | 'f' => some 12
  | 'n' => some 10
  | 'r' => some 13
  | 't' => some 9
  | 'v' => some 11
  | '\\' => some 92
  | _ => none

def categoryEscape? : Char → Option (Category × Bool)
  | 'd' => some (.digit, false)
  | 'D' => some (.digit, true)
  | 's' => some (.space, false)
  | 'S' => some (.space, true)
  | 'w' => some (.word, false)
  | 'W' => some (.word, true)
  | _ => none

def anchorEscape? : Char → Option Anchor
  | 'A' => some .textStart
  | 'Z' => some .textEnd
  | 'b' => some .wordBoundary
  | 'B' => some .noWordBoundary
  | _ => none

def hexDigits? : Char → Option Nat
  | 'x' => some 2
  | 'u' => some 4
  | 'U' => some 8
  | _ => none

def isAsciiLetter (c : Char) : Bool := ('a' ≤ c && c ≤ 'z') || ('A' ≤ c && c ≤ 'Z')

def escapeText (cs : List Char) : String := String.ofList ('\\' :: cs)

def readHexEscape (c : Char) (width : Nat) (ts : List Token) : Read (Nat × List Token) := do
  let (digits, rest) ← readUpTo Text.isHexDigit width ts
  let place := charsLeft rest + digits.length + 2
  if digits.length ≠ width then fail (.incompleteEscape (escapeText (c :: digits))) place
  else
    let n := Text.valueOf 16 digits
    if n ≤ 0x10FFFF then pure (n, rest)
    else fail (.badEscape (escapeText (c :: digits))) place

/-- A character by its name in braces. The table of names is left out, so that every name is refused as an
unknown one is. -/
def readNamedEscape (ts : List Token) : Read (Nat × List Token) := do
  match ← take? '{' ts with
  | none => fail .missingNameBrace (charsLeft ts)
  | some rest =>
    let (name, rest) ← readName "character name" '}' [] rest
    fail (.unknownCharacterName name) (charsLeft rest + name.length + 4)

def readOctalEscape (c : Char) (ts : List Token) : Read (Nat × List Token) := do
  let (digits, rest) ← readUpTo Text.isOctalDigit 2 ts
  let n := Text.valueOf 8 (c :: digits)
  if n ≤ 0o377 then pure (n, rest)
  else fail (.octalOutOfRange (escapeText (c :: digits))) (charsLeft rest + digits.length + 2)

def readPlainEscape (c : Char) (ts : List Token) : Read (Nat × List Token) :=
  if isAsciiLetter c || ('0' ≤ c && c ≤ '9') then fail (.badEscape (escapeText [c])) (charsLeft ts + 2)
  else pure (c.toNat, ts)

def readSetEscape (c : Char) (ts : List Token) : Read (SetItem × List Token) :=
  match controlEscape? c, categoryEscape? c, hexDigits? c with
  | some n, _, _ => pure (.code n, ts)
  | _, some (kind, negated), _ => pure (.category kind negated, ts)
  | _, _, some width => do
    let (n, rest) ← readHexEscape c width ts
    pure (.code n, rest)
  | none, none, none => do
    let (n, rest) ←
      if c == 'N' then readNamedEscape ts
      else if Text.isOctalDigit c then readOctalEscape c ts
      else readPlainEscape c ts
    pure (.code n, rest)

/-- Behind a digit from one on: three octal digits are a code point, otherwise one or two digits
refer to a group. -/
def readDigitEscape (c : Char) (ts : List Token) : Read (Escape × List Token) := do
  let (more, rest) ← readUpTo (fun d => '0' ≤ d && d ≤ '9') 1 ts
  let (third, last) ←
    if (c :: more).all Text.isOctalDigit && !more.isEmpty then readUpTo Text.isOctalDigit 1 rest
    else pure ([], rest)
  if third.isEmpty then
    pure (.reference (Text.valueOf 10 (c :: more)) (more.length + 2), rest)
  else
    let digits := c :: more ++ third
    if Text.valueOf 8 digits ≤ 0o377 then pure (.code (Text.valueOf 8 digits), last)
    else fail (.octalOutOfRange (escapeText digits)) (charsLeft last + 4)

def readEscape (c : Char) (ts : List Token) : Read (Escape × List Token) :=
  match anchorEscape? c, categoryEscape? c, controlEscape? c, hexDigits? c with
  | some a, _, _, _ => pure (.anchor a, ts)
  | _, some (kind, negated), _, _ => pure (.category kind negated, ts)
  | _, _, some n, _ => pure (.code n, ts)
  | _, _, _, some width => do
    let (n, rest) ← readHexEscape c width ts
    pure (.code n, rest)
  | none, none, none, none =>
    if '1' ≤ c && c ≤ '9' then readDigitEscape c ts
    else do
      let (n, rest) ←
        if c == 'N' then readNamedEscape ts
        else if c == '0' then readOctalEscape c ts
        else readPlainEscape c ts
      pure (.code n, rest)

def isSpecial (c : Char) : Bool := "()[]\x7b\x7d?*+-|^$\\.&~# \t\n\r\x0b\x0c".toList.contains c

def literally (text : List Char) : List Char :=
  text.flatMap fun c => if isSpecial c then ['\\', c] else [c]

end UriRouting.Pattern
