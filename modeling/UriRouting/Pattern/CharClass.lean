import UriRouting.Pattern.Basic
import UriRouting.Unicode.Blank
import UriRouting.Unicode.Case
import UriRouting.Unicode.Word

/-! # Which characters a one-character node takes -/

set_option autoImplicit false

namespace UriRouting.Pattern

namespace Mode

def isWord (m : Mode) (c : Char) : Bool :=
  if m.ascii then Unicode.isAsciiWord c else Unicode.isWord c

def sameCode (m : Mode) (n : Nat) (c : Char) : Bool :=
  if m.ignoreCase then
    if m.ascii then Unicode.asciiLowerCode n == Unicode.asciiLowerCode c.toNat
    else Unicode.equalUpToCase n c.toNat
  else n == c.toNat

def variants (m : Mode) (c : Char) : List Nat :=
  if m.ignoreCase then
    if m.ascii then
      if Unicode.isAsciiLetter c then [c.toNat ||| 0x20, c.toNat &&& 0x5F] else [c.toNat]
    else Unicode.caseVariants c.toNat
  else [c.toNat]

def inCategory (m : Mode) (c : Char) : Category → Bool
  | .digit => if m.ascii then Unicode.isAsciiDigit c else Unicode.isDecimalDigit c
  | .space => if m.ascii then Unicode.isAsciiBlank c else Unicode.isBlank c
  | .word => m.isWord c

/-- Beyond the basic plane a code point in a set is compared with the lower-case form alone. -/
def inItem (m : Mode) (c : Char) : SetItem → Bool
  | .code n =>
    if n ≤ 0xFFFF then m.sameCode n c
    else n == if m.ignoreCase && !m.ascii then Unicode.lowerCode c.toNat else c.toNat
  | .range low high => (m.variants c).any fun n => low ≤ n && n ≤ high
  | .category kind negated => m.inCategory c kind != negated

def inSet (m : Mode) (c : Char) (negated : Bool) (items : List SetItem) : Bool :=
  items.any (m.inItem c) != negated

def sameChar (m : Mode) (a b : Char) : Bool :=
  if m.ignoreCase then
    if m.ascii then Unicode.asciiLowerCode a.toNat == Unicode.asciiLowerCode b.toNat
    else Unicode.lowerCode a.toNat == Unicode.lowerCode b.toNat
  else a == b

end Mode

end UriRouting.Pattern
