/-! # Patterns

The syntax of field patterns. Flags are not resolved here: a node that changes them keeps the change,
and matching carries the mode in force. Characters are given by their code points, since a pattern
may name a code point that is no character. -/

set_option autoImplicit false

namespace UriRouting.Pattern

inductive Flag where
  | ignoreCase | locale | multiline | dotAll | verbose | ascii | template | unicode
deriving DecidableEq, Repr

namespace Flag

def ofLetter? : Char → Option Flag
  | 'i' => some ignoreCase
  | 'L' => some locale
  | 'm' => some multiline
  | 's' => some dotAll
  | 'x' => some verbose
  | 'a' => some ascii
  | 't' => some template
  | 'u' => some unicode
  | _ => none

/-- Flags that choose a character repertoire; at most one of them is in force. -/
def isRepertoire : Flag → Bool
  | locale | ascii | unicode => true
  | _ => false

end Flag

structure Mode where
  ignoreCase : Bool := false
  multiline : Bool := false
  dotAll : Bool := false
  ascii : Bool := false
deriving DecidableEq, Repr

namespace Mode

def change (m : Mode) (on off : List Flag) : Mode where
  ignoreCase := (m.ignoreCase || on.contains .ignoreCase) && !off.contains .ignoreCase
  multiline := (m.multiline || on.contains .multiline) && !off.contains .multiline
  dotAll := (m.dotAll || on.contains .dotAll) && !off.contains .dotAll
  ascii := on.contains .ascii || (m.ascii && !on.contains .unicode)

end Mode

inductive Category where
  | digit | space | word
deriving DecidableEq, Repr

inductive SetItem where
  | code (n : Nat)
  | range (low high : Nat)
  | category (kind : Category) (negated : Bool)
deriving DecidableEq, Repr

inductive Anchor where
  | lineStart | lineEnd | textStart | textEnd | wordBoundary | noWordBoundary
deriving DecidableEq, Repr

/-- The order in which a repetition tries its counts. A possessive one never gives back. -/
inductive Greed where
  | greedy | lazy | possessive
deriving DecidableEq, Repr

inductive Node where
  | empty
  | code (n : Nat)
  | notCode (n : Nat)
  | any
  | oneOf (negated : Bool) (items : List SetItem)
  | anchor (a : Anchor)
  | seq (first rest : Node)
  | alt (left right : Node)
  | group (index : Nat) (body : Node)
  | flagged (on off : List Flag) (body : Node)
  | atomic (body : Node)
  | repeated (greed : Greed) (min : Nat) (max : Option Nat) (body : Node)
  | backref (index : Nat)
  | lookahead (negated : Bool) (body : Node)
  /-- `width` is the number of characters that `body` takes. -/
  | lookbehind (negated : Bool) (width : Nat) (body : Node)
  | conditional (index : Nat) (yes no : Node)
deriving DecidableEq, Repr

namespace Node

def ofSequence (nodes : List Node) : Node := nodes.foldr seq empty

def ofBranches : List Node → Node
  | [] => empty
  | [node] => node
  | node :: rest => alt node (ofBranches rest)

end Node

structure Compiled where
  node : Node
  mode : Mode := {}
  names : List (String × Nat) := []
deriving DecidableEq, Repr

namespace Compiled

def groupIndex? (p : Compiled) (name : String) : Option Nat := p.names.lookup name

end Compiled

end UriRouting.Pattern
