import UriRouting.Pattern.Basic

/-! # Widths

The least and the greatest number of characters that a node can take, the latter `none` if there is
no bound. Only nodes of one fixed width may be looked for behind a position. -/

set_option autoImplicit false

namespace UriRouting.Pattern

structure Width where
  low : Nat
  high : Option Nat
deriving DecidableEq, Repr

namespace Width

def exactly (n : Nat) : Width := ⟨n, some n⟩

def add (a b : Width) : Width :=
  ⟨a.low + b.low, match a.high, b.high with
    | some x, some y => some (x + y)
    | _, _ => none⟩

def join (a b : Width) : Width :=
  ⟨min a.low b.low, match a.high, b.high with
    | some x, some y => some (max x y)
    | _, _ => none⟩

def repeated (min : Nat) (max : Option Nat) (w : Width) : Width :=
  ⟨w.low * min, match w.high, max with
    | some 0, _ => some 0
    | _, some 0 => some 0
    | some high, some n => some (high * n)
    | _, _ => none⟩

def fixed? (w : Width) : Option Nat := if w.high = some w.low then some w.low else none

end Width

def Node.width (groups : Nat → Width) : Node → Width
  | empty | anchor _ | lookahead .. | lookbehind .. => .exactly 0
  | code _ | notCode _ | any | oneOf .. => .exactly 1
  | seq first rest => (first.width groups).add (rest.width groups)
  | alt left right => (left.width groups).join (right.width groups)
  | group _ body | flagged _ _ body | atomic body => body.width groups
  | repeated _ min max body => .repeated min max (body.width groups)
  | backref index => groups index
  | conditional _ yes no => (yes.width groups).join (no.width groups)

end UriRouting.Pattern
