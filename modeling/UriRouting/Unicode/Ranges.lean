/-! # Code point ranges

A character property is a list of closed ranges of code points. The tables of the sibling modules
follow version 14.0 of the standard. -/

set_option autoImplicit false

namespace UriRouting.Unicode

/-- Closed ranges of code points, ascending and apart. -/
abbrev Ranges := List (Nat × Nat)

namespace Ranges

def contains (rs : Ranges) (n : Nat) : Bool :=
  rs.any fun r => r.1 ≤ n && n ≤ r.2

def startOf? (rs : Ranges) (n : Nat) : Option Nat :=
  (rs.find? fun r => r.1 ≤ n && n ≤ r.2).map (·.1)

end Ranges

end UriRouting.Unicode
