import UriRouting.Pattern.Match

/-! # The path of a request

What is matched is the text in front of the query, less a session id at its end. -/

set_option autoImplicit false

namespace UriRouting.Router

def sessionMarker : List Char := ";jsessionid=".toList

/-- A marker in any case, and the rest of a line that is the last one. -/
def sessionPattern : Pattern.Compiled where
  node := .ofSequence ((sessionMarker.map fun c => .code c.toNat) ++
    [.repeated .greedy 0 none .any, .anchor .lineEnd])
  mode := { ignoreCase := true }

def withoutSession? (text : List Char) (pos : Nat) : Option (List Char) :=
  (sessionPattern.node.run text sessionPattern.mode some ⟨pos, text.drop pos, []⟩).map fun s =>
    text.take pos ++ s.rest

/-- Removes the first session id. Behind it there is a line break at most, and so no other one. -/
def dropSession (text : List Char) : List Char :=
  ((List.range text.length).findSome? (withoutSession? text)).getD text

def requestPath (uri : List Char) : List Char := dropSession (uri.takeWhile (· ≠ '?'))

end UriRouting.Router
