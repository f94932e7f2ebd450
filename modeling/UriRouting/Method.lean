import UriRouting.Text.Split
import UriRouting.Unicode.Blank
import UriRouting.Unicode.Case

/-! # Request methods and priorities -/

set_option autoImplicit false

namespace UriRouting

namespace Method

/-- The methods of RFC 7231 and RFC 5789. -/
def http : List String :=
  ["CONNECT", "DELETE", "GET", "HEAD", "OPTIONS", "PATCH", "POST", "PUT", "TRACE"]

/-- The methods of RFC 2518 and its extensions. -/
def webdav : List String :=
  ["CHECKIN", "CHECKOUT", "COPY", "LOCK", "MKCOL", "MOVE", "PROPFIND", "PROPPATCH", "REPORT",
   "UNCHECKIN", "UNLOCK", "UPDATE", "VERSION-CONTROL"]

def upper (s : String) : String := String.ofList (Unicode.upper s.toList)

def custom (setting : String) : List String :=
  (((Text.parts ',' setting.toList).map Unicode.trim).filter (!·.isEmpty)).map fun name =>
    String.ofList (Unicode.upper name)

def combined (setting : String) : List String := http ++ webdav ++ custom setting

def standard? (allowed : List String) (s : String) : Option String :=
  let name := String.ofList (Unicode.upper (Unicode.trim s.toList))
  if name ∈ allowed then some name else none

def listText (methods : List String) : String :=
  if methods.isEmpty then "[ALL]"
  else "[" ++ ", ".intercalate (methods.mergeSort (· ≤ ·)) ++ "]"

end Method

namespace Priority

/-- Priorities with a name. Routes of a lower value are tried first. -/
def named : List (String × Int) :=
  [("HIGHEST", 0), ("HIGH", 10), ("DEFAULT", 20), ("LOW", 30), ("LOWEST", 40)]

def lowest : Int := 40

end Priority

def defaultEncoding : String := "utf-8"

end UriRouting
