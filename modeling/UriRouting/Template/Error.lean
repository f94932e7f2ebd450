import UriRouting.Pattern.Error
import UriRouting.Text.Quoted

/-! # Malformed templates -/

set_option autoImplicit false

namespace UriRouting

namespace Template

inductive Reason where
  | notText
  | emptyField
  | unbalancedBraces
  | emptyPattern (name : String)
  | unnamedField (content : String)
  | braceInName (name : String)
  /-- A field pattern cannot be read, or breaks the pattern of the whole template. -/
  | invalidPattern (pattern : List Char) (e : Pattern.Error)
deriving DecidableEq, Repr

namespace Reason

def text : Reason → String
  | notText => "the template must be a string"
  | emptyField => "empty field expression \"\x7b\x7d\""
  | unbalancedBraces => "unbalanced braces"
  | emptyPattern name => "empty pattern for field \"" ++ name ++ "\""
  | unnamedField content => "field expression \"\x7b" ++ content ++ "\x7d\" has no name"
  | braceInName name => "field name \"" ++ name ++ "\" contains a brace"
  | invalidPattern pattern e => "invalid field pattern (" ++ e.message pattern ++ ")"

end Reason

inductive Error where
  | malformed (template : String) (reason : Reason)
  /-- A field pattern asks for more repetitions than can be counted. -/
  | repetitionTooLarge
deriving DecidableEq, Repr

def Error.message : Error → String
  | malformed template reason =>
    "Malformed URI template " ++ Text.quoted template ++ ": " ++ reason.text
  | repetitionTooLarge => Pattern.Cause.repetitionTooLarge.text

end Template

end UriRouting
