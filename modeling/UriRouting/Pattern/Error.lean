import UriRouting.Text.Quoted

/-! # Why a pattern is refused -/

set_option autoImplicit false

namespace UriRouting.Pattern

inductive Cause where
  | danglingBackslash
  | incompleteEscape (escape : String)
  | badEscape (escape : String)
  | octalOutOfRange (escape : String)
  | missingNameBrace
  | unknownCharacterName (name : String)
  | missingName (what : String)
  | unterminatedName (terminator : Char)
  | badGroupName (name : String)
  | unknownGroupName (name : String)
  | badGroupNumber
  | invalidGroupReference (index : Nat)
  | openGroupReference
  | lookbehindGroupReference
  | redefinedGroup (name : String) (index previous : Nat)
  | unterminatedSet
  | badRange (low high : String)
  | repetitionTooLarge
  | minAboveMax
  | nothingToRepeat
  | multipleRepeat
  | unexpectedEnd
  | unknownExtension (text : String)
  | unterminatedComment
  | unterminatedGroup
  | unbalancedParenthesis
  | tooManyBranches
  | lateGlobalFlags
  | localeFlag
  | incompatibleFlags
  | unknownFlag
  | missingFlag
  | missingFlagEnd
  | missingColon
  | turnedOnGlobalFlag
  | turnedOffGlobalFlag
  | turnedOffRepertoire
  | turnedOnAndOff
  | lookbehindNotFixed
  | lookbehindTooLong
deriving DecidableEq, Repr

namespace Cause

def text : Cause → String
  | danglingBackslash => "bad escape (end of pattern)"
  | incompleteEscape escape => "incomplete escape " ++ escape
  | badEscape escape => "bad escape " ++ escape
  | octalOutOfRange escape => "octal escape value " ++ escape ++ " outside of range 0-0o377"
  | missingNameBrace => "missing \x7b"
  | unknownCharacterName name => "undefined character name " ++ Text.quoted name
  | missingName what => "missing " ++ what
  | unterminatedName terminator => "missing " ++ terminator.toString ++ ", unterminated name"
  | badGroupName name => "bad character in group name " ++ Text.quoted name
  | unknownGroupName name => "unknown group name " ++ Text.quoted name
  | badGroupNumber => "bad group number"
  | invalidGroupReference index => "invalid group reference " ++ toString index
  | openGroupReference => "cannot refer to an open group"
  | lookbehindGroupReference =>
    "cannot refer to group defined in the same lookbehind subpattern"
  | redefinedGroup name index previous =>
    "redefinition of group name " ++ Text.quoted name ++ " as group " ++ toString index ++
      "; was group " ++ toString previous
  | unterminatedSet => "unterminated character set"
  | badRange low high => "bad character range " ++ low ++ "-" ++ high
  | repetitionTooLarge => "the repetition number is too large"
  | minAboveMax => "min repeat greater than max repeat"
  | nothingToRepeat => "nothing to repeat"
  | multipleRepeat => "multiple repeat"
  | unexpectedEnd => "unexpected end of pattern"
  | unknownExtension text => "unknown extension ?" ++ text
  | unterminatedComment => "missing ), unterminated comment"
  | unterminatedGroup => "missing ), unterminated subpattern"
  | unbalancedParenthesis => "unbalanced parenthesis"
  | tooManyBranches => "conditional backref with more than two branches"
  | lateGlobalFlags => "global flags not at the start of the expression"
  | localeFlag => "bad inline flags: cannot use 'L' flag with a str pattern"
  | incompatibleFlags => "bad inline flags: flags 'a', 'u' and 'L' are incompatible"
  | unknownFlag => "unknown flag"
  | missingFlag => "missing flag"
  | missingFlagEnd => "missing -, : or )"
  | missingColon => "missing :"
  | turnedOnGlobalFlag => "bad inline flags: cannot turn on global flag"
  | turnedOffGlobalFlag => "bad inline flags: cannot turn off global flag"
  | turnedOffRepertoire => "bad inline flags: cannot turn off flags 'a', 'u' and 'L'"
  | turnedOnAndOff => "bad inline flags: flag turned on and off"
  | lookbehindNotFixed => "look-behind requires fixed-width pattern"
  | lookbehindTooLong => "looks too much behind"

end Cause

structure Error where
  cause : Cause
  position? : Option Nat
deriving DecidableEq, Repr

namespace Error

/-- In a pattern of several lines the place is given by line and column as well, both from one. -/
def place (pattern : List Char) (pos : Nat) : String :=
  let before := pattern.take pos
  let line := before.count '\n' + 1
  let column := (before.reverse.takeWhile (· != '\n')).length + 1
  " at position " ++ toString pos ++
    if pattern.contains '\n' then
      " (line " ++ toString line ++ ", column " ++ toString column ++ ")"
    else ""

def message (pattern : List Char) (e : Error) : String :=
  e.cause.text ++ (e.position?.map (place pattern)).getD ""

end Error

end UriRouting.Pattern
