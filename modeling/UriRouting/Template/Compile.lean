import UriRouting.Log
import UriRouting.OrderedMap
import UriRouting.Pattern.Escape
import UriRouting.Pattern.Match
import UriRouting.Pattern.Reader
import UriRouting.Template.Field
import UriRouting.Template.Segment
import UriRouting.Text.Digits

/-! # Compiled templates

A template becomes one pattern that has to match a whole path. Each field is a named group of its own
in it, in the order of the template, so that what the groups take lines up with the names of the
fields. A slash and an asterisk in literal text stand for a slash and any text on one line. -/

set_option autoImplicit false

namespace UriRouting

namespace Template

structure Field where
  /-- The field expression as it was written. -/
  source : String
  name : String
  pattern : String
  wildcard : Bool
deriving DecidableEq, Repr

inductive Token where
  | literal (text : String)
  | field (f : Field)
deriving DecidableEq, Repr

namespace Token

def source : Token → String
  | literal text => text
  | field f => f.source

def field? : Token → Option Field
  | literal _ => none
  | field f => some f

end Token

def wildcardPattern : String := ".*"

def defaultPattern : String := "[^/]*"

structure PatternSource where
  explicit : OrderedMap String String := []
  inferred : String → Option String := fun _ => none

/-- A pattern given by name comes first, then what the field expression says, then the type. -/
def PatternSource.patternOf (p : PatternSource) (f : FieldExpr) : String :=
  match p.explicit.get? f.name with
  | some pattern => pattern
  | none =>
    if f.wildcard then wildcardPattern
    else (f.pattern?.or (p.inferred f.name)).getD defaultPattern

def groupName (index : Nat) : String := "_p" ++ toString index

def literalPattern (text : List Char) : List Char :=
  let (first, more) := Text.splitOnPair '/' '*' text
  Pattern.literally first ++ more.flatMap fun part => '/' :: wildcardPattern.toList ++ Pattern.literally part

def fieldPattern (index : Nat) (f : Field) : List Char :=
  "(?P<".toList ++ (groupName index).toList ++ '>' :: f.pattern.toList ++ [')']

/-- The patterns of tokens one after the other; `index` counts the fields in front of them. -/
def patternOfTokens (index : Nat) : List Token → List Char
  | [] => []
  | .literal text :: rest => literalPattern text.toList ++ patternOfTokens index rest
  | .field f :: rest => fieldPattern index f ++ patternOfTokens (index + 1) rest

def readToken (p : PatternSource) : Segment → Except Reason Token
  | .literal text => do
    checkLiteral text
    pure (.literal (String.ofList text))
  | .field content => do
    let f ← readField content
    pure (.field ⟨String.ofList (Segment.field content).source, f.name, p.patternOf f, f.wildcard⟩)

def readTokens (p : PatternSource) (template : List Char) : Except Reason (List Token) :=
  (segments template).mapM (readToken p)

end Template

structure Template where
  source : String
  tokens : List Template.Token
  /-- The pattern of the whole template, as text and ready for matching. -/
  pattern : List Char
  matcher : Pattern.Compiled

namespace Template

def fields (t : Template) : List Field := t.tokens.filterMap Token.field?

def names (t : Template) : List String := t.fields.map Field.name

/-- The pattern of each field name. Of several fields of one name the last one counts. -/
def patterns (t : Template) : OrderedMap String String :=
  OrderedMap.ofList (t.fields.map fun f => (f.name, f.pattern))

def compile (p : PatternSource) (template : String) : Except Error Template :=
  match readTokens p template.toList with
  | .error reason => throw (.malformed template reason)
  | .ok tokens =>
    let pattern := patternOfTokens 0 tokens
    match Pattern.compile pattern with
    | .ok matcher => pure ⟨template, tokens, pattern, matcher⟩
    | .error ⟨.repetitionTooLarge, _⟩ => throw .repetitionTooLarge
    | .error e => throw (.malformed template (.invalidPattern pattern e))

def namesIn (template : String) : Except Error (List String) :=
  let names := (segments template.toList).filterMapM fun
    | .literal _ => pure none
    | .field content => do
      let f ← readField content
      pure (some f.name)
  names.mapError (.malformed template)

def mapLiteral (m : OrderedMap String String) : String :=
  "\x7b" ++ ", ".intercalate (m.map fun entry => Text.quoted entry.1 ++ ": " ++ Text.quoted entry.2) ++
    "\x7d"

/-- What compiling reports: fields that take whatever is left though something follows, then the
pattern. -/
def records (t : Template) : List Record :=
  let warnings := (t.tokens.dropLast.filterMap Token.field?).filter Field.wildcard |>.map fun f =>
    ⟨.warning, "Wildcard field \"" ++ f.name ++ "\" in URI template " ++ t.source ++
      " is not at the end of the template"⟩
  warnings ++ [⟨.debug, "For " ++ t.source ++ " retrieved " ++ String.ofList t.pattern ++ " with " ++
    mapLiteral t.patterns⟩]

/-- A field pattern swallowed the group of another field, so that there is nothing to read from it. -/
inductive CaptureError where
  | missingGroup
deriving DecidableEq, Repr

def accepts (t : Template) (path : List Char) : Bool := t.matcher.fullyMatches path

/-- What the fields of a template take of a path, in its order. A field whose group took no part has
no text; a path that does not match has none at all. -/
def captures (t : Template) (path : List Char) : Except CaptureError (List (Option (List Char))) :=
  match t.matcher.fullMatch? path with
  | none => pure []
  | some marks =>
    (List.range t.names.length).mapM fun i =>
      match t.matcher.groupIndex? (groupName i) with
      | some index => pure (marks.captured? path index)
      | none => throw .missingGroup

def literal (t : Template) : String :=
  "<CompiledTemplate: " ++ Text.quoted t.source ++ " -> " ++
    Text.quoted (String.ofList t.pattern) ++ ">"

theorem source_readToken {p : PatternSource} {s : Segment} {t : Token}
    (h : readToken p s = .ok t) : t.source.toList = s.source := by
  cases s with
  | literal text =>
    rw [readToken] at h
    cases hc : checkLiteral text with
    | error => rw [hc] at h; cases h
    | ok => rw [hc] at h; cases h; simp [Token.source, Segment.source]
  | field content =>
    rw [readToken] at h
    cases hf : readField content with
    | error => rw [hf] at h; cases h
    | ok f => rw [hf] at h; cases h; simp [Token.source]

end Template

end UriRouting
