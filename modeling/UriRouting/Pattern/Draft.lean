import UriRouting.Pattern.Escape
import UriRouting.Pattern.Width
import UriRouting.Unicode.Word

/-! # A pattern while it is being read

A draft holds the group that is being read, the groups around it, and what is known of the groups
met so far. The steps of this module add one thing to it and say when that is an error; finding the
steps in the text is left to the reader. -/

set_option autoImplicit false

namespace UriRouting.Pattern

inductive PieceKind where
  | ordinary | anchor | repeated
deriving DecidableEq, Repr

structure Piece where
  node : Node
  kind : PieceKind := .ordinary

inductive Opener where
  | plain
  | capture (index : Nat)
  | flagged (on off : List Flag)
  | atomic
  | ahead (negated : Bool)
  /-- Keeps the limit and the fault that were known before it. -/
  | behind (negated : Bool) (limit? : Option Nat) (fault? : Option Cause)
  /-- The branch for a group that took part, once it is complete. -/
  | conditional (index : Nat) (yes? : Option Node)

structure Frame where
  opener : Opener
  /-- Characters left at the opening parenthesis. -/
  start : Nat
  verbose : Bool
  /-- Complete branches, the last one first. -/
  branches : List Node := []
  /-- The pieces of the current branch, the last one first. -/
  pieces : List Piece := []

namespace Frame

def sequence (f : Frame) : Node := .ofSequence (f.pieces.reverse.map (·.node))

def body (f : Frame) : Node := .ofBranches (f.branches.reverse ++ [f.sequence])

end Frame

structure OpenSet where
  /-- Characters left at the opening bracket. -/
  start : Nat
  negated : Bool
  /-- The last one first. -/
  items : List SetItem := []

namespace OpenSet

def node (s : OpenSet) : Node :=
  match s.items.reverse.eraseDups with
  | [.code n] => if s.negated then .notCode n else .code n
  | items => .oneOf s.negated items

end OpenSet

structure Draft where
  frame : Frame
  outer : List Frame := []
  set? : Option OpenSet := none
  /-- The widths of the groups by index; group zero and open groups have none. -/
  groups : List (Option Width) := [none]
  names : List (String × Nat) := []
  /-- Inside a lookbehind, the groups that existed before it. -/
  behindLimit? : Option Nat := none
  /-- Groups that conditions named by number, with the characters left at the first mention. -/
  mentions : List (Nat × Nat) := []
  globalFlags : List Flag := []
  /-- The first lookbehind whose width is wrong; reported only if the pattern is complete. -/
  fault? : Option Cause := none

namespace Draft

def start : Draft := { frame := { opener := .plain, start := 0, verbose := false } }

def push (d : Draft) (node : Node) (kind : PieceKind := .ordinary) : Draft :=
  { d with frame := { d.frame with pieces := ⟨node, kind⟩ :: d.frame.pieces } }

def isClosed (d : Draft) (index : Nat) : Bool := (d.groups[index]?.join).isSome

def widthOf (d : Draft) (index : Nat) : Width := (d.groups[index]?.join).getD (.exactly 0)

def nodeWidth (d : Draft) (node : Node) : Width := node.width d.widthOf

/-- Inside a lookbehind, only groups that were complete before it may be referred to. -/
def checkBehind (d : Draft) (index left : Nat) : Read Unit :=
  match d.behindLimit? with
  | none => pure ()
  | some limit =>
    if !d.isClosed index then fail .openGroupReference left
    else if limit ≤ index then fail .lookbehindGroupReference left
    else pure ()

/-- A back reference whose text had `length` characters and ends with `left` characters left. -/
def refer (d : Draft) (index length left : Nat) : Read Draft := do
  if !d.isClosed index then fail .openGroupReference (left + length)
  d.checkBehind index left
  pure (d.push (.backref index))

def referByNumber (d : Draft) (index length left : Nat) : Read Draft :=
  if index < d.groups.length then d.refer index length left
  else fail (.invalidGroupReference index) (left + length - 1)

def referByName (d : Draft) (name : String) (left : Nat) : Read Draft :=
  match d.names.lookup name with
  | none => fail (.unknownGroupName name) (left + name.length + 1)
  | some index => d.refer index (name.length + 1) left

def conditionGroup (d : Draft) (name : String) (left : Nat) : Read (Nat × Draft) :=
  let place := left + name.length + 1
  if Unicode.isIdentifier name.toList then
    match d.names.lookup name with
    | none => fail (.unknownGroupName name) place
    | some index => pure (index, d)
  else
    match Text.readInteger? 10 name.toList with
    | some (.ofNat index) =>
      if index = 0 then fail .badGroupNumber place
      else if 1073741823 ≤ index then fail (.invalidGroupReference index) place
      else
        let known := (d.mentions.lookup index).isSome
        pure (index, if known then d else { d with mentions := d.mentions ++ [(index, place)] })
    | _ => fail (.badGroupName name) place

def openFrame (d : Draft) (opener : Opener) (start : Nat) (verbose : Bool) : Draft :=
  { d with frame := { opener, start, verbose }, outer := d.frame :: d.outer }

/-- Opens a group, which takes the next index; `left` is counted from behind the name. -/
def openCapture (d : Draft) (name? : Option String) (start left : Nat) : Read Draft :=
  let index := d.groups.length
  let opened := { d with groups := d.groups ++ [none] }.openFrame (.capture index) start d.frame.verbose
  match name? with
  | none => pure opened
  | some name =>
    match d.names.lookup name with
    | some previous => fail (.redefinedGroup name index previous) (left + name.length + 1)
    | none => pure { opened with names := d.names ++ [(name, index)] }

def openBehind (d : Draft) (negated : Bool) (start : Nat) : Draft :=
  let opened := d.openFrame (.behind negated d.behindLimit? d.fault?) start d.frame.verbose
  { opened with behindLimit? := d.behindLimit?.or (some d.groups.length) }

def openFlagged (d : Draft) (on off : List Flag) (start : Nat) : Draft :=
  d.openFrame (.flagged on off) start
    ((d.frame.verbose || on.contains .verbose) && !off.contains .verbose)

def addGlobalFlags (d : Draft) (on : List Flag) (start : Nat) : Read Draft :=
  if d.outer.isEmpty && d.frame.branches.isEmpty && d.frame.pieces.isEmpty then
    let flags := d.globalFlags ++ on
    pure { d with
      globalFlags := flags
      frame := { d.frame with verbose := flags.contains .verbose } }
  else fail .lateGlobalFlags start

/-- Repeats the last piece; `left` is counted from the start of the quantifier. -/
def checkRepeatable (d : Draft) (left : Nat) : Read Piece :=
  match d.frame.pieces with
  | [] => fail .nothingToRepeat left
  | piece :: _ =>
    match piece.kind with
    | .anchor => fail .nothingToRepeat left
    | .repeated => fail .multipleRepeat left
    | .ordinary => pure piece

def repeatLast (d : Draft) (piece : Piece) (greed : Greed) (min : Nat) (max : Option Nat) : Draft :=
  let node := Node.repeated greed min max piece.node
  { d with frame := { d.frame with pieces := ⟨node, .repeated⟩ :: d.frame.pieces.tail } }

def endBranch (d : Draft) (left : Nat) : Read Draft :=
  match d.frame.opener with
  | .conditional index none =>
    pure { d with frame :=
      { d.frame with opener := .conditional index (some d.frame.sequence), pieces := [] } }
  | .conditional _ (some _) => fail .tooManyBranches left
  | _ =>
    pure { d with frame :=
      { d.frame with branches := d.frame.sequence :: d.frame.branches, pieces := [] } }

def behindFault? (w : Width) : Option Cause :=
  if 4294967295 < w.low then some .lookbehindTooLong
  else if w.fixed?.isSome then none
  else some .lookbehindNotFixed

def closeFrame (d : Draft) (left : Nat) : Read Draft :=
  match d.outer with
  | [] => fail .unbalancedParenthesis left
  | parent :: outer =>
    let body := d.frame.body
    let closed := { d with frame := parent, outer }
    match d.frame.opener with
    | .plain => pure (closed.push body)
    | .capture index =>
      pure ({ closed with groups := d.groups.set index (some (d.nodeWidth body)) }.push
        (.group index body))
    | .flagged on off => pure (closed.push (.flagged on off body))
    | .atomic => pure (closed.push (.atomic body))
    | .ahead negated => pure (closed.push (.lookahead negated body))
    | .behind negated limit? before? =>
      let width := d.nodeWidth body
      pure ({ closed with
        behindLimit? := limit?
        fault? := (before?.or (behindFault? width)).or d.fault? }.push
          (.lookbehind negated width.low body))
    | .conditional index none => pure (closed.push (.conditional index d.frame.sequence .empty))
    | .conditional index (some yes) => pure (closed.push (.conditional index yes d.frame.sequence))

def finish (d : Draft) : Read Compiled :=
  match d.set?, d.outer with
  | some set, _ => fail .unterminatedSet set.start
  | none, _ :: _ => fail .unterminatedGroup d.frame.start
  | none, [] =>
    match d.mentions.find? fun mention => d.groups.length ≤ mention.1 with
    | some (index, left) => fail (.invalidGroupReference index) left
    | none =>
      match d.fault? with
      | some cause => .error ⟨cause, none⟩
      | none => pure ⟨d.frame.body, Mode.change {} d.globalFlags [], d.names⟩

end Draft

end UriRouting.Pattern
