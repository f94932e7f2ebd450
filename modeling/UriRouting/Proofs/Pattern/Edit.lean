import UriRouting.Pattern.Reader

/-! # What a step does to a draft

Reading goes step by step, and each step makes one of a few changes to the draft. `Edit` lists them,
sorted by what becomes of the open groups and the open set; the tokens that a step takes depend on
nothing else. -/

set_option autoImplicit false

namespace UriRouting.Pattern

/-- What a step does to the pieces of the open group. -/
inductive Change where
  | none
  | push (kind : PieceKind)
  | repeatLast
  | endBranch

/-- What the text of a pattern tells of an open group. -/
structure Shape where
  verbose : Bool
  kinds : List PieceKind
  /-- Whether the group is a condition, and if so whether its first branch is complete. -/
  condition? : Option Bool

def Change.apply : Change → Shape → Shape
  | none, s => s
  | push kind, s => { s with kinds := kind :: s.kinds }
  | repeatLast, s => { s with kinds := .repeated :: s.kinds.tail }
  | endBranch, s => { s with kinds := [], condition? := s.condition?.map fun _ => true }

theorem Change.verbose_apply (change : Change) (s : Shape) : (change.apply s).verbose = s.verbose := by
  cases change <;> rfl

/-- What a step does to the open groups and to the open set. -/
inductive Move where
  | stay (change : Change)
  /-- The set stays open, with or without members. -/
  | set (isEmpty : Bool)
  | closeSet
  /-- A group is opened, which may be a condition or have a name. -/
  | enter (verbose : Bool) (condition? : Option Bool) (name? : Option String)
  | leave

def Move.name? : Move → Option String
  | enter _ _ name? => name?
  | _ => none

namespace Node

/-- The groups of a node. -/
def indices : Node → List Nat
  | empty | code _ | notCode _ | any | oneOf _ _ | anchor _ | backref _ => []
  | seq a b | alt a b | conditional _ a b => a.indices ++ b.indices
  | group index body => index :: body.indices
  | flagged _ _ body | atomic body | repeated _ _ _ body | lookahead _ body
  | lookbehind _ _ body => body.indices

@[simp] theorem indices_ofSequence (nodes : List Node) :
    (ofSequence nodes).indices = nodes.flatMap indices := by
  induction nodes with
  | nil => rfl
  | cons node nodes ih => exact congrArg (node.indices ++ ·) ih

@[simp] theorem indices_ofBranches (nodes : List Node) :
    (ofBranches nodes).indices = nodes.flatMap indices := by
  induction nodes with
  | nil => rfl
  | cons node nodes ih =>
    cases nodes with
    | nil => simp [ofBranches]
    | cons other rest => simp [ofBranches, indices, ih]

end Node

/-- The groups that an open parenthesis brings with it. -/
def Opener.indices : Opener → List Nat
  | .capture index => [index]
  | .conditional _ (some yes) => yes.indices
  | _ => []

def Opener.condition? : Opener → Option Bool
  | .conditional _ yes? => some yes?.isSome
  | _ => none

def Frame.shape (f : Frame) : Shape := ⟨f.verbose, f.pieces.map (·.kind), f.opener.condition?⟩

/-- The fault that was known before a lookbehind. -/
def Opener.fault? : Opener → Option Cause
  | .behind _ _ fault? => fault?
  | _ => none

/-- The faults of lookbehinds that are remembered, those for when a group is closed included. -/
def Draft.faults (d : Draft) : List Cause :=
  d.fault?.toList ++ (d.frame :: d.outer).filterMap (·.opener.fault?)

theorem OpenSet.indices_node (set : OpenSet) : set.node.indices = [] := by
  rw [OpenSet.node]
  split
  · split <;> rfl
  · rfl

inductive Edit : Move → Draft → Draft → Prop where
  | same (d : Draft) : Edit (.stay .none) d d
  | push (d : Draft) (node : Node) (kind : PieceKind) (h : node.indices = []) :
      Edit (.stay (.push kind)) d (d.push node kind)
  | repeatLast {d : Draft} {piece : Piece} {left : Nat} (h : d.checkRepeatable left = .ok piece)
      (greed : Greed) (min : Nat) (max : Option Nat) :
      Edit (.stay .repeatLast) d (d.repeatLast piece greed min max)
  | endBranch {d next : Draft} {left : Nat} (h : d.endBranch left = .ok next) :
      Edit (.stay .endBranch) d next
  | keepSet (d : Draft) (set : OpenSet) :
      Edit (.set set.items.isEmpty) d { d with set? := some set }
  | closeSet (d : Draft) (set : OpenSet) :
      Edit .closeSet d ({ d with set? := none }.push set.node)
  | enter (d : Draft) (opener : Opener) (h : opener.indices = [])
      (hFault : opener.fault? = none ∨ opener.fault? = d.fault?) (start : Nat) (verbose : Bool)
      (behindLimit? : Option Nat) (mentions : List (Nat × Nat)) :
      Edit (.enter verbose opener.condition? none) d
        { d.openFrame opener start verbose with behindLimit?, mentions }
  | capture {d next : Draft} {name? : Option String} {start left : Nat}
      (h : d.openCapture name? start left = .ok next) : Edit (.enter d.frame.verbose none name?) d next
  | leave {d next : Draft} {left : Nat} (h : d.closeFrame left = .ok next) : Edit .leave d next

end UriRouting.Pattern
