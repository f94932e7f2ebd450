import UriRouting.Proofs.Pattern.Carrying
import UriRouting.Proofs.Pattern.Renaming
import UriRouting.Proofs.Pattern.Run

/-! # The same pattern inside a group

A pattern that can be read alone can be read in a group of a larger pattern, and there it becomes the
same node with its groups under other numbers, as long as it refers to no group by number, sets no flags
for the whole and takes no name that is taken. `Embeds` is what the two readings keep. -/

set_option autoImplicit false

namespace UriRouting.Pattern

/-! ## Numbers inside a larger pattern -/

/-- The number that a group gets where `known` numbers are given away, that of the whole among them. -/
def renumber (known : Nat) : Nat → Nat
  | 0 => 0
  | i + 1 => known + i

section Renumber

variable {known : Nat} (h : 0 < known)

include h

theorem renumber_le_iff {i j : Nat} : renumber known i ≤ renumber known j ↔ i ≤ j := by
  cases i <;> cases j <;> simp only [renumber] <;> omega

theorem renumber_injective : (renumber known).Injective := by
  intro i j hEq
  have hLe := (renumber_le_iff h).mp (Nat.le_of_eq hEq)
  have hGe := (renumber_le_iff h).mp (Nat.le_of_eq hEq.symm)
  exact Nat.le_antisymm hLe hGe

end Renumber

namespace Node

theorem rename_ofSequence (f : Nat → Nat) (nodes : List Node) :
    (ofSequence nodes).rename f = ofSequence (nodes.map (·.rename f)) := by
  induction nodes with
  | nil => rfl
  | cons node nodes ih => exact congrArg (seq (node.rename f)) ih

theorem rename_ofBranches (f : Nat → Nat) (nodes : List Node) :
    (ofBranches nodes).rename f = ofBranches (nodes.map (·.rename f)) := by
  induction nodes with
  | nil => rfl
  | cons node nodes ih =>
    cases nodes with
    | nil => rfl
    | cons other rest => exact congrArg (alt (node.rename f)) ih

theorem width_rename (f : Nat → Nat) (groups : Nat → Width) (node : Node) :
    (node.rename f).width groups = node.width fun i => groups (f i) := by
  induction node with
  | seq first rest ihFirst ihRest => exact congrArg₂ Width.add ihFirst ihRest
  | alt left right ihLeft ihRight => exact congrArg₂ Width.join ihLeft ihRight
  | conditional index yes no ihYes ihNo => exact congrArg₂ Width.join ihYes ihNo
  | group index body ih => exact ih
  | flagged on off body ih => exact ih
  | atomic body ih => exact ih
  | repeated greed min max body ih => exact congrArg (Width.repeated min max) ih
  | _ => rfl

end Node

theorem OpenSet.rename_node (f : Nat → Nat) (set : OpenSet) : set.node.rename f = set.node := by
  rw [node]
  split
  · split <;> rfl
  · rfl

theorem lookup_map_snd {α β γ : Type} [BEq α] (f : β → γ) (entries : List (α × β)) (key : α) :
    (entries.map fun entry => (entry.1, f entry.2)).lookup key = (entries.lookup key).map f := by
  induction entries with
  | nil => rfl
  | cons entry rest ih =>
    rw [List.map_cons, List.lookup_cons, List.lookup_cons, ih]
    cases key == entry.1 <;> rfl

/-! ## Frames -/

def Opener.rename (f : Nat → Nat) : Opener → Opener
  | plain => plain
  | capture index => capture (f index)
  | flagged on off => flagged on off
  | atomic => atomic
  | ahead negated => ahead negated
  | behind negated limit? fault? => behind negated (limit?.map f) fault?
  | conditional index yes? => conditional (f index) (yes?.map (·.rename f))

theorem Opener.condition?_rename (f : Nat → Nat) (opener : Opener) :
    (opener.rename f).condition? = opener.condition? := by
  cases opener with
  | conditional index yes? => cases yes? <;> rfl
  | _ => rfl

theorem Opener.eq_of_condition? {opener : Opener} {complete : Bool}
    (h : opener.condition? = some complete) : ∃ index yes?, opener = .conditional index yes? := by
  cases opener with
  | conditional index yes? => exact ⟨index, yes?, rfl⟩
  | _ => cases h

theorem Draft.endBranch_eq_ok {d : Draft} (h : d.frame.opener.condition? = none) (left : Nat) :
    d.endBranch left = .ok { d with frame :=
      { d.frame with branches := d.frame.sequence :: d.frame.branches, pieces := [] } } := by
  unfold endBranch
  split
  · rename_i hOpener
    rw [hOpener] at h
    cases h
  · rename_i hOpener
    rw [hOpener] at h
    cases h
  · rfl

def Piece.rename (f : Nat → Nat) (p : Piece) : Piece := { p with node := p.node.rename f }

/-- The frames hold the same, with the groups under other numbers. -/
structure Frame.Renamed (f : Nat → Nat) (g G : Frame) : Prop where
  verbose : G.verbose = g.verbose
  branches : G.branches = g.branches.map (·.rename f)
  pieces : G.pieces = g.pieces.map (·.rename f)

namespace Frame.Renamed

variable {f : Nat → Nat} {g G : Frame}

theorem sequence (h : Renamed f g G) : G.sequence = g.sequence.rename f := by
  rw [Frame.sequence, Frame.sequence, Node.rename_ofSequence, h.pieces, ← List.map_reverse,
    List.map_map, List.map_map]
  rfl

theorem body (h : Renamed f g G) : G.body = g.body.rename f := by
  rw [Frame.body, Frame.body, Node.rename_ofBranches, h.branches, h.sequence, List.map_append,
    List.map_reverse]
  rfl

end Frame.Renamed

/-- The frames of a pattern alone, and of the pattern in a group: that group takes the place of the
whole, and stands in the frames `outer`. -/
inductive Stacked (f : Nat → Nat) (field : Opener) (outer : List Frame) : List Frame → List Frame → Prop
  | field {g G : Frame} (h : g.Renamed f G) (hPlain : g.opener = .plain) (hField : G.opener = field)
      (hVerbose : g.verbose = false) : Stacked f field outer [g] (G :: outer)
  | inner {g G : Frame} {gs Gs : List Frame} (h : g.Renamed f G) (hOpener : G.opener = g.opener.rename f)
      (hCapture : g.opener ≠ .capture 0) (hOuter : Stacked f field outer gs Gs) :
      Stacked f field outer (g :: gs) (G :: Gs)

namespace Stacked

variable {f : Nat → Nat} {field : Opener} {outer gs Gs : List Frame} {g g' G G' : Frame}

theorem head (h : Stacked f field outer (g :: gs) (G :: Gs)) : g.Renamed f G := by
  cases h with
  | field h => exact h
  | inner h => exact h

theorem changed (h : Stacked f field outer (g :: gs) (G :: Gs)) (hHead : g'.Renamed f G')
    (hOpener : g'.opener = g.opener) (hOpener' : G'.opener = G.opener)
    (hVerbose : g'.verbose = g.verbose) : Stacked f field outer (g' :: gs) (G' :: Gs) := by
  cases h with
  | field _ hPlain hField hAlone =>
    exact .field hHead (hOpener.trans hPlain) (hOpener'.trans hField) (hVerbose.trans hAlone)
  | inner _ hRenamed hCapture hOuter =>
    refine .inner hHead ?_ (hOpener ▸ hCapture) hOuter
    rw [hOpener', hOpener, hRenamed]

theorem cons_cases (h : Stacked f field outer (g :: gs) (G :: Gs)) :
    (gs = [] ∧ Gs = outer ∧ g.opener = .plain ∧ G.opener = field ∧ g.verbose = false) ∨
      (G.opener = g.opener.rename f ∧ g.opener ≠ .capture 0 ∧ Stacked f field outer gs Gs) := by
  cases h with
  | field _ hPlain hField hVerbose => exact .inl ⟨rfl, rfl, hPlain, hField, hVerbose⟩
  | inner _ hOpener hCapture hOuter => exact .inr ⟨hOpener, hCapture, hOuter⟩

theorem exists_cons (h : Stacked f field outer (g :: gs) Gs) : ∃ G Gs', Gs = G :: Gs' := by
  cases h <;> exact ⟨_, _, rfl⟩

end Stacked

/-! ## Drafts -/

/-- A group that takes a number has just been opened, outside of any lookbehind. -/
structure JustOpened (base : Draft) (index : Nat) : Prop where
  set : base.set? = none
  frame : ∃ start, base.frame = { opener := .capture index, start, verbose := false }
  groups : base.groups.head? = some none
  behind : base.behindLimit? = none
  fault : base.fault? = none

theorem JustOpened.groups_pos {base : Draft} {index : Nat} (h : JustOpened base index) :
    0 < base.groups.length := by
  have hHead := h.groups
  cases hGroups : base.groups with
  | nil =>
    rw [hGroups] at hHead
    cases hHead
  | cons width widths => exact Nat.succ_pos _

/-- What a set tells of itself. -/
def OpenSet.content (s : OpenSet) : Bool × List SetItem := (s.negated, s.items)

/-- The draft `D` has read as much of a pattern as `d` has, inside the group opened in `base`. -/
structure Embeds (base d D : Draft) : Prop where
  stack : Stacked (renumber base.groups.length) base.frame.opener base.outer (d.frame :: d.outer)
    (D.frame :: D.outer)
  set : D.set?.map OpenSet.content = d.set?.map OpenSet.content
  groups : ∃ widths, d.groups = none :: widths ∧ D.groups = base.groups ++ widths
  names : D.names =
    base.names ++ d.names.map fun entry => (entry.1, renumber base.groups.length entry.2)
  fresh : ∀ entry ∈ d.names, base.names.lookup entry.1 = none
  behind : D.behindLimit? = d.behindLimit?.map (renumber base.groups.length)
  fault : D.fault? = d.fault?
  mentions : d.mentions = []
  globalFlags : d.globalFlags = []
  mentions_base : D.mentions = base.mentions
  flags_base : D.globalFlags = base.globalFlags

/-- Whether a draft has a place in the group opened in `base`: it depends on no number of a group and on
no flag of the whole, and its names are not taken. -/
structure FitsIn (base d : Draft) : Prop where
  mentions : d.mentions = []
  globalFlags : d.globalFlags = []
  names : ∀ entry ∈ d.names, base.names.lookup entry.1 = none

/-- A change of the one draft can be made to the other. -/
def Follows (base : Draft) (result mirror : Read Draft) : Prop :=
  ∀ next, result = .ok next → FitsIn base next → ∃ Next, mirror = .ok Next ∧ Embeds base next Next

namespace Embeds

variable {base d D next : Draft} {index : Nat}

theorem start (h : JustOpened base index) : Embeds base .start base where
  stack := by
    obtain ⟨start, hFrame⟩ := h.frame
    refine .field ?_ rfl rfl rfl
    rw [hFrame]
    exact ⟨rfl, rfl, rfl⟩
  set := by rw [h.set]; rfl
  groups := ⟨[], rfl, (List.append_nil _).symm⟩
  names := (List.append_nil _).symm
  fresh := List.forall_mem_nil _
  behind := h.behind
  fault := h.fault
  mentions := rfl
  globalFlags := rfl
  mentions_base := rfl
  flags_base := rfl

theorem verbose (h : Embeds base d D) : D.frame.verbose = d.frame.verbose := h.stack.head.verbose

theorem push (h : Embeds base d D) (node : Node) (kind : PieceKind) :
    Embeds base (d.push node kind) (D.push (node.rename (renumber base.groups.length)) kind) := by
  have hHead := h.stack.head
  exact { h with
    stack := h.stack.changed ⟨hHead.verbose, hHead.branches, congrArg (List.cons _) hHead.pieces⟩
      rfl rfl rfl }

theorem keepSet (h : Embeds base d D) {set Set : OpenSet} (hContent : Set.content = set.content) :
    Embeds base { d with set? := some set } { D with set? := some Set } :=
  { h with set := congrArg some hContent }

theorem closeSet (h : Embeds base d D) {set Set : OpenSet} (hContent : Set.content = set.content) :
    Embeds base ({ d with set? := none }.push set.node) ({ D with set? := none }.push Set.node) := by
  have hNode : Set.node = set.node.rename (renumber base.groups.length) := by
    obtain ⟨hNegated, hItems⟩ := Prod.mk.inj hContent
    rw [set.rename_node, OpenSet.node, OpenSet.node, hNegated, hItems]
  rw [hNode]
  exact push (d := { d with set? := none }) (D := { D with set? := none }) { h with set := rfl } _ _

theorem enter (h : Embeds base d D) (opener : Opener) (hCapture : opener ≠ .capture 0)
    (start Start : Nat) (verbose : Bool) :
    Embeds base (d.openFrame opener start verbose)
      (D.openFrame (opener.rename (renumber base.groups.length)) Start verbose) :=
  { h with stack := .inner ⟨rfl, rfl, rfl⟩ rfl hCapture h.stack }

theorem openFlagged (h : Embeds base d D) (on off : List Flag) (start Start : Nat) :
    Embeds base (d.openFlagged on off start) (D.openFlagged on off Start) := by
  rw [Draft.openFlagged, Draft.openFlagged, h.verbose]
  exact h.enter _ (by simp) start Start _

/-! ### What is known of groups -/

theorem group_eq (h : Embeds base d D) (hBase : JustOpened base index) (i : Nat) :
    D.groups[renumber base.groups.length i]?.join = d.groups[i]?.join := by
  obtain ⟨widths, hGroups, hGroups'⟩ := h.groups
  rw [hGroups, hGroups']
  cases i with
  | zero =>
    rw [renumber, List.getElem?_append_left hBase.groups_pos, ← List.head?_eq_getElem?, hBase.groups]
    rfl
  | succ i =>
    rw [renumber, List.getElem?_append_right (Nat.le_add_right _ _), Nat.add_sub_cancel_left]
    rfl

theorem isClosed_eq (h : Embeds base d D) (hBase : JustOpened base index) (i : Nat) :
    D.isClosed (renumber base.groups.length i) = d.isClosed i := by
  rw [Draft.isClosed, Draft.isClosed, h.group_eq hBase]

theorem nodeWidth_eq (h : Embeds base d D) (hBase : JustOpened base index) (node : Node) :
    D.nodeWidth (node.rename (renumber base.groups.length)) = d.nodeWidth node := by
  rw [Draft.nodeWidth, Draft.nodeWidth, Node.width_rename]
  congr 1
  funext i
  rw [Draft.widthOf, Draft.widthOf, h.group_eq hBase]

theorem length_groups (h : Embeds base d D) :
    D.groups.length = renumber base.groups.length d.groups.length := by
  obtain ⟨widths, hGroups, hGroups'⟩ := h.groups
  rw [hGroups, hGroups', List.length_append, List.length_cons, renumber]

theorem lookup_eq (h : Embeds base d D) (name : String) :
    D.names.lookup name = (base.names.lookup name).or
      ((d.names.lookup name).map (renumber base.groups.length)) := by
  rw [h.names, List.lookup_append, lookup_map_snd]

theorem lookup_of_lookup (h : Embeds base d D) {name : String} {i : Nat}
    (hName : d.names.lookup name = some i) :
    D.names.lookup name = some (renumber base.groups.length i) := by
  obtain ⟨front, back, hNames, -⟩ := List.lookup_eq_some_iff.mp hName
  rw [h.lookup_eq, h.fresh (name, i) (by simp [hNames]), hName]
  rfl

/-! ### What follows a change -/

theorem openGroup (h : Embeds base d D) (start Start : Nat) :
    Embeds base
      ({ d with groups := d.groups ++ [none] }.openFrame (.capture d.groups.length) start d.frame.verbose)
      ({ D with groups := D.groups ++ [none] }.openFrame (.capture D.groups.length) Start
        D.frame.verbose) := by
  obtain ⟨widths, hGroups, hGroups'⟩ := h.groups
  have hCapture : Opener.capture d.groups.length ≠ .capture 0 := by simp [hGroups]
  exact { h with
    stack := .inner ⟨h.verbose, rfl, rfl⟩ (congrArg Opener.capture h.length_groups) hCapture h.stack
    groups := by
      refine ⟨widths ++ [none], ?_, ?_⟩
      · change d.groups ++ [none] = _
        rw [hGroups]
        rfl
      · change D.groups ++ [none] = _
        rw [hGroups', List.append_assoc] }

theorem follows_openCapture (h : Embeds base d D) (name? : Option String) (start left Start Left : Nat) :
    Follows base (d.openCapture name? start left) (D.openCapture name? Start Left) := by
  intro next hNext hFits
  have hOpened := h.openGroup start Start
  cases name? with
  | none =>
    cases hNext
    exact ⟨_, rfl, hOpened⟩
  | some name =>
    simp only [Draft.openCapture] at hNext ⊢
    cases hName : d.names.lookup name with
    | some previous =>
      simp only [hName] at hNext
      cases hNext
    | none =>
      simp only [hName] at hNext
      cases hNext
      have hFree : base.names.lookup name = none :=
        hFits.names (name, d.groups.length) (List.mem_append_right _ (List.mem_singleton_self _))
      have hName' : D.names.lookup name = none := by
        rw [h.lookup_eq, hFree, hName]
        rfl
      simp only [hName']
      refine ⟨_, rfl, { hOpened with names := ?_, fresh := hFits.names }⟩
      rw [List.map_append, ← List.append_assoc, ← h.names, List.map_singleton, ← h.length_groups]

theorem checkBehind_eq_ok (h : Embeds base d D) (hBase : JustOpened base index) {i left : Nat}
    (hCheck : d.checkBehind i left = .ok ()) (Left : Nat) :
    D.checkBehind (renumber base.groups.length i) Left = .ok () := by
  rw [Draft.checkBehind, h.behind]
  cases hLimit : d.behindLimit? with
  | none => rfl
  | some limit =>
    simp only [Draft.checkBehind, hLimit, Option.map_some, h.isClosed_eq hBase,
      renumber_le_iff hBase.groups_pos] at hCheck ⊢
    split at hCheck
    · cases hCheck
    · rename_i hClosed
      split at hCheck
      · cases hCheck
      · rename_i hLimit
        rw [if_neg hClosed, if_neg hLimit]
        rfl

theorem follows_refer (h : Embeds base d D) (hBase : JustOpened base index)
    (i length left Length Left : Nat) :
    Follows base (d.refer i length left) (D.refer (renumber base.groups.length i) Length Left) := by
  intro next hNext _
  rw [Draft.refer] at hNext ⊢
  rw [h.isClosed_eq hBase]
  split at hNext
  · cases hNext
  · rename_i hClosed
    obtain ⟨⟨⟩, hCheck, hNext⟩ := bind_eq_ok_iff.mp hNext
    cases hNext
    rw [if_neg hClosed]
    exact ⟨_, bind_eq_ok_iff.mpr ⟨(), h.checkBehind_eq_ok hBase hCheck Left, rfl⟩, h.push _ _⟩

theorem follows_referByName (h : Embeds base d D) (hBase : JustOpened base index) (name : String)
    (left Left : Nat) : Follows base (d.referByName name left) (D.referByName name Left) := by
  rw [Draft.referByName, Draft.referByName]
  cases hName : d.names.lookup name with
  | none =>
    intro next hNext
    cases hNext
  | some i =>
    rw [h.lookup_of_lookup hName]
    exact h.follows_refer hBase i _ left _ Left

/-- A condition that is no number keeps the draft. -/
theorem conditionGroup_eq_ok (h : Embeds base d D) {name : String} {left i : Nat}
    (hGroup : d.conditionGroup name left = .ok (i, next)) (hMentions : next.mentions = [])
    (Left : Nat) : next = d ∧
      D.conditionGroup name Left = .ok (renumber base.groups.length i, D) := by
  unfold Draft.conditionGroup at hGroup ⊢
  dsimp only at hGroup ⊢
  by_cases hIdentifier : Unicode.isIdentifier name.toList = true
  · rw [if_pos hIdentifier] at hGroup ⊢
    cases hName : d.names.lookup name with
    | none =>
      simp only [hName] at hGroup
      cases hGroup
    | some j =>
      simp only [hName] at hGroup
      cases hGroup
      refine ⟨rfl, ?_⟩
      rw [h.lookup_of_lookup hName]
      rfl
  · -- Otherwise the group is remembered by its number.
    rw [if_neg hIdentifier] at hGroup
    split at hGroup
    · split at hGroup
      · cases hGroup
      · split at hGroup
        · cases hGroup
        · cases hGroup
          simp [h.mentions] at hMentions
    · cases hGroup

theorem checkRepeatable_eq_ok (h : Embeds base d D) {left : Nat} {piece : Piece}
    (hPiece : d.checkRepeatable left = .ok piece) (Left : Nat) :
    D.checkRepeatable Left = .ok (piece.rename (renumber base.groups.length)) := by
  have hPieces := h.stack.head.pieces
  unfold Draft.checkRepeatable at hPiece ⊢
  rw [hPieces]
  cases hOwn : d.frame.pieces with
  | nil =>
    simp only [hOwn] at hPiece
    cases hPiece
  | cons first rest =>
    simp only [hOwn] at hPiece
    rw [List.map_cons]
    dsimp only [Piece.rename]
    split at hPiece
    · cases hPiece
    · cases hPiece
    · rename_i hKind
      cases hPiece
      simp only [hKind]
      rfl

theorem repeatLast (h : Embeds base d D) (piece : Piece) (greed : Greed) (min : Nat) (max : Option Nat) :
    Embeds base (d.repeatLast piece greed min max)
      (D.repeatLast (piece.rename (renumber base.groups.length)) greed min max) := by
  have hHead := h.stack.head
  have hPieces : D.frame.pieces.tail = d.frame.pieces.tail.map (·.rename (renumber base.groups.length)) := by
    rw [hHead.pieces, List.map_tail]
  exact { h with
    stack := h.stack.changed ⟨hHead.verbose, hHead.branches, congrArg (List.cons _) hPieces⟩ rfl rfl rfl }

theorem openBehind (h : Embeds base d D) (negated : Bool) (start Start : Nat) :
    Embeds base (d.openBehind negated start) (D.openBehind negated Start) := by
  have hOpened := h.enter (.behind negated d.behindLimit? d.fault?) (by simp) start Start
    d.frame.verbose
  have hBehind : D.behindLimit?.or (some D.groups.length) =
      (d.behindLimit?.or (some d.groups.length)).map (renumber base.groups.length) := by
    rw [h.behind, h.length_groups]
    cases d.behindLimit? <;> rfl
  rw [Draft.openBehind, Draft.openBehind, h.verbose, h.fault]
  rw [Opener.rename, ← h.behind] at hOpened
  exact { hOpened with behind := hBehind }

theorem follows_endBranch (h : Embeds base d D) (hBase : JustOpened base index) (left Left : Nat) :
    Follows base (d.endBranch left) (D.endBranch Left) := by
  intro next hNext _
  have hHead := h.stack.head
  obtain ⟨start, hFrame⟩ := hBase.frame
  have hCondition : D.frame.opener.condition? = d.frame.opener.condition? := by
    obtain ⟨-, -, hPlain, hField, -⟩ | ⟨hOpener, -, -⟩ := h.stack.cons_cases
    · rw [hPlain, hField, hFrame]
      rfl
    · rw [hOpener, Opener.condition?_rename]
  cases hOwn : d.frame.opener.condition? with
  | none =>
    cases (Draft.endBranch_eq_ok hOwn left).symm.trans hNext
    refine ⟨_, Draft.endBranch_eq_ok (hCondition.trans hOwn) Left,
      { h with stack := h.stack.changed ⟨hHead.verbose, ?_, rfl⟩ rfl rfl rfl }⟩
    rw [hHead.sequence, hHead.branches, List.map_cons]
  | some complete =>
    obtain ⟨-, -, hPlain, -⟩ | ⟨hOpener, -, hOuter⟩ := h.stack.cons_cases
    · rw [hPlain] at hOwn
      cases hOwn
    obtain ⟨i, yes?, hConditional⟩ := Opener.eq_of_condition? hOwn
    rw [hConditional] at hOpener
    cases yes? with
    | none =>
      simp only [Draft.endBranch, hConditional, hOpener, Opener.rename, Option.map_none] at hNext ⊢
      cases hNext
      refine ⟨_, rfl, { h with stack := .inner ⟨hHead.verbose, hHead.branches, rfl⟩ ?_ ?_ hOuter }⟩
      · rw [hHead.sequence]
        rfl
      · simp
    | some yes =>
      simp only [Draft.endBranch, hConditional] at hNext
      cases hNext

theorem groups_set (h : Embeds base d D) {i : Nat} (hi : i ≠ 0) (width : Option Width) :
    ∃ widths, d.groups.set i width = none :: widths ∧
      D.groups.set (renumber base.groups.length i) width = base.groups ++ widths := by
  obtain ⟨widths, hGroups, hGroups'⟩ := h.groups
  cases i with
  | zero => exact absurd rfl hi
  | succ i =>
    refine ⟨widths.set i width, by rw [hGroups]; rfl, ?_⟩
    rw [hGroups', renumber, List.set_append_right _ _ (Nat.le_add_right _ _), Nat.add_sub_cancel_left]

theorem follows_closeFrame (h : Embeds base d D) (hBase : JustOpened base index) (left Left : Nat) :
    Follows base (d.closeFrame left) (D.closeFrame Left) := by
  intro next hNext _
  have hBody := h.stack.head.body
  have hSequence := h.stack.head.sequence
  obtain ⟨hOuter, -⟩ | ⟨hOpener, hCapture, hStack⟩ := h.stack.cons_cases
  · simp only [Draft.closeFrame, hOuter] at hNext
    cases hNext
  cases hOuter : d.outer with
  | nil =>
    simp only [Draft.closeFrame, hOuter] at hNext
    cases hNext
  | cons parent outer =>
    rw [hOuter] at hStack
    obtain ⟨Parent, Outer, hOuter'⟩ := hStack.exists_cons
    rw [hOuter'] at hStack
    have hClosed : Embeds base { d with frame := parent, outer } { D with frame := Parent, outer := Outer } :=
      { h with stack := hStack }
    simp only [Draft.closeFrame, hOuter, hOuter', hOpener, hBody, hSequence,
      h.nodeWidth_eq hBase] at hNext ⊢
    cases hOwn : d.frame.opener with
    | capture i =>
      simp only [hOwn, Opener.rename] at hNext ⊢
      cases hNext
      have hi : i ≠ 0 := fun hEq => hCapture (hOwn.trans (congrArg _ hEq))
      have hGroups := h.groups_set hi (some (d.nodeWidth d.frame.body))
      have hRecorded : Embeds base
          { d with frame := parent, outer, groups := d.groups.set i (some (d.nodeWidth d.frame.body)) }
          { D with
            frame := Parent
            outer := Outer
            groups := D.groups.set (renumber base.groups.length i) (some (d.nodeWidth d.frame.body)) } :=
        { hClosed with groups := hGroups }
      exact ⟨_, rfl, hRecorded.push (.group i d.frame.body) .ordinary⟩
    | behind negated limit? before? =>
      simp only [hOwn, Opener.rename] at hNext ⊢
      cases hNext
      have hRestored : Embeds base
          { d with
            frame := parent
            outer
            behindLimit? := limit?
            fault? := (before?.or (Draft.behindFault? (d.nodeWidth d.frame.body))).or d.fault? }
          { D with
            frame := Parent
            outer := Outer
            behindLimit? := limit?.map (renumber base.groups.length)
            fault? := (before?.or (Draft.behindFault? (d.nodeWidth d.frame.body))).or D.fault? } :=
        { hClosed with
          behind := rfl
          fault := congrArg (Option.or (before?.or (Draft.behindFault? _))) h.fault }
      exact ⟨_, rfl, hRestored.push (.lookbehind negated _ d.frame.body) .ordinary⟩
    | conditional i yes? =>
      cases yes? with
      | none =>
        simp only [hOwn, Opener.rename, Option.map_none] at hNext ⊢
        cases hNext
        exact ⟨_, rfl, hClosed.push (.conditional i d.frame.sequence .empty) .ordinary⟩
      | some yes =>
        simp only [hOwn, Opener.rename, Option.map_some] at hNext ⊢
        cases hNext
        exact ⟨_, rfl, hClosed.push (.conditional i yes d.frame.sequence) .ordinary⟩
    | plain =>
      simp only [hOwn, Opener.rename] at hNext ⊢
      cases hNext
      exact ⟨_, rfl, hClosed.push d.frame.body .ordinary⟩
    | flagged on off =>
      simp only [hOwn, Opener.rename] at hNext ⊢
      cases hNext
      exact ⟨_, rfl, hClosed.push (.flagged on off d.frame.body) .ordinary⟩
    | atomic =>
      simp only [hOwn, Opener.rename] at hNext ⊢
      cases hNext
      exact ⟨_, rfl, hClosed.push (.atomic d.frame.body) .ordinary⟩
    | ahead negated =>
      simp only [hOwn, Opener.rename] at hNext ⊢
      cases hNext
      exact ⟨_, rfl, hClosed.push (.lookahead negated d.frame.body) .ordinary⟩

end Embeds

end UriRouting.Pattern
