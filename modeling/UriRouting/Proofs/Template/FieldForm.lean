import UriRouting.Proofs.Template.Splitting
import UriRouting.Types.FieldKind

/-! # What fields take

The patterns that fields get without being given one: the default, the wildcard, and those inferred
from a type. Each of them takes exactly the texts of one plainly described set, and since it stays
inside its group, a template of such fields accepts exactly the paths that split along it. -/

set_option autoImplicit false

namespace UriRouting.Template

open Pattern (Draft Keeps Node Piece Reads Steps Ungreedy)

/-- Where the pattern of a field comes from, if it is not given as a pattern. -/
inductive FieldForm where
  | default
  | wildcard
  | inferred (kind : FieldKind)

namespace FieldForm

def pattern : FieldForm → String
  | default => defaultPattern
  | wildcard => wildcardPattern
  | inferred kind => kind.pattern

def optional (c : Char) : Language Char := {[], [c]}

def digits (least : Nat) : Language Char :=
  {u | least ≤ u.length ∧ ∀ c ∈ u, Unicode.isDecimalDigit c = true}

/-- The texts that a field takes. -/
def texts : FieldForm → Language Char
  | default => {u | '/' ∉ u}
  | wildcard => {u | '\n' ∉ u}
  | inferred .integer => optional '-' * digits 1
  | inferred .character => {u | ∃ c, c ≠ '\n' ∧ u = [c]}
  | inferred .decimal => optional '-' * (digits 0 * (optional '.' * digits 1))
  | inferred .boolean => {"true".toList, "false".toList}
  | inferred (.enumerated members) => {u | ∃ name ∈ members, u = name.toList}
  | inferred .other => {u | u ≠ [] ∧ '/' ∉ u}

end FieldForm

/-! ## Reading pieces into an open group -/

/-- More pieces in the open group. -/
def pushAll (d : Draft) (pieces : List Piece) : Draft :=
  { d with frame := { d.frame with pieces := pieces.reverse ++ d.frame.pieces } }

/-- Tokens that add one piece to the open group, whatever stands behind them. -/
def AddsOne (node : Node) (tokens : List Pattern.Token) : Prop :=
  ∀ (d last : Draft) (ts : List Pattern.Token), d.set? = none → d.frame.verbose = false →
    Steps d (tokens ++ ts) last [] → Steps d (tokens ++ ts) (d.push node) ts

/-- Tokens that add given pieces to the open group. -/
def Adds (pieces : List Piece) (tokens : List Pattern.Token) : Prop :=
  ∀ (d last : Draft) (ts : List Pattern.Token), d.set? = none → d.frame.verbose = false → Ungreedy ts →
    Steps d (tokens ++ ts) last [] → Steps d (tokens ++ ts) (pushAll d pieces) ts

namespace AddsOne

variable {node : Node} {tokens : List Pattern.Token}

theorem plain {c : Char} (hBar : c ≠ '|') (hClose : c ≠ ')')
    (h : ∀ d ts, Pattern.readPlain d c ts = .ok (d.push node, ts)) : AddsOne node [.plain c] :=
  fun _ _ _ hSet hVerbose hRun => hRun.plain hSet hVerbose hBar hClose (h _ _)

theorem escaped {c : Char} (escape : Pattern.Escape)
    (hRead : ∀ ts, Pattern.readEscape c ts = .ok (escape, ts))
    (hPush : ∀ d left, Pattern.pushEscape d escape left = .ok (d.push node)) :
    AddsOne node [.escaped c] := by
  intro d last ts hSet hVerbose hRun
  apply hRun.inv
  intro e us hStep
  simp only [Pattern.readStep, hSet] at hStep
  obtain ⟨⟨⟩, -, hStep⟩ := bind_eq_ok_iff.mp hStep
  obtain ⟨_, hEscape, hStep⟩ := bind_eq_ok_iff.mp hStep
  cases (hRead ts).symm.trans hEscape
  obtain ⟨next, hNext, hStep⟩ := bind_eq_ok_iff.mp hStep
  cases (hPush d _).symm.trans hNext
  cases hStep
  exact ⟨rfl, rfl⟩

theorem adds (h : AddsOne node tokens) : Adds [⟨node, .ordinary⟩] tokens :=
  fun d last ts hSet hVerbose _ hRun => h d last ts hSet hVerbose hRun

theorem repeated (h : AddsOne node tokens) {c : Char} {min : Nat} {max : Option Nat}
    (hc : Pattern.counts? c = some (min, max)) :
    Adds [⟨.repeated .greedy min max node, .repeated⟩] (tokens ++ [.plain c]) := by
  intro d last ts hSet hVerbose hUngreedy hRun
  rw [List.append_assoc] at hRun ⊢
  have hOne := h d last _ hSet hVerbose hRun
  exact hOne.trans (Steps.greedy (d := d.push node) hSet hVerbose rfl rfl hc hUngreedy
    (hOne.onward hRun))

end AddsOne

namespace Adds

variable {pieces more : List Piece} {tokens behind : List Pattern.Token}

theorem append (h : Adds pieces tokens) (hMore : Adds more behind)
    (hUngreedy : ∀ ts, Ungreedy ts → Ungreedy (behind ++ ts)) :
    Adds (pieces ++ more) (tokens ++ behind) := by
  intro d last ts hSet hVerbose hts hRun
  rw [List.append_assoc] at hRun ⊢
  have hFirst := h d last _ hSet hVerbose (hUngreedy ts hts) hRun
  have hSecond := hMore (pushAll d pieces) last ts hSet hVerbose hts (hFirst.onward hRun)
  have hBoth : pushAll (pushAll d pieces) more = pushAll d (pieces ++ more) := by
    simp [pushAll]
  exact hBoth ▸ hFirst.trans hSecond

theorem keeps (d : Draft) (h : ∀ piece ∈ pieces, piece.node.indices = []) :
    Keeps d (pushAll d pieces) := by
  refine .of_count rfl rfl rfl fun i => ?_
  have hNil : pieces.reverse.flatMap (·.node.indices) = [] :=
    List.flatMap_eq_nil_iff.mpr fun piece hPiece => h piece (List.mem_reverse.mp hPiece)
  simp [pushAll, Draft.indices, Pattern.Frame.indices, hNil]

theorem reads {pattern : List Char} (h : Adds pieces (Pattern.tokenize pattern))
    (hDangling : .dangling ∉ Pattern.tokenize pattern)
    (hIndices : ∀ piece ∈ pieces, piece.node.indices = []) {P : Node → Prop}
    (hP : P (.ofSequence (pieces.map (·.node)))) : Reads P pattern := by
  refine ⟨hDangling, ?_⟩
  intro D last index tail hSet hOuter hFrame hTail hRun
  obtain ⟨start, hFrame⟩ := hFrame
  have hVerbose : D.frame.verbose = false := by rw [hFrame]
  refine ⟨_, h D last tail hSet hVerbose (.closing hTail) hRun, hSet, rfl, by simp [pushAll, hFrame], ?_,
    keeps D hIndices⟩
  simpa [pushAll, hFrame, Pattern.Frame.body, Pattern.Frame.sequence, Node.ofBranches] using hP

end Adds

/-! ## The patterns of one sequence -/

theorem addsOne_any : AddsOne .any [.plain '.'] :=
  AddsOne.plain (by decide) (by decide) fun _ _ => rfl

theorem addsOne_minus : AddsOne (.code '-'.toNat) [.plain '-'] :=
  AddsOne.plain (by decide) (by decide) fun _ _ => rfl

theorem addsOne_point : AddsOne (.code '.'.toNat) [.escaped '.'] :=
  AddsOne.escaped (.code '.'.toNat) (fun _ => rfl) fun _ _ => rfl

theorem addsOne_digit : AddsOne (.oneOf false [.category .digit false]) [.escaped 'd'] :=
  AddsOne.escaped (.category .digit false) (fun _ => rfl) fun _ _ => rfl

theorem addsOne_notSlash : AddsOne (.notCode '/'.toNat)
    [.plain '[', .plain '^', .plain '/', .plain ']'] := by
  intro d last ts hSet hVerbose hRun
  let set : Pattern.OpenSet :=
    { start := Pattern.charsLeft (.plain '^' :: .plain '/' :: .plain ']' :: ts) + 1, negated := true }
  have hOpen : Steps d (.plain '[' :: .plain '^' :: .plain '/' :: .plain ']' :: ts)
      { d with set? := some set } (.plain '/' :: .plain ']' :: ts) :=
    Steps.plain hSet hVerbose (by decide) (by decide) rfl hRun
  have hItem : Steps { d with set? := some set } (.plain '/' :: .plain ']' :: ts)
      { d with set? := some { set with items := [.code '/'.toNat] } } (.plain ']' :: ts) :=
    .single rfl
  have hRun₂ := hItem.onward (hOpen.onward hRun)
  refine hOpen.trans (hItem.trans (hRun₂.inv fun e us hStep => ?_))
  obtain ⟨⟨⟩, -, hStep⟩ := bind_eq_ok_iff.mp hStep
  cases hStep
  have hNone : { d with set? := none } = d := by rw [← hSet]
  exact ⟨congrArg (Draft.push · (.notCode '/'.toNat)) hNone, rfl⟩

/-! ## What the patterns of one sequence denote -/

section Denotes

variable {node : Node} {L M : Language Char}

theorem denotes_single (h : node.Denotes L) : (Node.ofSequence [node]).Denotes L :=
  (h.seq .empty).of_eq (mul_one L)

theorem denotes_all {test : Char → Bool} (h : node.Denotes (Pattern.charsOf test)) :
    (Node.repeated .greedy 0 none node).Denotes {u | ∀ c ∈ u, test c = true} :=
  (h.unbounded 0).of_eq (Language.ext fun u => by
    constructor
    · exact And.right
    · exact And.intro (Nat.zero_le _))

theorem denotes_some {test : Char → Bool} (h : node.Denotes (Pattern.charsOf test)) :
    (Node.repeated .greedy 1 none node).Denotes {u | u ≠ [] ∧ ∀ c ∈ u, test c = true} :=
  (h.unbounded 1).of_eq (Language.ext fun u => by
    constructor
    · exact And.imp_left List.ne_nil_of_length_pos
    · exact And.imp_left List.length_pos_iff.mpr)

theorem denotes_optional (c : Char) :
    (Node.repeated .greedy 0 (some 1) (.code c.toNat)).Denotes (FieldForm.optional c) := by
  have hMax : ∀ m ∈ some 1, 0 ≤ m := fun m _ => Nat.zero_le m
  apply ((Node.Denotes.code c.toNat).repeated 0 (some 1) hMax).of_eq
  apply Language.ext
  intro u
  constructor
  · rintro ⟨-, hOne, hAll⟩
    have hLength : u.length ≤ 1 := hOne 1 rfl
    cases u with
    | nil => exact Or.inl rfl
    | cons d rest =>
      have hd := beq_iff_eq.mp (hAll d List.mem_cons_self)
      obtain rfl : rest = [] := by
        apply List.length_eq_zero_iff.mp
        rw [List.length_cons] at hLength
        omega
      exact Or.inr (congrArg (fun c => [c]) (Char.toNat_inj.mp hd).symm)
  · rintro (rfl | rfl)
    · exact ⟨Nat.zero_le _, fun m _ => Nat.zero_le m, List.forall_mem_nil _⟩
    · refine ⟨Nat.zero_le _, fun m hm => ?_, fun d hd => ?_⟩
      · cases hm
        exact Nat.le_refl _
      · rw [List.mem_singleton.mp hd]
        exact beq_self_eq_true _

end Denotes

/-! ## The forms of one sequence -/

section Sequences

theorem denotes_notSlash : (Node.notCode '/'.toNat).Denotes (Pattern.charsOf (· ≠ '/')) :=
  (Node.Denotes.notCode _).of_eq (congrArg Pattern.charsOf (funext fun c => by
    have hEq : ('/'.toNat == c.toNat) = decide (c = '/') := by
      rw [Bool.eq_iff_iff, beq_iff_eq, decide_eq_true_eq, Char.toNat_inj]
      exact eq_comm
    rw [hEq, decide_not]))

theorem denotes_digits (least : Nat) :
    (Node.repeated .greedy least none (.oneOf false [.category .digit false])).Denotes
      (FieldForm.digits least) := by
  apply ((Node.Denotes.oneOf _ _).unbounded least).of_eq
  apply Language.ext
  intro u
  have hDigit (c : Char) : Pattern.Mode.inSet {} c false [.category .digit false] =
      Unicode.isDecimalDigit c := by
    simp [Pattern.Mode.inSet, Pattern.Mode.inItem, Pattern.Mode.inCategory]
  constructor
  · rintro ⟨hLeast, hAll⟩
    exact ⟨hLeast, fun c hc => hDigit c ▸ hAll c hc⟩
  · rintro ⟨hLeast, hAll⟩
    exact ⟨hLeast, fun c hc => (hDigit c).symm ▸ hAll c hc⟩

/-- What the default pattern is read as. -/
def defaultBody : Node := .ofSequence [.repeated .greedy 0 none (.notCode '/'.toNat)]

/-- What the wildcard pattern is read as. -/
def wildcardBody : Node := .ofSequence [.repeated .greedy 0 none .any]

theorem denotes_defaultBody : defaultBody.Denotes FieldForm.default.texts := by
  apply denotes_single
  apply (denotes_all denotes_notSlash).of_eq
  apply Language.ext
  intro u
  constructor
  · exact fun h hMem => by simpa using h '/' hMem
  · exact fun h c hc => decide_eq_true fun hEq => h (hEq ▸ hc)

theorem denotes_wildcardBody : wildcardBody.Denotes FieldForm.wildcard.texts := denotes_single denotes_line

theorem reads_default : Reads (· = defaultBody) defaultPattern.toList := by
  have hAdds : Adds _ (Pattern.tokenize defaultPattern.toList) := addsOne_notSlash.repeated (c := '*') rfl
  exact hAdds.reads (by decide) (by simp [Node.indices]) rfl

theorem reads_wildcard : Reads (· = wildcardBody) wildcardPattern.toList := by
  have hAdds : Adds _ (Pattern.tokenize wildcardPattern.toList) := addsOne_any.repeated (c := '*') rfl
  exact hAdds.reads (by decide) (by simp [Node.indices]) rfl

theorem reads_other : Reads (·.Denotes (FieldForm.inferred .other).texts)
    (FieldForm.inferred .other).pattern.toList := by
  have hAdds : Adds _ (Pattern.tokenize FieldKind.other.pattern.toList) :=
    addsOne_notSlash.repeated (c := '+') rfl
  refine hAdds.reads (by decide) (by simp [Node.indices]) (denotes_single ?_)
  apply (denotes_some denotes_notSlash).of_eq
  apply Language.ext
  intro u
  constructor
  · exact fun h => ⟨h.1, fun hMem => by simpa using h.2 '/' hMem⟩
  · exact fun h => ⟨h.1, fun c hc => decide_eq_true fun hEq => h.2 (hEq ▸ hc)⟩

theorem reads_character : Reads (·.Denotes (FieldForm.inferred .character).texts)
    (FieldForm.inferred .character).pattern.toList := by
  have hAdds : Adds _ (Pattern.tokenize FieldKind.character.pattern.toList) := addsOne_any.adds
  refine hAdds.reads (by decide) (by simp [Node.indices]) (denotes_single ?_)
  apply Node.Denotes.any.of_eq
  apply Language.ext
  intro u
  constructor
  · rintro ⟨c, hc, hu⟩
    exact ⟨c, bne_iff_ne.mp hc, hu⟩
  · rintro ⟨c, hc, hu⟩
    exact ⟨c, bne_iff_ne.mpr hc, hu⟩

theorem reads_integer : Reads (·.Denotes (FieldForm.inferred .integer).texts)
    (FieldForm.inferred .integer).pattern.toList := by
  have hDigits := addsOne_digit.repeated (c := '+') rfl
  have hAdds : Adds _ (Pattern.tokenize FieldKind.integer.pattern.toList) :=
    (addsOne_minus.repeated (c := '?') rfl).append hDigits fun _ _ => .escaped _ _
  apply hAdds.reads (by decide) (by simp [Node.indices])
  exact (denotes_optional '-').seq (denotes_single (denotes_digits 1))

theorem reads_decimal : Reads (·.Denotes (FieldForm.inferred .decimal).texts)
    (FieldForm.inferred .decimal).pattern.toList := by
  have hDigits := addsOne_digit.repeated (c := '+') rfl
  have hPoint := (addsOne_point.repeated (c := '?') rfl).append hDigits fun _ _ => .escaped _ _
  have hWhole := (addsOne_digit.repeated (c := '*') rfl).append hPoint fun _ _ => .escaped _ _
  have hAdds : Adds _ (Pattern.tokenize FieldKind.decimal.pattern.toList) :=
    (addsOne_minus.repeated (c := '?') rfl).append hWhole fun _ _ => .escaped _ _
  apply hAdds.reads (by decide) (by simp [Node.indices])
  exact (denotes_optional '-').seq ((denotes_digits 0).seq
    ((denotes_optional '.').seq (denotes_single (denotes_digits 1))))

end Sequences

/-! ## Enumerations -/

section Enumerations

variable {d last : Draft} {index : Nat} {ts : List Pattern.Token}

def enumTokens : List (List Char) → List Pattern.Token
  | [] => []
  | [name] => name.map Pattern.literalToken
  | name :: rest => name.map Pattern.literalToken ++ .plain '|' :: enumTokens rest

theorem tokenize_joinWith (names : List (List Char)) :
    Pattern.tokenize (Text.joinWith ['|'] (names.map Pattern.literally)) = enumTokens names := by
  induction names with
  | nil => rfl
  | cons name rest ih =>
    cases rest with
    | nil =>
      have hLiteral := Pattern.tokenize_literally_append name []
      rw [List.append_nil] at hLiteral
      rw [List.map_cons, List.map_nil, Text.joinWith, hLiteral]
      exact List.append_nil _
    | cons other rest =>
      rw [List.map_cons, List.map_cons, Text.joinWith, List.append_assoc,
        Pattern.tokenize_literally_append, List.singleton_append,
        Pattern.tokenize_plain (by decide), ← List.map_cons, ih]
      · rfl
      · intro hNil
        cases hNil

theorem dangling_notMem_literal (name : List Char) : .dangling ∉ name.map Pattern.literalToken := by
  intro hMem
  obtain ⟨c, -, hc⟩ := List.mem_map.mp hMem
  rw [Pattern.literalToken] at hc
  split at hc <;> cases hc

theorem dangling_notMem_enumTokens (names : List (List Char)) : .dangling ∉ enumTokens names := by
  induction names with
  | nil => exact List.not_mem_nil
  | cons name rest ih =>
    cases rest with
    | nil => exact dangling_notMem_literal name
    | cons other rest =>
      rw [enumTokens, List.mem_append, List.mem_cons]
      · rintro (hMem | hMem | hMem)
        · exact dangling_notMem_literal name hMem
        · cases hMem
        · exact ih hMem
      · intro hNil
        cases hNil

def literalPieces (text : List Char) : List Piece := text.map fun c => ⟨.code c.toNat, .ordinary⟩

def literalNode (text : List Char) : Node := .ofSequence ((literalPieces text).map (·.node))

theorem adds_literal (text : List Char) :
    Adds (literalPieces text) (text.map Pattern.literalToken) := by
  intro d last ts hSet hVerbose _ hRun
  induction text generalizing d with
  | nil => exact .refl d ts
  | cons c text ih =>
    have hChar := hRun.literal hSet hVerbose
    have hRest := ih (d.push (.code c.toNat)) hSet hVerbose (hChar.onward hRun)
    have hBoth : pushAll (d.push (.code c.toNat)) (literalPieces text) =
        pushAll d (literalPieces (c :: text)) := by
      simp [pushAll, Draft.push, literalPieces]
    exact hBoth ▸ hChar.trans hRest

theorem indices_literalPieces (text : List Char) :
    ∀ piece ∈ literalPieces text, piece.node.indices = [] := by
  intro piece hPiece
  obtain ⟨c, -, rfl⟩ := List.mem_map.mp hPiece
  rfl

/-- The open group with its branch ended. -/
def nextBranch (d : Draft) : Draft :=
  { d with frame := { d.frame with branches := d.frame.sequence :: d.frame.branches, pieces := [] } }

theorem endBranch_eq_ok (hOpener : d.frame.opener = .capture index) (left : Nat) :
    d.endBranch left = .ok (nextBranch d) := by
  rw [Draft.endBranch, hOpener]
  rfl

theorem readStep_bar (hSet : d.set? = none) (hOpener : d.frame.opener = .capture index) :
    Pattern.readStep d (.plain '|' :: ts) =
      Pattern.noDangling ts >>= fun _ => pure (nextBranch d, ts) := by
  simp only [Pattern.readStep, hSet, endBranch_eq_ok hOpener]
  rfl

theorem steps_bar (hSet : d.set? = none) (hOpener : d.frame.opener = .capture index)
    (hRun : Steps d (.plain '|' :: ts) last []) :
    Steps d (.plain '|' :: ts) (nextBranch d) ts ∧ Keeps d (nextBranch d) := by
  refine ⟨hRun.inv fun e us hStep => ?_, (Pattern.Edit.endBranch (endBranch_eq_ok hOpener 0)).keeps⟩
  rw [readStep_bar hSet hOpener] at hStep
  obtain ⟨⟨⟩, -, hStep⟩ := bind_eq_ok_iff.mp hStep
  cases hStep
  exact ⟨rfl, rfl⟩

theorem steps_enumTokens {names : List (List Char)} (hNames : names ≠ []) (hSet : d.set? = none)
    (hVerbose : d.frame.verbose = false) (hOpener : d.frame.opener = .capture index)
    (hPieces : d.frame.pieces = []) (hTail : Pattern.Closing ts)
    (hRun : Steps d (enumTokens names ++ ts) last []) :
    ∃ e, Steps d (enumTokens names ++ ts) e ts ∧ Keeps d e ∧ e.set? = none ∧ e.outer = d.outer ∧
      e.frame.opener = .capture index ∧
      e.frame.body = .ofBranches (d.frame.branches.reverse ++ names.map literalNode) := by
  induction names generalizing d with
  | nil => exact absurd rfl hNames
  | cons name rest ih =>
    have hKeeps := Adds.keeps d (indices_literalPieces name)
    have hSequence : (pushAll d (literalPieces name)).frame.sequence = literalNode name := by
      simp [pushAll, hPieces, Pattern.Frame.sequence, literalNode]
    cases rest with
    | nil =>
      refine ⟨_, adds_literal name d last ts hSet hVerbose (.closing hTail) hRun, hKeeps, hSet, rfl,
        hOpener, ?_⟩
      rw [Pattern.Frame.body, hSequence]
      rfl
    | cons other rest =>
      -- The bar ends the branch of this name and begins that of the next.
      have hTokens : enumTokens (name :: other :: rest) ++ ts = name.map Pattern.literalToken ++
          (.plain '|' :: (enumTokens (other :: rest) ++ ts)) := by
        rw [enumTokens, List.append_assoc, List.cons_append]
        intro hNil
        cases hNil
      rw [hTokens] at hRun ⊢
      have hName := adds_literal name d last _ hSet hVerbose (.plain (by decide) _) hRun
      obtain ⟨hBar, hKeeps'⟩ :=
        steps_bar (d := pushAll d (literalPieces name)) hSet hOpener (hName.onward hRun)
      obtain ⟨f, hRest, hKeeps'', hSet', hOuter', hOpener', hBody⟩ :=
        ih (d := nextBranch (pushAll d (literalPieces name))) (List.cons_ne_nil _ _) hSet hVerbose hOpener
          rfl (hBar.onward (hName.onward hRun))
      refine ⟨f, hName.trans (hBar.trans hRest), hKeeps.trans (hKeeps'.trans hKeeps''), hSet', hOuter',
        hOpener', ?_⟩
      rw [hBody, nextBranch, hSequence]
      simp [pushAll]

theorem denotes_literalNode (text : List Char) : (literalNode text).Denotes {text} := by
  induction text with
  | nil => exact Node.Denotes.empty
  | cons c text ih =>
    apply ((Node.Denotes.char c).seq ih).of_eq
    apply Language.ext
    intro u
    constructor
    · rintro ⟨_, rfl, _, rfl, rfl⟩
      rfl
    · rintro rfl
      exact ⟨[c], rfl, text, rfl, rfl⟩

theorem denotes_branches {names : List (List Char)} (hNames : names ≠ []) :
    (Node.ofBranches (names.map literalNode)).Denotes {u | u ∈ names} := by
  induction names with
  | nil => exact absurd rfl hNames
  | cons name rest ih =>
    cases rest with
    | nil =>
      apply (denotes_literalNode name).of_eq
      apply Language.ext
      intro u
      exact List.mem_singleton.symm
    | cons other rest =>
      apply ((denotes_literalNode name).alt (ih (List.cons_ne_nil _ _))).of_eq
      apply Language.ext
      intro u
      exact List.mem_cons.symm

theorem toList_pattern_enumerated {members : List String} (hMembers : members ≠ []) :
    (FieldKind.enumerated members).pattern.toList =
      Text.joinWith ['|'] ((members.map String.toList).map Pattern.literally) := by
  cases members with
  | nil => exact absurd rfl hMembers
  | cons member members => simp [FieldKind.pattern, Function.comp_def]

theorem reads_names {names : List (List Char)} (hNames : names ≠ []) :
    Reads (·.Denotes {u | u ∈ names}) (Text.joinWith ['|'] (names.map Pattern.literally)) := by
  refine ⟨tokenize_joinWith names ▸ dangling_notMem_enumTokens names, ?_⟩
  intro D last index tail hSet hOuter hFrame hTail hRun
  rw [tokenize_joinWith] at hRun ⊢
  obtain ⟨start, hFrame⟩ := hFrame
  obtain ⟨E, hSteps, hKeeps, hSet', hOuter', hOpener, hBody⟩ := steps_enumTokens hNames hSet
    (by rw [hFrame]) (by rw [hFrame]) (by rw [hFrame]) hTail hRun
  refine ⟨E, hSteps, hSet', hOuter', hOpener, ?_, hKeeps⟩
  rw [hBody, hFrame]
  exact denotes_branches hNames

end Enumerations

theorem reads_never : Reads (·.Denotes 0) FieldKind.never.toList := by
  let node : Node := .lookahead true .empty
  have hAdds : Adds [⟨node, .ordinary⟩] (Pattern.tokenize FieldKind.never.toList) := by
    intro d last ts hSet hVerbose _ hRun
    let start := Pattern.charsLeft (.plain '?' :: .plain '!' :: .plain ')' :: ts) + 1
    let opened := d.openFrame (.ahead true) start d.frame.verbose
    have hOpen : Steps d (.plain '(' :: .plain '?' :: .plain '!' :: .plain ')' :: ts) opened
        (.plain ')' :: ts) := Steps.plain hSet hVerbose (by decide) (by decide) rfl hRun
    refine hOpen.trans ((hOpen.onward hRun).inv fun e us hStep => ?_)
    obtain ⟨rfl, left, hClose⟩ := Pattern.closeFrame_of_readStep (d := opened) hSet hStep
    cases hClose
    exact ⟨rfl, rfl⟩
  apply hAdds.reads (by decide) (by simp [node, Node.indices])
  apply denotes_single
  intro text
  constructor
  · intro s e hs he
    cases he
  · intro s v hs
    constructor
    · rintro ⟨e, he, -⟩
      cases he
    · rintro ⟨u, hu, -⟩
      exact absurd hu (Language.notMem_zero u)

/-- The pattern of a form that no pattern was given for takes the texts of the form. -/
theorem FieldForm.reads (form : FieldForm) : Reads (·.Denotes form.texts) form.pattern.toList := by
  cases form with
  | default => exact reads_default.mono fun body hBody => hBody ▸ denotes_defaultBody
  | wildcard => exact reads_wildcard.mono fun body hBody => hBody ▸ denotes_wildcardBody
  | inferred kind =>
    cases kind with
    | integer => exact reads_integer
    | character => exact reads_character
    | decimal => exact reads_decimal
    | boolean =>
      have hNames : ["true".toList, "false".toList] ≠ [] := List.cons_ne_nil _ _
      refine (reads_names hNames).mono fun body hBody => hBody.of_eq (Language.ext fun u => ?_)
      exact List.mem_cons.trans (or_congr_right List.mem_singleton)
    | enumerated members =>
      have hMem (u : List Char) : u ∈ members.map String.toList ↔ ∃ name ∈ members, u = name.toList := by
        simp only [List.mem_map, eq_comm]
      cases members with
      | nil =>
        refine reads_never.mono fun body hBody => hBody.of_eq (Language.ext fun u => ?_)
        constructor
        · intro hu
          exact absurd hu (Language.notMem_zero u)
        · rintro ⟨name, hName, -⟩
          cases hName
      | cons member members =>
        have hNames : (member :: members).map String.toList ≠ [] := List.cons_ne_nil _ _
        rw [show (inferred (.enumerated (member :: members))).pattern.toList = _ from
          toList_pattern_enumerated (List.cons_ne_nil _ _)]
        exact (reads_names hNames).mono fun body hBody => hBody.of_eq (Language.ext hMem)
    | other => exact reads_other

/-- A template of fields of these forms accepts exactly the paths that split along it. -/
theorem accepts_iff_splits {p : PatternSource} {source : String} {t : Template}
    (h : compile p source = .ok t) (form : Field → FieldForm)
    (hForm : ∀ f ∈ t.fields, f.pattern = (form f).pattern) (path : List Char) :
    t.accepts path = true ↔ ∃ raws, Splits (fun f => (form f).texts) t.tokens raws path := by
  obtain ⟨parts, hLayout⟩ := exists_layout (P := fun f body => body.Denotes (form f).texts) h
    fun f hf => hForm f hf ▸ (form f).reads
  exact hLayout.accepts_iff path

/-- Names of an enumeration that would mean something else in a pattern. -/
theorem accepts_iff_splits_of_names :
    let form := FieldForm.inferred (.enumerated ["a|b", "(c"])
    ∃ t, compile { inferred := fun _ => some form.pattern } "/x/*/{n}" = .ok t ∧
      ∀ path, t.accepts path = true ↔ ∃ raws, Splits (fun _ => form.texts) t.tokens raws path := by
  intro form
  obtain ⟨t, h, hTest⟩ := exists_ok_of_any
    (x := compile { inferred := fun _ => some form.pattern } "/x/*/{n}")
    (p := fun t => t.fields.all fun f => f.pattern = form.pattern) (by decide +kernel)
  refine ⟨t, h, accepts_iff_splits h (fun _ => form) fun f hf => ?_⟩
  exact of_decide_eq_true (List.all_eq_true.mp hTest f hf)

end UriRouting.Template
