import UriRouting.Proofs.Pattern.Literal
import UriRouting.Proofs.Pattern.Nesting
import UriRouting.Template.Compile

/-! # The pattern of a whole template

The pattern that a template is compiled to is one flat sequence: a piece for each literal character,
a piece for each place where any text may stand, and one group for each field, whose number is found
under the name of that field's place. Nothing of a field pattern reaches out of its group. -/

set_option autoImplicit false

namespace UriRouting.Template

open Pattern (Compiled Draft Frame Keeps Node Piece Reads Steps)

/-! ## What the pattern of a template is made of -/

inductive Part where
  | char (c : Char)
  /-- Any text on one line. -/
  | gap
  | field (index : Nat) (body : Node)

namespace Part

def piece : Part → Piece
  | char c => ⟨.code c.toNat, .ordinary⟩
  | gap => ⟨.repeated .greedy 0 none .any, .repeated⟩
  | field index body => ⟨.group index body, .ordinary⟩

def node (p : Part) : Node := p.piece.node

def index? : Part → Option Nat
  | field index _ => some index
  | _ => none

end Part

/-- A slash, any text, and the literal text behind them. -/
def gapParts (part : List Char) : List Part := .char '/' :: .gap :: part.map .char

def literalParts (text : List Char) : List Part :=
  let (first, more) := Text.splitOnPair '/' '*' text
  first.map .char ++ more.flatMap gapParts

/-- The parts of tokens in their order; `P` relates a field to the body of its group. -/
inductive Lays (P : Field → Node → Prop) : List Token → List Part → Prop where
  | nil : Lays P [] []
  | literal (text : String) {rest : List Token} {parts : List Part} (h : Lays P rest parts) :
      Lays P (.literal text :: rest) (literalParts text.toList ++ parts)
  | field {f : Field} (index : Nat) {body : Node} {rest : List Token} {parts : List Part}
      (hBody : P f body) (h : Lays P rest parts) :
      Lays P (.field f :: rest) (.field index body :: parts)

/-! ## The tokens of literal text -/

def gapPattern (part : List Char) : List Char := '/' :: wildcardPattern.toList ++ Pattern.literally part

theorem tokenize_gapPattern (part rest : List Char) :
    Pattern.tokenize (gapPattern part ++ rest) = Pattern.literalToken '/' :: .plain '.' ::
      .plain '*' :: Pattern.tokenize (Pattern.literally part ++ rest) := by
  have hPlain : gapPattern part ++ rest = ['/', '.', '*'] ++ (Pattern.literally part ++ rest) := rfl
  rw [hPlain, Pattern.tokenize_plain_append (by decide)]
  rfl

theorem ungreedy_literally (part : List Char) {rest : List Char}
    (h : Pattern.Ungreedy (Pattern.tokenize rest)) :
    Pattern.Ungreedy (Pattern.tokenize (Pattern.literally part ++ rest)) := by
  rw [Pattern.tokenize_literally_append]
  cases part with
  | nil => exact h
  | cons c part => exact .literalToken c _

theorem ungreedy_gaps (more : List (List Char)) {rest : List Char}
    (h : Pattern.Ungreedy (Pattern.tokenize rest)) :
    Pattern.Ungreedy (Pattern.tokenize (more.flatMap gapPattern ++ rest)) := by
  cases more with
  | nil => exact h
  | cons part more =>
    rw [List.flatMap_cons, List.append_assoc, tokenize_gapPattern]
    exact .literalToken '/' _

theorem ungreedy_patternOfTokens (index : Nat) (tokens : List Token) :
    Pattern.Ungreedy (Pattern.tokenize (patternOfTokens index tokens)) := by
  induction tokens generalizing index with
  | nil => exact .nil
  | cons token rest ih =>
    cases token with
    | literal text =>
      rw [patternOfTokens, literalPattern, List.append_assoc]
      exact ungreedy_literally _ (ungreedy_gaps _ (ih index))
    | field f => exact .plain (by decide) _

theorem notMem_groupName {c : Char} (place : Nat) (hDigit : c.isDigit = false)
    (hHead : c ∉ ['_', 'p']) : c ∉ (groupName place).toList := by
  have hToList : (groupName place).toList = '_' :: 'p' :: Nat.toDigits 10 place := by
    simp [groupName]
  rw [hToList]
  intro hMem
  simp only [List.mem_cons, not_or] at hMem hHead
  rcases hMem with hMem | hMem | hMem
  · exact hHead.1 hMem
  · exact hHead.2.1 hMem
  · rw [Nat.isDigit_of_mem_toDigits (by decide) (by decide) hMem] at hDigit
    cases hDigit

theorem tokenize_fieldPattern (place : Nat) {f : Field}
    (h : .dangling ∉ Pattern.tokenize f.pattern.toList) (rest : List Char) :
    Pattern.tokenize (fieldPattern place f ++ rest) =
      .plain '(' :: .plain '?' :: .plain 'P' :: .plain '<' ::
        ((groupName place).toList.map .plain ++ .plain '>' ::
          (Pattern.tokenize f.pattern.toList ++ .plain ')' :: Pattern.tokenize rest)) := by
  have hName : '\\' ∉ (groupName place).toList := notMem_groupName place (by decide) (by decide)
  have hPattern : fieldPattern place f ++ rest = "(?P<".toList ++ ((groupName place).toList ++
      ('>' :: (f.pattern.toList ++ (')' :: rest)))) := by
    change "(?P<".toList ++ (groupName place).toList ++ '>' :: f.pattern.toList ++ [')'] ++ rest = _
    generalize "(?P<".toList = head
    simp
  rw [hPattern, Pattern.tokenize_plain_append (by decide), Pattern.tokenize_plain_append hName,
    Pattern.tokenize_plain (by decide), Pattern.tokenize_append h,
    Pattern.tokenize_plain (by decide)]
  rfl

theorem filterMap_literalParts (text : List Char) :
    (literalParts text).filterMap Part.index? = [] := by
  simp [literalParts, gapParts, Part.index?, List.filterMap_flatMap, Function.comp_def]

/-! ## Reading the pattern of a template -/

/-- The draft has read the given parts and has nothing open. -/
structure Laid (parts : List Part) (d : Draft) : Prop where
  set : d.set? = none
  outer : d.outer = []
  frame : d.frame = { Draft.start.frame with pieces := (parts.map Part.piece).reverse }
  keeps : Keeps .start d

namespace Laid

variable {parts : List Part} {d last : Draft} {ts : List Pattern.Token}

theorem start : Laid [] .start := ⟨rfl, rfl, rfl, .refl _⟩

theorem verbose (h : Laid parts d) : d.frame.verbose = false := by rw [h.frame]; rfl

theorem push (h : Laid parts d) {part : Part} {e : Draft} (hKeeps : Keeps d e) (hSet : e.set? = d.set?)
    (hOuter : e.outer = d.outer)
    (hFrame : e.frame = { d.frame with pieces := part.piece :: d.frame.pieces }) :
    Laid (parts ++ [part]) e where
  set := hSet.trans h.set
  outer := hOuter.trans h.outer
  frame := by simp [hFrame, h.frame]
  keeps := h.keeps.trans hKeeps

theorem char (h : Laid parts d) (c : Char) (hRun : Steps d (Pattern.literalToken c :: ts) last []) :
    ∃ e, Steps d (Pattern.literalToken c :: ts) e ts ∧ Laid (parts ++ [.char c]) e ∧ Keeps d e := by
  have hKeeps := (Pattern.Edit.push d (.code c.toNat) .ordinary rfl).keeps
  exact ⟨_, hRun.literal h.set h.verbose, h.push hKeeps rfl rfl rfl, hKeeps⟩

theorem chars (h : Laid parts d) (text : List Char)
    (hRun : Steps d (text.map Pattern.literalToken ++ ts) last []) :
    ∃ e, Steps d (text.map Pattern.literalToken ++ ts) e ts ∧ Laid (parts ++ text.map .char) e ∧
      Keeps d e := by
  induction text generalizing parts d with
  | nil => exact ⟨d, .refl d ts, by simpa using h, .refl d⟩
  | cons c text ih =>
    obtain ⟨e, hSteps, hLaid, hKeeps⟩ := h.char c hRun
    obtain ⟨f, hSteps', hLaid', hKeeps'⟩ := ih hLaid (hSteps.onward hRun)
    exact ⟨f, hSteps.trans hSteps', by simpa using hLaid', hKeeps.trans hKeeps'⟩

theorem gap (h : Laid parts d) (hUngreedy : Pattern.Ungreedy ts)
    (hRun : Steps d (.plain '.' :: .plain '*' :: ts) last []) :
    ∃ e, Steps d (.plain '.' :: .plain '*' :: ts) e ts ∧ Laid (parts ++ [.gap]) e ∧ Keeps d e := by
  have hPush := (Pattern.Edit.push d .any .ordinary rfl).keeps
  have hDot := hRun.plain h.set h.verbose (by decide) (by decide) rfl
  have hCheck : (d.push .any).checkRepeatable 0 = .ok ⟨.any, .ordinary⟩ := rfl
  have hRepeat := (Pattern.Edit.repeatLast hCheck .greedy 0 none).keeps
  have hStar := Steps.greedy (d := d.push .any) (c := '*') h.set h.verbose rfl rfl rfl hUngreedy
    (hDot.onward hRun)
  have hKeeps := hPush.trans hRepeat
  exact ⟨_, hDot.trans hStar, h.push hKeeps rfl rfl rfl, hKeeps⟩

theorem gaps (h : Laid parts d) (more : List (List Char)) {rest : List Char}
    (hUngreedy : Pattern.Ungreedy (Pattern.tokenize rest))
    (hRun : Steps d (Pattern.tokenize (more.flatMap gapPattern ++ rest)) last []) :
    ∃ e, Steps d (Pattern.tokenize (more.flatMap gapPattern ++ rest)) e (Pattern.tokenize rest) ∧
      Laid (parts ++ more.flatMap gapParts) e ∧ Keeps d e := by
  induction more generalizing parts d with
  | nil => exact ⟨d, .refl d _, by simpa using h, .refl d⟩
  | cons part more ih =>
    have hBehind := ungreedy_literally part (ungreedy_gaps more hUngreedy)
    rw [List.flatMap_cons, List.append_assoc, tokenize_gapPattern] at hRun ⊢
    rw [Pattern.tokenize_literally_append] at hRun hBehind ⊢
    obtain ⟨e, hSlash, hLaid₁, hKeeps₁⟩ := h.char '/' hRun
    have hRun₁ := hSlash.onward hRun
    obtain ⟨f, hGap, hLaid₂, hKeeps₂⟩ := hLaid₁.gap hBehind hRun₁
    have hRun₂ := hGap.onward hRun₁
    obtain ⟨g, hChars, hLaid₃, hKeeps₃⟩ := hLaid₂.chars part hRun₂
    obtain ⟨last', hMore, hLaid₄, hKeeps₄⟩ := ih hLaid₃ (hChars.onward hRun₂)
    refine ⟨last', hSlash.trans (hGap.trans (hChars.trans hMore)), ?_,
      hKeeps₁.trans (hKeeps₂.trans (hKeeps₃.trans hKeeps₄))⟩
    simpa [gapParts] using hLaid₄

theorem literal (h : Laid parts d) (text : List Char) {rest : List Char}
    (hUngreedy : Pattern.Ungreedy (Pattern.tokenize rest))
    (hRun : Steps d (Pattern.tokenize (literalPattern text ++ rest)) last []) :
    ∃ e, Steps d (Pattern.tokenize (literalPattern text ++ rest)) e (Pattern.tokenize rest) ∧
      Laid (parts ++ literalParts text) e ∧ Keeps d e := by
  have hPattern : literalPattern text = Pattern.literally (Text.splitOnPair '/' '*' text).1 ++
      (Text.splitOnPair '/' '*' text).2.flatMap gapPattern := rfl
  rw [hPattern, List.append_assoc, Pattern.tokenize_literally_append] at hRun ⊢
  obtain ⟨e, hChars, hLaid, hKeeps⟩ := h.chars _ hRun
  obtain ⟨f, hGaps, hLaid', hKeeps'⟩ := hLaid.gaps _ hUngreedy (hChars.onward hRun)
  refine ⟨f, hChars.trans hGaps, ?_, hKeeps.trans hKeeps'⟩
  rw [List.append_assoc] at hLaid'
  exact hLaid'

/-- A field begins by opening a group of its own. -/
theorem opens (h : Laid parts d) (place : Nat)
    (hRun : Steps d (.plain '(' :: .plain '?' :: .plain 'P' :: .plain '<' ::
      ((groupName place).toList.map .plain ++ .plain '>' :: ts)) last []) :
    ∃ e start, Steps d (.plain '(' :: .plain '?' :: .plain 'P' :: .plain '<' ::
        ((groupName place).toList.map .plain ++ .plain '>' :: ts)) e ts ∧ Keeps d e ∧
      e.set? = none ∧ e.outer = d.frame :: d.outer ∧
      e.frame = { opener := .capture d.groups.length, start, verbose := false } ∧
      e.names.lookup (groupName place) = some d.groups.length := by
  cases hRun with
  | @step _ e _ _ _ us _ hHead _ =>
    have hName : '>' ∉ (groupName place).toList := notMem_groupName place (by decide) (by decide)
    obtain ⟨rfl, start, left, hOpen⟩ := Pattern.readStep_namedHead h.set h.verbose hName hHead
    rw [String.ofList_toList] at hOpen
    obtain ⟨hSet, hOuter, hFrame, hLookup⟩ := Draft.opened_of_openCapture hOpen
    rw [h.set] at hSet
    rw [h.verbose] at hFrame
    exact ⟨e, start, .single hHead, (Pattern.Edit.capture hOpen).keeps, hSet, hOuter, hFrame, hLookup⟩

theorem field (h : Laid parts d) {P : Node → Prop} {f : Field} (hReads : Reads P f.pattern.toList)
    (place : Nat) {rest : List Char}
    (hRun : Steps d (Pattern.tokenize (fieldPattern place f ++ rest)) last []) :
    ∃ e index body, Steps d (Pattern.tokenize (fieldPattern place f ++ rest)) e
        (Pattern.tokenize rest) ∧ Laid (parts ++ [.field index body]) e ∧ Keeps d e ∧ P body ∧
      e.names.lookup (groupName place) = some index := by
  rw [tokenize_fieldPattern place hReads.dangling_notMem] at hRun ⊢
  obtain ⟨e₁, start, hHead, hKeeps₁, hSet₁, hOuter₁, hFrame₁, hLookup⟩ := h.opens place hRun
  obtain ⟨e₂, hBody, hSet₂, hOuter₂, hOpener₂, hP, hKeeps₂⟩ := hReads.steps hSet₁
    (by simp [hOuter₁]) ⟨start, hFrame₁⟩ ⟨_, rfl⟩ (hHead.onward hRun)
  have hRun₂ := hBody.onward (hHead.onward hRun)
  cases hRun₂ with
  | @step _ e₃ _ _ _ us _ hClose hRun₃ =>
    obtain ⟨rfl, left', hClose'⟩ := Pattern.closeFrame_of_readStep hSet₂ hClose
    obtain ⟨parent, node, hCloses⟩ := Draft.closes_of_closeFrame hClose'
    have hKeeps := hKeeps₁.trans (hKeeps₂.trans (Pattern.Edit.leave hClose').keeps)
    have hOuter₃ : parent :: e₃.outer = d.frame :: d.outer := by
      rw [← hCloses.outer, hOuter₂, hOuter₁]
    obtain ⟨rfl, hOuter⟩ := List.cons.inj hOuter₃
    obtain rfl := hCloses.capture _ hOpener₂
    refine ⟨e₃, d.groups.length, e₂.frame.body, hHead.trans (hBody.trans (.single hClose)), ?_,
      hKeeps, hP, (hKeeps₂.trans (Pattern.Edit.leave hClose').keeps).lookup hLookup⟩
    exact h.push hKeeps (hCloses.set.trans (hSet₂.trans h.set.symm)) hOuter hCloses.frame

end Laid

def fieldIndices (parts : List Part) : List Nat := parts.filterMap Part.index?

/-- A run over the pattern of a template lays out its tokens. -/
theorem lays_of_steps {P : Field → Node → Prop} {tokens : List Token}
    (hReads : ∀ f, .field f ∈ tokens → Reads (P f) f.pattern.toList) (place : Nat)
    {before : List Part} {d last : Draft} (h : Laid before d)
    (hRun : Steps d (Pattern.tokenize (patternOfTokens place tokens)) last []) :
    ∃ parts, Lays P tokens parts ∧ Laid (before ++ parts) last ∧ Keeps d last ∧
      ∀ i index, (fieldIndices parts)[i]? = some index →
        last.names.lookup (groupName (place + i)) = some index := by
  induction tokens generalizing place before d with
  | nil =>
    obtain ⟨rfl, -⟩ := hRun.eq_of_nil
    exact ⟨[], .nil, by simpa using h, .refl _, fun i index hIndex => by cases hIndex⟩
  | cons token rest ih =>
    have hRest : ∀ f, .field f ∈ rest → Reads (P f) f.pattern.toList :=
      fun f hf => hReads f (List.mem_cons_of_mem _ hf)
    cases token with
    | literal text =>
      -- The tokens behind the text begin with no mark that could change its last repetition.
      rw [patternOfTokens] at hRun
      obtain ⟨e, hSteps, hLaid, hKeeps⟩ :=
        h.literal text.toList (ungreedy_patternOfTokens place rest) hRun
      obtain ⟨parts, hLays, hLaid', hKeeps', hNames⟩ := ih hRest place hLaid (hSteps.onward hRun)
      refine ⟨_, .literal text hLays, by rwa [List.append_assoc] at hLaid', hKeeps.trans hKeeps', ?_⟩
      rw [fieldIndices, List.filterMap_append, filterMap_literalParts, List.nil_append]
      exact hNames
    | field f =>
      rw [patternOfTokens] at hRun
      obtain ⟨e, index, body, hSteps, hLaid, hKeeps, hP, hLookup⟩ :=
        h.field (hReads f List.mem_cons_self) place hRun
      obtain ⟨parts, hLays, hLaid', hKeeps', hNames⟩ :=
        ih hRest (place + 1) hLaid (hSteps.onward hRun)
      refine ⟨_, .field index hP hLays, by rwa [List.append_assoc] at hLaid', hKeeps.trans hKeeps', ?_⟩
      intro i index' hIndex
      cases i with
      | zero =>
        -- Later fields have later names, so that this one keeps its number.
        obtain rfl : index = index' := by simpa [fieldIndices, Part.index?] using hIndex
        exact hKeeps'.lookup hLookup
      | succ i =>
        have hIndex' : (fieldIndices parts)[i]? = some index' := by
          simpa [fieldIndices, Part.index?] using hIndex
        rw [Nat.add_comm i 1, ← Nat.add_assoc]
        exact hNames i index' hIndex'

/-- The matcher of a template is made of the parts of its tokens. -/
structure Layout (P : Field → Node → Prop) (t : Template) (parts : List Part) : Prop where
  lays : Lays P t.tokens parts
  node : t.matcher.node = .ofSequence (parts.map Part.node)
  mode : t.matcher.mode = {}
  nodup : t.matcher.node.indices.Nodup
  group : ∀ i index, (fieldIndices parts)[i]? = some index →
    t.matcher.groupIndex? (groupName i) = some index

theorem mem_fields {t : Template} {f : Field} : f ∈ t.fields ↔ .field f ∈ t.tokens := by
  rw [fields, List.mem_filterMap]
  constructor
  · rintro ⟨token, hMem, hField⟩
    cases token with
    | literal text => cases hField
    | field g =>
      cases hField
      exact hMem
  · intro hMem
    exact ⟨.field f, hMem, rfl⟩

theorem compile_eq_ok {p : PatternSource} {source : String} {t : Template}
    (h : compile p source = .ok t) :
    t.source = source ∧ readTokens p source.toList = .ok t.tokens ∧
      t.pattern = patternOfTokens 0 t.tokens ∧ Pattern.compile t.pattern = .ok t.matcher := by
  rw [compile] at h
  split at h
  · cases h
  · rename_i tokens hTokens
    dsimp only at h
    split at h
    · rename_i matcher hMatcher
      cases h
      exact ⟨rfl, hTokens, rfl, hMatcher⟩
    · cases h
    · cases h

theorem exists_layout {P : Field → Node → Prop} {p : PatternSource} {source : String} {t : Template}
    (h : compile p source = .ok t) (hReads : ∀ f ∈ t.fields, Reads (P f) f.pattern.toList) :
    ∃ parts, Layout P t parts := by
  obtain ⟨-, -, hPattern, hMatcher⟩ := compile_eq_ok h
  rw [hPattern] at hMatcher
  obtain ⟨-, last, hRun, hFinish⟩ := Pattern.compile_eq_ok_iff.mp hMatcher
  obtain ⟨parts, hLays, hLaid, hKeeps, hNames⟩ :=
    lays_of_steps (fun f hf => hReads f (mem_fields.mpr hf)) 0 .start hRun
  obtain ⟨-, -, hCompiled⟩ := Draft.closed_of_finish hFinish
  have hNode : last.frame.body = .ofSequence (parts.map Part.node) := by
    simp [hLaid.frame, Draft.start, Frame.body, Frame.sequence, Node.ofBranches]
    rfl
  refine ⟨parts, hLays, by rw [hCompiled, hNode], ?_, ?_, fun i index hIndex => ?_⟩
  · rw [hCompiled, hKeeps.globalFlags]
    rfl
  · rw [hCompiled]
    apply List.nodup_iff_count_le_one.mpr
    intro i
    have hCount := List.nodup_iff_count_le_one.mp (hKeeps.numbered Draft.numbered_start).nodup i
    rw [Draft.indices, List.flatMap_cons, List.count_append, Frame.indices, List.count_append,
      List.count_append] at hCount
    rw [last.frame.count_indices_body]
    omega
  · rw [hCompiled]
    have hName := hNames i index hIndex
    rwa [Nat.zero_add] at hName

end UriRouting.Template
