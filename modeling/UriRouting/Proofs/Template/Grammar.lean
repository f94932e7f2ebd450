import Mathlib.Data.List.Chain
import UriRouting.Proofs.Outcome
import UriRouting.Proofs.Template.Layout

/-! # The grammar of templates

`Written` is what a template may be put together from: literal text and three forms of field expression.
Where no literal text stands beside other literal text, the template is cut again where it was put
together, though a field that ends in two braces is told from one that ends in a single brace only by
what stands further right. -/

set_option autoImplicit false

namespace UriRouting.Template

inductive Written where
  | literal (text : List Char)
  | plain (name : List Char)
  /-- A field that takes whatever is left. -/
  | rest (name : List Char)
  | matching (name pattern : List Char)
deriving DecidableEq, Repr

/-- A name by which a field may go. -/
structure IsName (name : List Char) : Prop where
  ne_nil : name ≠ []
  colon : ':' ∉ name
  opening : '{' ∉ name
  closing : '}' ∉ name

/-- A pattern as it may stand in a field expression: a closing brace may only be its last character,
and needs an opening brace in front of it. -/
inductive IsFieldPattern : List Char → Prop where
  | unclosed {pattern : List Char} (hNil : pattern ≠ []) (h : '}' ∉ pattern) : IsFieldPattern pattern
  | closed {front : List Char} (hOpening : '{' ∈ front) (h : '}' ∉ front) : IsFieldPattern (front ++ ['}'])

theorem IsFieldPattern.ne_nil {pattern : List Char} (h : IsFieldPattern pattern) : pattern ≠ [] := by
  cases h with
  | unclosed hNil h => exact hNil
  | closed hOpening h => simp

namespace Written

def segment : Written → Segment
  | literal text => .literal text
  | plain name => .field name
  | rest name => .field (name ++ ['*'])
  | matching name pattern => .field (name ++ ':' :: pattern)

def source (w : Written) : List Char := w.segment.source

/-- What it stands for if no patterns are given by name or type. -/
def token (w : Written) : Token :=
  match w with
  | literal text => .literal (String.ofList text)
  | plain name => .field ⟨String.ofList w.source, String.ofList name, defaultPattern, false⟩
  | rest name => .field ⟨String.ofList w.source, String.ofList name, wildcardPattern, true⟩
  | matching name pattern =>
    .field ⟨String.ofList w.source, String.ofList name, String.ofList pattern, false⟩

def name? : Written → Option String
  | literal _ => none
  | plain name | rest name | matching name _ => some (String.ofList name)

def WellFormed : Written → Prop
  | literal text => text ≠ [] ∧ '{' ∉ text ∧ '}' ∉ text
  | plain name => IsName name ∧ name.getLast? ≠ some '*'
  | rest name => IsName name
  | matching name pattern => IsName name ∧ IsFieldPattern pattern

/-- Two pieces of literal text do not stand side by side. -/
def Apart (v w : Written) : Prop := ¬ (v.segment.isLiteral = true ∧ w.segment.isLiteral = true)

end Written

/-! ## Where a template is cut -/

theorem segmentsFrom_drop (skip : Nat) (s : List Char) :
    segmentsFrom skip s = segmentsFrom 0 (s.drop skip) := by
  induction s generalizing skip with
  | nil => simp [segmentsFrom]
  | cons c rest ih =>
    cases skip with
    | zero => rfl
    | succ skip => rw [segmentsFrom, ih, List.drop_succ_cons]

theorem segments_field {content rest : List Char} (h : fieldContent? (content ++ '}' :: rest) = some content) :
    segments ('{' :: content ++ '}' :: rest) = .field content :: segments rest := by
  rw [segments, List.cons_append, segmentsFrom, if_pos rfl, h]
  dsimp only
  have hBehind : (content ++ '}' :: rest).drop (content.length + 1) = rest := by
    rw [List.drop_append]
    simp
  rw [segmentsFrom_drop, hBehind, segments]

/-- Literal text goes on to the field behind it. -/
theorem segments_literal {text rest : List Char} (hNil : text ≠ []) (hOpening : '{' ∉ text)
    (hRest : ∀ s ∈ (segments rest).head?, s.isLiteral = false) :
    segments (text ++ rest) = .literal text :: segments rest := by
  induction text with
  | nil => exact absurd rfl hNil
  | cons c text ih =>
    rw [List.mem_cons, not_or] at hOpening
    rw [List.cons_append, segments, segmentsFrom, if_neg (Ne.symm hOpening.1)]
    cases text with
    | nil =>
      change literalCons c (segments rest) = _
      cases hSegments : segments rest with
      | nil => rfl
      | cons s more =>
        cases s with
        | literal text => cases hRest (.literal text) (by rw [hSegments]; rfl)
        | field content => rfl
    | cons d text =>
      change literalCons c (segments ((d :: text) ++ rest)) = _
      rw [ih (List.cons_ne_nil _ _) hOpening.2]
      rfl

theorem fieldContent?_unclosed {content rest : List Char} (hNil : content ≠ []) (h : '}' ∉ content)
    (hRest : rest.head? ≠ some '}') : fieldContent? (content ++ '}' :: rest) = some content := by
  simp [fieldContent?, Text.partition_append rest h, hNil, hRest]

theorem fieldContent?_closed {name front : List Char} (rest : List Char) (hName : IsName name)
    (hOpening : '{' ∈ front) (h : '}' ∉ front) :
    fieldContent? (name ++ front ++ '}' :: '}' :: rest) = some (name ++ front ++ ['}']) := by
  have hClosing : '}' ∉ name ++ front := by
    rw [List.mem_append, not_or]
    exact ⟨hName.closing, h⟩
  have hNil : name ++ front ≠ [] := by
    simp [hName.ne_nil]
  have hAgain : opensAgain (name ++ front ++ '}' :: '}' :: rest) = true := by
    cases name with
    | nil => exact absurd rfl hName.ne_nil
    | cons c name =>
      have hHead : c ≠ '{' := fun hc => hName.opening (hc ▸ List.mem_cons_self)
      simp [opensAgain, hHead, hOpening]
  rw [fieldContent?, Text.partition_append ('}' :: rest) hClosing, hAgain]
  simp [hName.ne_nil]

namespace Written

/-- Nothing that may be written begins with a closing brace. -/
theorem head?_source_ne {ws : List Written} (h : ∀ w ∈ ws, w.WellFormed) :
    (ws.flatMap source).head? ≠ some '}' := by
  cases ws with
  | nil => simp
  | cons w ws =>
    have hw := h w List.mem_cons_self
    cases w with
    | literal text =>
      obtain ⟨hNil, -, hClosing⟩ := hw
      cases text with
      | nil => exact absurd rfl hNil
      | cons c text =>
        intro hHead
        exact hClosing (Option.some.inj hHead ▸ List.mem_cons_self)
    | _ => simp [source, segment, Segment.source]

theorem segments_append {w : Written} {rest : List Char} (hw : w.WellFormed)
    (hRest : rest.head? ≠ some '}')
    (hApart : w.segment.isLiteral = true → ∀ s ∈ (segments rest).head?, s.isLiteral = false) :
    segments (w.source ++ rest) = w.segment :: segments rest := by
  have hField {content : List Char} (h : fieldContent? (content ++ '}' :: rest) = some content) :
      segments ((Segment.field content).source ++ rest) = .field content :: segments rest := by
    rw [← segments_field h]
    simp [Segment.source]
  cases w with
  | literal text => exact segments_literal hw.1 hw.2.1 (hApart rfl)
  | plain name => exact hField (fieldContent?_unclosed hw.1.ne_nil hw.1.closing hRest)
  | rest name =>
    have hClosing : '}' ∉ name ++ ['*'] := by simp [IsName.closing hw]
    exact hField (fieldContent?_unclosed (by simp) hClosing hRest)
  | matching name pattern =>
    obtain ⟨hName, hPattern⟩ := hw
    cases hPattern with
    | unclosed hNil h =>
      have hClosing : '}' ∉ name ++ ':' :: pattern := by simp [hName.closing, h]
      exact hField (fieldContent?_unclosed (by simp) hClosing hRest)
    | @closed front hOpening h =>
      have hClosing : '}' ∉ ':' :: front := List.not_mem_cons_of_ne_of_not_mem (by decide) h
      have hContent :=
        fieldContent?_closed rest hName (List.mem_cons_of_mem ':' hOpening) hClosing
      exact hField (by simpa using hContent)

/-- A template is cut where it was put together. -/
theorem segments_flatMap_source {ws : List Written} (h : ∀ w ∈ ws, w.WellFormed)
    (hApart : ws.IsChain Apart) : segments (ws.flatMap source) = ws.map segment := by
  induction ws with
  | nil => rfl
  | cons w ws ih =>
    obtain ⟨hw, hws⟩ := List.forall_mem_cons.mp h
    have hRest := ih hws hApart.tail
    rw [List.flatMap_cons, segments_append hw (head?_source_ne hws), hRest, List.map_cons]
    intro hLiteral s hs
    rw [hRest, List.head?_map] at hs
    obtain ⟨v, hv, rfl⟩ := Option.map_eq_some_iff.mp hs
    have hBoth := List.isChain_cons.mp hApart |>.1 v hv
    exact Bool.eq_false_iff.mpr fun hs => hBoth ⟨hLiteral, hs⟩

/-! ## What the segments are read as -/

theorem readField_of_splitField {content name : List Char} {pattern? : Option String} {wildcard : Bool}
    (hName : IsName name) (h : splitField content = .ok ⟨String.ofList name, pattern?, wildcard⟩) :
    readField content = .ok ⟨String.ofList name, pattern?, wildcard⟩ := by
  simp [readField, h, hName.ne_nil, hName.opening, hName.closing, bind, Except.bind, pure, Except.pure]

theorem readField_plain {name : List Char} (hName : IsName name) (hLast : name.getLast? ≠ some '*') :
    readField name = .ok ⟨String.ofList name, none, false⟩ := by
  apply readField_of_splitField hName
  simp [splitField, Text.partition_of_not_mem hName.colon, hLast, pure, Except.pure]

theorem readField_rest {name : List Char} (hName : IsName name) :
    readField (name ++ ['*']) = .ok ⟨String.ofList name, none, true⟩ := by
  have hColon : ':' ∉ name ++ ['*'] := by simp [hName.colon]
  apply readField_of_splitField hName
  simp [splitField, Text.partition_of_not_mem hColon, pure, Except.pure]

theorem readField_matching {name pattern : List Char} (hName : IsName name) (hPattern : pattern ≠ []) :
    readField (name ++ ':' :: pattern) = .ok ⟨String.ofList name, some (String.ofList pattern), false⟩ := by
  apply readField_of_splitField hName
  cases pattern with
  | nil => exact absurd rfl hPattern
  | cons c pattern =>
    rw [splitField, Text.partition_append (c :: pattern) hName.colon]
    rfl

theorem readToken_segment {w : Written} (h : w.WellFormed) : readToken {} w.segment = .ok w.token := by
  cases w with
  | literal text =>
    simp only [segment, readToken, checkLiteral_eq_ok_iff.mpr h.2]
    rfl
  | plain name =>
    simp only [segment, readToken, readField_plain h.1 h.2]
    rfl
  | rest name =>
    simp only [segment, readToken, readField_rest h]
    rfl
  | matching name pattern =>
    simp only [segment, readToken, readField_matching h.1 h.2.ne_nil]
    rfl

theorem readTokens_source {ws : List Written} (h : ∀ w ∈ ws, w.WellFormed) (hApart : ws.IsChain Apart) :
    readTokens {} (ws.flatMap source) = .ok (ws.map token) := by
  rw [readTokens, segments_flatMap_source h hApart, List.mapM_map]
  exact mapM_eq_ok fun w hw => readToken_segment (h w hw)

theorem namesIn_source {ws : List Written} (h : ∀ w ∈ ws, w.WellFormed) (hApart : ws.IsChain Apart) :
    namesIn (String.ofList (ws.flatMap source)) = .ok (ws.filterMap name?) := by
  rw [namesIn, String.toList_ofList, segments_flatMap_source h hApart]
  refine mapError_eq_ok_iff.mpr (filterMapM_map_eq_ok fun w hw => ?_)
  have hw := h w hw
  cases w with
  | literal text => rfl
  | plain name => exact bind_eq_ok_iff.mpr ⟨_, readField_plain hw.1 hw.2, rfl⟩
  | rest name => exact bind_eq_ok_iff.mpr ⟨_, readField_rest hw, rfl⟩
  | matching name pattern => exact bind_eq_ok_iff.mpr ⟨_, readField_matching hw.1 hw.2.ne_nil, rfl⟩

end Written

/-- What was put together is found again: the names of the fields, and if the template is accepted its
tokens. -/
theorem tokens_of_source {ws : List Written} (h : ∀ w ∈ ws, w.WellFormed)
    (hApart : ws.IsChain Written.Apart) :
    namesIn (String.ofList (ws.flatMap Written.source)) = .ok (ws.filterMap Written.name?) ∧
    ∀ t, compile {} (String.ofList (ws.flatMap Written.source)) = .ok t →
      t.tokens = ws.map Written.token := by
  refine ⟨Written.namesIn_source h hApart, fun t hCompile => ?_⟩
  obtain ⟨-, hTokens, -, -⟩ := compile_eq_ok hCompile
  rw [String.toList_ofList, Written.readTokens_source h hApart] at hTokens
  exact (Except.ok.inj hTokens).symm

/-- Braces that count, a brace in a set, and fields side by side. -/
theorem tokens_of_source_of_adjacent :
    let ws : List Written := [.literal ['/'], .matching ['y'] "[0-9]\x7b4\x7d".toList, .plain ['m'],
      .matching ['d'] "[\x7b]".toList, .rest ['p']]
    let source := "/\x7by:[0-9]\x7b4\x7d\x7d\x7bm\x7d\x7bd:[\x7b]\x7d\x7bp*\x7d"
    namesIn source = .ok ["y", "m", "d", "p"] ∧
    ∃ t, compile {} source = .ok t ∧ t.tokens = ws.map Written.token := by
  intro ws source
  have hName (c : Char) (hc : c ∉ [':', '{', '}']) : IsName [c] := by
    simp only [List.mem_cons, not_or] at hc
    exact ⟨List.cons_ne_nil _ _, by simp [Ne.symm hc.1], by simp [Ne.symm hc.2.1], by simp [Ne.symm hc.2.2.1]⟩
  have hWellFormed : ∀ w ∈ ws, w.WellFormed := by
    simp only [ws, List.forall_mem_cons]
    exact ⟨⟨by decide, by decide, by decide⟩,
      ⟨hName 'y' (by decide), @IsFieldPattern.closed "[0-9]\x7b4".toList (by decide) (by decide)⟩,
      ⟨hName 'm' (by decide), by decide⟩,
      ⟨hName 'd' (by decide), .unclosed (by decide) (by decide)⟩,
      hName 'p' (by decide), List.forall_mem_nil _⟩
  have hApart : ws.IsChain Written.Apart := by
    simp [ws, Written.Apart, Written.segment, Segment.isLiteral]
  obtain ⟨hNames, hTokens⟩ := tokens_of_source hWellFormed hApart
  obtain ⟨t, h, -⟩ := exists_ok_of_any (x := compile {} source) (p := fun _ => true) (by decide +kernel)
  exact ⟨hNames, t, h, hTokens t h⟩

end UriRouting.Template
