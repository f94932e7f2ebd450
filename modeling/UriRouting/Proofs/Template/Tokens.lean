import Mathlib.Data.List.Chain
import UriRouting.Generation
import UriRouting.Proofs.Template.Layout

/-! # The tokens of a template

A template is the texts of its tokens one after the other, in which every stretch between two fields is
one literal token at most. The names of the fields can be had without compiling the template, and
putting values in order changes nothing but the fields that there are values for. -/

set_option autoImplicit false

namespace UriRouting.Template

/-! ## Segments -/

/-- Literal text is never empty, and never stands beside other literal text. -/
structure WellCut (segments : List Segment) : Prop where
  ne_nil : ∀ text, .literal text ∈ segments → text ≠ []
  apart : segments.IsChain fun a b => a.isLiteral = false ∨ b.isLiteral = false

theorem WellCut.field {segments : List Segment} (h : WellCut segments) (content : List Char) :
    WellCut (.field content :: segments) where
  ne_nil text hMem := h.ne_nil text ((List.mem_cons.mp hMem).resolve_left (fun hEq => by cases hEq))
  apart := List.isChain_cons.mpr ⟨fun _ _ => .inl rfl, h.apart⟩

theorem WellCut.literalCons {segments : List Segment} (h : WellCut segments) (c : Char) :
    WellCut (literalCons c segments) := by
  cases segments with
  | nil =>
    constructor
    · intro text hMem
      cases List.mem_singleton.mp hMem
      exact List.cons_ne_nil _ _
    · exact .singleton _
  | cons s rest =>
    obtain ⟨hHead, hRest⟩ := List.isChain_cons.mp h.apart
    cases s with
    | literal text =>
      constructor
      · intro other hMem
        rcases List.mem_cons.mp hMem with hEq | hMem
        · cases hEq
          exact List.cons_ne_nil _ _
        · exact h.ne_nil other (List.mem_cons_of_mem _ hMem)
      · exact List.isChain_cons.mpr ⟨hHead, hRest⟩
    | field content =>
      constructor
      · intro other hMem
        rcases List.mem_cons.mp hMem with hEq | hMem
        · cases hEq
          exact List.cons_ne_nil _ _
        · exact h.ne_nil other hMem
      · refine List.isChain_cons.mpr ⟨fun s hs => ?_, h.apart⟩
        cases hs
        exact .inr rfl

theorem wellCut_segmentsFrom (skip : Nat) (s : List Char) : WellCut (segmentsFrom skip s) := by
  induction s generalizing skip with
  | nil =>
    rw [segmentsFrom]
    exact ⟨fun text hMem => absurd hMem List.not_mem_nil, .nil⟩
  | cons c rest ih =>
    cases skip with
    | succ skip => exact ih skip
    | zero =>
      rw [segmentsFrom]
      split
      · split
        · exact (ih _).field _
        · exact (ih 0).literalCons c
      · exact (ih 0).literalCons c

/-! ## Reading the segments -/

namespace Token

def isLiteral : Token → Bool
  | literal _ => true
  | field _ => false

end Token

theorem readToken_cases {p : PatternSource} {s : Segment} {token : Token}
    (h : readToken p s = .ok token) :
    (∃ text, s = .literal text ∧ token = .literal (String.ofList text) ∧ '{' ∉ text ∧ '}' ∉ text) ∨
    ∃ content f, s = .field content ∧ readField content = .ok f ∧
      token = .field ⟨String.ofList s.source, f.name, p.patternOf f, f.wildcard⟩ := by
  cases s with
  | literal text =>
    obtain ⟨⟨⟩, hCheck, hToken⟩ := bind_eq_ok_iff.mp h
    cases hToken
    exact .inl ⟨text, rfl, rfl, checkLiteral_eq_ok_iff.mp hCheck⟩
  | field content =>
    obtain ⟨f, hField, hToken⟩ := bind_eq_ok_iff.mp h
    cases hToken
    exact .inr ⟨content, f, rfl, hField, rfl⟩

/-- Tokens that segments are read as, one by one. -/
def ReadAs (p : PatternSource) : List Segment → List Token → Prop :=
  List.Forall₂ fun s token => readToken p s = .ok token

namespace ReadAs

variable {p : PatternSource} {segments : List Segment} {tokens : List Token}

theorem source_eq (h : ReadAs p segments tokens) :
    tokens.flatMap (·.source.toList) = segments.flatMap Segment.source := by
  induction h with
  | nil => rfl
  | cons hToken h ih => rw [List.flatMap_cons, List.flatMap_cons, source_readToken hToken, ih]

theorem literal_cases (h : ReadAs p segments tokens) {text : String} (hMem : .literal text ∈ tokens) :
    .literal text.toList ∈ segments ∧ '{' ∉ text.toList ∧ '}' ∉ text.toList := by
  induction h with
  | nil => cases hMem
  | cons hToken h ih =>
    rcases List.mem_cons.mp hMem with rfl | hMem
    · obtain ⟨chars, rfl, hEq, hBraces⟩ | ⟨content, f, -, -, hEq⟩ := readToken_cases hToken
      · cases hEq
        rw [String.toList_ofList]
        exact ⟨List.mem_cons_self, hBraces⟩
      · cases hEq
    · obtain ⟨hSegment, hBraces⟩ := ih hMem
      exact ⟨List.mem_cons_of_mem _ hSegment, hBraces⟩

theorem isLiteral_eq (h : ReadAs p segments tokens) :
    tokens.map Token.isLiteral = segments.map Segment.isLiteral := by
  induction h with
  | nil => rfl
  | cons hToken h ih =>
    rw [List.map_cons, List.map_cons, ih]
    obtain ⟨text, rfl, rfl, -⟩ | ⟨content, f, rfl, -, rfl⟩ := readToken_cases hToken <;> rfl

theorem namesIn_eq_ok {source : String} (h : ReadAs p (Template.segments source.toList) tokens) :
    namesIn source = .ok ((tokens.filterMap Token.field?).map Field.name) := by
  rw [namesIn, mapError_eq_ok_iff]
  generalize Template.segments source.toList = segments at h
  induction h with
  | nil => rfl
  | cons hToken h ih =>
    rw [List.filterMapM_cons]
    obtain ⟨text, rfl, rfl, -⟩ | ⟨content, f, rfl, hField, rfl⟩ := readToken_cases hToken
    · exact ih
    · simp only [hField, ih]
      rfl

end ReadAs

theorem readAs_of_compile {p : PatternSource} {source : String} {t : Template}
    (h : compile p source = .ok t) : ReadAs p (segments source.toList) t.tokens :=
  forall₂_of_mapM (compile_eq_ok h).2.1

/-! ## Values in order -/

/-- A text put together from what stands in front of the first place, and each place with what stands
behind it. -/
def laidOut (first : List Char) (places behind : List (List Char)) : List Char :=
  first ++ (places.zip behind).flatMap fun part => part.1 ++ part.2

/-- What stands in the places of fields for the given values. -/
def shown (fields : List Field) (values : List Value) : List (List Char) :=
  fields.mapIdx fun i f => (values[i]?.map Value.text).getD f.source.toList

/-- Literal text stays where it is, whatever the values are. -/
theorem exists_laidOut (tokens : List Token) :
    ∃ first behind, behind.length = (tokens.filterMap Token.field?).length ∧
      ∀ values, Generation.tokensInOrder tokens values =
        laidOut first (shown (tokens.filterMap Token.field?) values) behind := by
  induction tokens with
  | nil => exact ⟨[], [], rfl, fun values => rfl⟩
  | cons token rest ih =>
    obtain ⟨first, behind, hLength, hRest⟩ := ih
    cases token with
    | literal text =>
      refine ⟨text.toList ++ first, behind, hLength, fun values => ?_⟩
      rw [Generation.tokensInOrder, hRest, laidOut, laidOut, List.append_assoc]
      rfl
    | field f =>
      refine ⟨[], first :: behind, congrArg (· + 1) hLength, fun values => ?_⟩
      cases values with
      | nil =>
        rw [Generation.tokensInOrder, hRest]
        simp [laidOut, shown, Token.field?]
      | cons v values =>
        rw [Generation.tokensInOrder, hRest]
        simp [laidOut, shown, Token.field?]

theorem shown_nil (fields : List Field) : shown fields [] = fields.map (·.source.toList) := by
  apply List.ext_getElem
  · rw [shown, List.length_mapIdx, List.length_map]
  · intro i _ _
    simp [shown]

theorem tokensInOrder_nil (tokens : List Token) :
    Generation.tokensInOrder tokens [] = tokens.flatMap (·.source.toList) := by
  induction tokens with
  | nil => rfl
  | cons token rest ih => cases token <;> simp [Generation.tokensInOrder, ih, Token.source]

/-- Tokens lose nothing of the template. Their fields have the names that are found without compiling it,
and only in the places of fields does it matter which values are put in. -/
theorem tokens_of_compile (p : PatternSource) (source : String) :
    (∀ t, compile p source = .ok t →
      t.tokens.flatMap (·.source.toList) = source.toList ∧
      (∀ text, .literal text ∈ t.tokens → text ≠ "" ∧ '{' ∉ text.toList ∧ '}' ∉ text.toList) ∧
      t.tokens.IsChain (fun a b => a.isLiteral = false ∨ b.isLiteral = false) ∧
      t.names = (t.tokens.filterMap Token.field?).map Field.name ∧ namesIn source = .ok t.names ∧
      ∃ first behind, behind.length = t.fields.length ∧
        source.toList = laidOut first (t.fields.map (·.source.toList)) behind ∧
        ∀ values, Generation.inOrder t values = laidOut first (shown t.fields values) behind) ∧
    ∀ e, namesIn source = .error e → ∃ e', compile p source = .error e' := by
  have hNames (t : Template) (h : compile p source = .ok t) : namesIn source = .ok t.names :=
    (readAs_of_compile h).namesIn_eq_ok
  constructor
  · intro t h
    have hRead := readAs_of_compile h
    have hCut : WellCut (segments source.toList) := wellCut_segmentsFrom 0 source.toList
    have hSource := hRead.source_eq.trans (source_segments source.toList)
    obtain ⟨first, behind, hLength, hShown⟩ := exists_laidOut t.tokens
    refine ⟨hSource, ?_, ?_, rfl, hNames t h, first, behind, hLength, ?_, hShown⟩
    · intro text hMem
      obtain ⟨hSegment, hBraces⟩ := hRead.literal_cases hMem
      refine ⟨?_, hBraces⟩
      rintro rfl
      exact hCut.ne_nil _ hSegment rfl
    · have hApart := hCut.apart
      rw [← List.isChain_map (R := fun a b => a = false ∨ b = false)] at hApart ⊢
      rwa [hRead.isLiteral_eq]
    · have hNone := hShown []
      rwa [tokensInOrder_nil, hSource, shown_nil] at hNone
  · intro e hError
    cases h : compile p source with
    | error e' => exact ⟨e', rfl⟩
    | ok t => cases hError.symm.trans (hNames t h)

/-- A pattern with braces, a name that comes twice, and two values for three fields. -/
theorem tokens_of_compile_of_repeated :
    let source := "/\x7bid:[0-9]\x7b4\x7d\x7d-\x7bid\x7d\x7brest*\x7d"
    ∃ t first behind, compile {} source = .ok t ∧ namesIn source = .ok ["id", "id", "rest"] ∧
      source.toList = laidOut first (t.fields.map (·.source.toList)) behind ∧
      Generation.inOrder t [.int 7, .null] =
        laidOut first ["7".toList, "None".toList, "\x7brest*\x7d".toList] behind := by
  intro source
  obtain ⟨t, h, hTest⟩ := exists_ok_of_any (x := compile {} source)
    (p := fun t => t.names = ["id", "id", "rest"] ∧ shown t.fields [.int 7, .null] =
      ["7".toList, "None".toList, "\x7brest*\x7d".toList]) (by decide +kernel)
  obtain ⟨hNames, hShown⟩ := of_decide_eq_true hTest
  obtain ⟨-, -, -, -, hNamesIn, first, behind, -, hSource, hOrder⟩ := (tokens_of_compile {} source).1 t h
  exact ⟨t, first, behind, h, hNames ▸ hNamesIn, hSource, hShown ▸ hOrder [.int 7, .null]⟩

end UriRouting.Template
