import UriRouting.Proofs.Pattern.Greedy
import UriRouting.Proofs.Template.FieldForm

/-! # Greedy splits

A path can be written in many ways as the literal text of a template with texts between it. Where all
fields take as much as they can, matching decides from left to right: what is captured belongs to the
way whose first text is longest, among those whose second is, and so on. -/

set_option autoImplicit false

namespace UriRouting.Template

open Pattern (Located Node State)

/-! ## Ways to write a path -/

inductive Element where
  | char (c : Char)
  /-- A place for text, of a field if there is one and else of an asterisk behind a slash. -/
  | place (field? : Option Field)

def literalElements : List Char → List Element
  | '/' :: '*' :: text => .char '/' :: .place none :: literalElements text
  | c :: text => .char c :: literalElements text
  | [] => []

def elements : List Token → List Element
  | [] => []
  | .literal text :: rest => literalElements text.toList ++ elements rest
  | .field f :: rest => .place (some f) :: elements rest

structure Span where
  field? : Option Field
  text : List Char

/-- What may stand in a place; what stands for an asterisk is on one line. -/
def placeTexts (sets : Field → Language Char) : Option Field → Language Char
  | none => {u | '\n' ∉ u}
  | some f => sets f

/-- A path as literal characters and one text for each place. -/
inductive Divides (sets : Field → Language Char) : List Element → List Span → List Char → Prop where
  | nil : Divides sets [] [] []
  | char (c : Char) {rest : List Element} {spans : List Span} {path : List Char}
      (h : Divides sets rest spans path) : Divides sets (.char c :: rest) spans (c :: path)
  | place {field? : Option Field} {text : List Char} {rest : List Element} {spans : List Span}
      {path : List Char} (hText : text ∈ placeTexts sets field?) (h : Divides sets rest spans path) :
      Divides sets (.place field? :: rest) (⟨field?, text⟩ :: spans) (text ++ path)

def lengths (spans : List Span) : List Nat := spans.map (·.text.length)

def fieldTexts (spans : List Span) : List (List Char) :=
  (spans.filter (·.field?.isSome)).map (·.text)

/-- Of all ways to write a path the one whose lengths are lexicographically greatest. -/
structure Greatest (sets : Field → Language Char) (elements : List Element) (spans : List Span)
    (path : List Char) : Prop where
  divides : Divides sets elements spans path
  lengths_lt : ∀ other, Divides sets elements other path → other ≠ spans → lengths other < lengths spans

namespace Greatest

variable {sets : Field → Language Char} {rest : List Element} {spans : List Span} {path : List Char}

theorem nil : Greatest sets [] [] [] where
  divides := .nil
  lengths_lt other hOther hNe := by
    cases hOther
    exact absurd rfl hNe

theorem char (h : Greatest sets rest spans path) (c : Char) :
    Greatest sets (.char c :: rest) spans (c :: path) where
  divides := .char c h.divides
  lengths_lt other hOther hNe := by
    obtain _ | ⟨_, hOther⟩ := hOther
    exact h.lengths_lt other hOther hNe

theorem place (h : Greatest sets rest spans path) {field? : Option Field} {text : List Char}
    (hText : text ∈ placeTexts sets field?)
    (hLongest : ∀ u ∈ placeTexts sets field?, ∀ w, (∃ other, Divides sets rest other w) →
      text ++ path = u ++ w → u.length ≤ text.length) :
    Greatest sets (.place field? :: rest) (⟨field?, text⟩ :: spans) (text ++ path) where
  divides := .place hText h.divides
  lengths_lt other hOther hNe := by
    generalize hPath : text ++ path = whole at hOther
    cases hOther with
    | @place _ u _ others w hu hOthers =>
      rcases Nat.lt_or_eq_of_le (hLongest u hu w ⟨others, hOthers⟩ hPath) with hLess | hEq
      · exact List.cons_lt_cons_iff.mpr (Or.inl hLess)
      · -- Texts of one length are the same, so that the ways differ behind them.
        obtain ⟨rfl, rfl⟩ := List.append_inj hPath hEq.symm
        have hBehind : others ≠ spans := fun hSame => hNe (hSame ▸ rfl)
        exact List.cons_lt_cons_iff.mpr (Or.inr ⟨rfl, h.lengths_lt others hOthers hBehind⟩)

end Greatest

/-! ## Elements and what they are compiled to -/

/-- The part that an element becomes; `P` relates a field to the body of its group. -/
inductive Becomes (P : Field → Node → Prop) : Element → Part → Prop where
  | char (c : Char) : Becomes P (.char c) (.char c)
  | gap : Becomes P (.place none) .gap
  | field {f : Field} (index : Nat) {body : Node} (hBody : P f body) :
      Becomes P (.place (some f)) (.field index body)

section Elements

variable {P : Field → Node → Prop}

theorem literalElements_char {c : Char} {text : List Char}
    (hPair : ∀ rest, c :: text ≠ '/' :: '*' :: rest) :
    literalElements (c :: text) = .char c :: literalElements text := by
  rw [literalElements.eq_def]
  split
  · rename_i rest hEq
    exact absurd hEq (hPair rest)
  · rename_i hEq
    cases hEq
    rfl
  · rename_i hEq
    cases hEq

theorem forall₂_literal (text : List Char) :
    List.Forall₂ (Becomes P) (literalElements text) (literalParts text) := by
  induction text using literal_cases with
  | nil => exact .nil
  | gap text ih =>
    rw [literalParts_gap]
    exact .cons (.char '/') (.cons .gap ih)
  | char c text hPair ih =>
    rw [literalElements_char hPair, literalParts_char hPair]
    exact .cons (.char c) ih

theorem Lays.forall₂ {tokens : List Token} {parts : List Part} (h : Lays P tokens parts) :
    List.Forall₂ (Becomes P) (elements tokens) parts := by
  induction h with
  | nil => exact .nil
  | literal text h ih => exact List.rel_append (forall₂_literal text.toList) ih
  | field index hBody h ih => exact .cons (.field index hBody) ih

end Elements

/-! ## What matching takes -/

section Match

variable {sets : Field → Language Char} {rest elements : List Element} {parts : List Part}

theorem denotes_char (c : Char) {node : Node}
    (hRest : node.Denotes {path | ∃ spans, Divides sets rest spans path}) :
    (Node.seq (.code c.toNat) node).Denotes {path | ∃ spans, Divides sets (.char c :: rest) spans path} := by
  apply ((Node.Denotes.char c).seq hRest).of_eq
  apply Language.ext
  intro path
  constructor
  · rintro ⟨_, rfl, w, ⟨spans, hDivides⟩, rfl⟩
    exact ⟨spans, .char c hDivides⟩
  · rintro ⟨spans, _ | ⟨_, hDivides⟩ | _⟩
    exact ⟨[c], rfl, _, ⟨spans, hDivides⟩, rfl⟩

theorem denotes_place {field? : Option Field} {body node : Node}
    (hBody : body.Denotes (placeTexts sets field?))
    (hRest : node.Denotes {path | ∃ spans, Divides sets rest spans path}) :
    (Node.seq body node).Denotes {path | ∃ spans, Divides sets (.place field? :: rest) spans path} := by
  apply (hBody.seq hRest).of_eq
  apply Language.ext
  intro path
  constructor
  · rintro ⟨text, hText, w, ⟨spans, hDivides⟩, rfl⟩
    exact ⟨_, .place hText hDivides⟩
  · rintro ⟨_, _ | _ | ⟨hText, hDivides⟩⟩
    exact ⟨_, hText, _, ⟨_, hDivides⟩, rfl⟩

theorem denotes_elements
    (h : List.Forall₂ (Becomes fun f body => body.Denotes (sets f) ∧ body.Greedy) elements parts) :
    (Node.ofSequence (parts.map Part.node)).Denotes {path | ∃ spans, Divides sets elements spans path} := by
  induction h with
  | nil =>
    apply Node.Denotes.empty.of_eq
    apply Language.ext
    intro path
    constructor
    · rintro rfl
      exact ⟨[], .nil⟩
    · rintro ⟨_, _ | _ | _⟩
      rfl
  | cons hBecomes _ ih =>
    cases hBecomes with
    | char c => exact denotes_char c ih
    | gap => exact denotes_place denotes_line ih
    | field index hBody => exact denotes_place (hBody.1.group index) ih

/-- One place more, with the longest text behind which the rest can be matched. -/
theorem exists_greatest_place {field? : Option Field} {body node : Node}
    (hGreedy : body.Greedy) (hBody : body.Denotes (placeTexts sets field?))
    (hRest : node.Denotes {path | ∃ spans, Divides sets rest spans path}) {path : List Char} {s e : State}
    (hs : Located path s)
    (he : ((Node.seq body node).ends path {} s).find? (·.rest.isEmpty) = some e) :
    ∃ t ∈ body.ends path {} s, ∃ text, s.rest = text ++ t.rest ∧
      (node.ends path {} t).find? (·.rest.isEmpty) = some e ∧
      ∀ spans, Greatest sets rest spans t.rest →
        Greatest sets (.place field? :: rest) (⟨field?, text⟩ :: spans) s.rest := by
  obtain ⟨t, ht, text, hText, hSplit, hTail, hLongest⟩ := hGreedy.exists_longest hBody hRest hs he
  refine ⟨t, ht, text, hSplit, hTail, fun spans hSpans => ?_⟩
  rw [hSplit]
  exact hSpans.place hText fun u hu w hw hEq => hLongest u hu w hw (hSplit.trans hEq)

/-- The first end of a match is that of the greatest way to write the path. -/
theorem exists_greatest
    (h : List.Forall₂ (Becomes fun f body => body.Denotes (sets f) ∧ body.Greedy) elements parts)
    {path : List Char} {s e : State} (hs : Located path s)
    (hNodup : (Node.ofSequence (parts.map Part.node)).indices.Nodup)
    (he : ((Node.ofSequence (parts.map Part.node)).ends path {} s).find? (·.rest.isEmpty) = some e) :
    ∃ spans, Greatest sets elements spans s.rest ∧
      (fieldIndices parts).map (e.marks.captured? path) = (fieldTexts spans).map some := by
  induction h generalizing s with
  | nil =>
    obtain rfl := List.mem_singleton.mp (List.mem_of_find?_eq_some he)
    have hEmpty := List.find?_some he
    have hEnd : e.rest = [] := List.isEmpty_iff.mp hEmpty
    exact ⟨[], hEnd ▸ .nil, rfl⟩
  | @cons element part rest parts hBecomes hRest ih =>
    have hDenotes := denotes_elements hRest
    cases hBecomes with
    | char c =>
      have hGreedy : (Node.code c.toNat).Greedy := fun text => Pattern.LongestFirst.one _
      obtain ⟨t, ht, v, hv, hSplit, hTail, -⟩ :=
        hGreedy.exists_longest (.char c) hDenotes hs he
      have hLocated := (Node.extends_of_mem_ends ht hs).located
      obtain ⟨spans, hSpans, hTexts⟩ := ih hLocated (nodup_behind [.char c] parts hNodup) hTail
      obtain rfl : v = [c] := hv
      exact ⟨spans, hSplit ▸ hSpans.char c, hTexts⟩
    | gap =>
      have hGreedy : Part.gap.node.Greedy := fun text => Pattern.LongestFirst.repeated _
      have hLine : Part.gap.node.Denotes (placeTexts sets none) := denotes_line
      obtain ⟨t, ht, text, hSplit, hTail, hPlace⟩ := exists_greatest_place hGreedy hLine hDenotes hs he
      have hLocated := (Node.extends_of_mem_ends ht hs).located
      obtain ⟨spans, hSpans, hTexts⟩ := ih hLocated (nodup_behind [.gap] parts hNodup) hTail
      exact ⟨_, hPlace spans hSpans, hTexts⟩
    | @field f index body hBody =>
      have hField : (Node.group index body).Denotes (placeTexts sets (some f)) := hBody.1.group index
      obtain ⟨t, ht, text, hSplit, hTail, hPlace⟩ :=
        exists_greatest_place (hBody.2.group index) hField hDenotes hs he
      have hLocated := (Node.extends_of_mem_ends ht hs).located
      obtain ⟨spans, hSpans, hTexts⟩ :=
        ih hLocated (nodup_behind [.field index body] parts hNodup) hTail
      have hCaptured := captured?_of_mem_ends hs hNodup ht (List.mem_of_find?_eq_some hTail) hSplit
      exact ⟨_, hPlace spans hSpans, congrArg₂ List.cons hCaptured hTexts⟩

end Match

/-! ## Templates of greedy fields -/

/-- The texts of a field of the default or the wildcard pattern. -/
def openTexts (f : Field) : Language Char :=
  if f.pattern = wildcardPattern then {u | '\n' ∉ u} else {u | '/' ∉ u}

theorem reads_open {f : Field} (h : f.pattern = defaultPattern ∨ f.pattern = wildcardPattern) :
    Pattern.Reads (fun body => body.Denotes (openTexts f) ∧ body.Greedy) f.pattern.toList := by
  rcases h with h | h
  · have hTexts : openTexts f = FieldForm.default.texts := by
      rw [openTexts, h]
      exact if_neg (by decide)
    rw [hTexts, h]
    refine reads_default.mono fun body hBody => hBody ▸ ⟨denotes_defaultBody, ?_⟩
    exact .ofSequence_single fun text => Pattern.LongestFirst.repeated _
  · have hTexts : openTexts f = FieldForm.wildcard.texts := by
      rw [openTexts, h]
      exact if_pos rfl
    rw [hTexts, h]
    refine reads_wildcard.mono fun body hBody => hBody ▸ ⟨denotes_wildcardBody, ?_⟩
    exact .ofSequence_single fun text => Pattern.LongestFirst.repeated _

/-- What the fields of an accepted path capture is greedy from the left. -/
theorem captures_greatest {p : PatternSource} {source : String} {t : Template}
    (h : compile p source = .ok t)
    (hPatterns : ∀ f ∈ t.fields, f.pattern = defaultPattern ∨ f.pattern = wildcardPattern)
    {path : List Char} (hAccepts : t.accepts path = true) :
    ∃ spans, Greatest openTexts (elements t.tokens) spans path ∧
      t.captures path = .ok ((fieldTexts spans).map some) := by
  obtain ⟨parts, hLayout⟩ := exists_layout h fun f hf => reads_open (hPatterns f hf)
  obtain ⟨e, hFound⟩ := exists_end_of_accepts hAccepts
  have hFind := hFound
  rw [hLayout.mode, hLayout.node] at hFind
  obtain ⟨spans, hSpans, hTexts⟩ := exists_greatest hLayout.lays.forall₂ (located_start path)
    (hLayout.node ▸ hLayout.nodup) hFind
  exact ⟨spans, hSpans, hLayout.captures_eq_ok_of_find? hFound hTexts⟩

/-- Of two fields side by side the first takes all, and what stands for the asterisk ends at the last dash. -/
theorem captures_greatest_of_adjacent :
    ∃ t, compile {} "/{a}{b}/*-{c*}" = .ok t ∧
      t.captures "/pq/x-y-z".toList = .ok [some "pq".toList, some [], some ['z']] ∧
      ∃ spans, Greatest openTexts (elements t.tokens) spans "/pq/x-y-z".toList ∧
        t.captures "/pq/x-y-z".toList = .ok ((fieldTexts spans).map some) := by
  obtain ⟨t, h, hTest⟩ := exists_ok_of_any (x := compile {} "/{a}{b}/*-{c*}")
    (p := fun t => (t.fields.all fun f => f.pattern = defaultPattern ∨ f.pattern = wildcardPattern) ∧
      t.accepts "/pq/x-y-z".toList ∧
      t.captures "/pq/x-y-z".toList = .ok [some "pq".toList, some [], some ['z']]) (by decide +kernel)
  obtain ⟨hFields, hAccepts, hCaptures⟩ := of_decide_eq_true hTest
  have hPatterns : ∀ f ∈ t.fields, f.pattern = defaultPattern ∨ f.pattern = wildcardPattern :=
    fun f hf => of_decide_eq_true (List.all_eq_true.mp hFields f hf)
  exact ⟨t, h, hCaptures, captures_greatest h hPatterns hAccepts⟩

end UriRouting.Template
