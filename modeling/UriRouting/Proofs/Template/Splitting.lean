import UriRouting.Proofs.Pattern.Language
import UriRouting.Proofs.Template.Layout

/-! # Paths split along templates

`Splits` says what it means for a path to be made of the tokens of a template, without reference to
patterns: literal text stands for itself, and each field for one text of its set. Matching a template
is finding such a split, and what its fields capture is the texts of the fields in one of them. -/

set_option autoImplicit false

namespace UriRouting.Template

open Pattern (Located Marks Node State)

/-- What literal text stands for: itself, save that `/*` stands for a slash and any text on one line. -/
inductive LiteralText : List Char → List Char → Prop where
  | nil : LiteralText [] []
  | gap {u text v : List Char} (hLine : '\n' ∉ u) (h : LiteralText text v) :
      LiteralText ('/' :: '*' :: text) ('/' :: u ++ v)
  | char {c : Char} {text v : List Char} (hPair : ∀ rest, c :: text ≠ '/' :: '*' :: rest)
      (h : LiteralText text v) : LiteralText (c :: text) (c :: v)

/-- A path made of tokens; `raws` are the texts of the fields in their order. -/
inductive Splits (sets : Field → Language Char) : List Token → List (List Char) → List Char → Prop where
  | nil : Splits sets [] [] []
  | literal {text : String} {u : List Char} {rest : List Token} {raws : List (List Char)}
      {path : List Char} (hText : LiteralText text.toList u) (h : Splits sets rest raws path) :
      Splits sets (.literal text :: rest) raws (u ++ path)
  | field {f : Field} {raw : List Char} {rest : List Token} {raws : List (List Char)}
      {path : List Char} (hRaw : raw ∈ sets f) (h : Splits sets rest raws path) :
      Splits sets (.field f :: rest) (raw :: raws) (raw ++ path)

/-! ## Literal text -/

theorem literalParts_gap (text : List Char) :
    literalParts ('/' :: '*' :: text) = .char '/' :: .gap :: literalParts text := by
  simp [literalParts, Text.splitOnPair, gapParts]

theorem literalParts_char {c : Char} {text : List Char} (hPair : ∀ rest, c :: text ≠ '/' :: '*' :: rest) :
    literalParts (c :: text) = .char c :: literalParts text := by
  cases text with
  | nil => rfl
  | cons d text =>
    have hNot : ¬ (c = '/' ∧ d = '*') := by
      rintro ⟨rfl, rfl⟩
      exact hPair text rfl
    simp [literalParts, Text.splitOnPair, hNot]

theorem literal_cases {motive : List Char → Prop} (nil : motive [])
    (gap : ∀ text, motive text → motive ('/' :: '*' :: text))
    (char : ∀ c text, (∀ rest, c :: text ≠ '/' :: '*' :: rest) → motive text → motive (c :: text))
    (text : List Char) : motive text := by
  fun_induction Text.splitOnPair '/' '*' text with
  | case1 x y rest h first more heq ih =>
    obtain ⟨rfl, rfl⟩ := h
    exact gap rest ih
  | case2 x y rest h first more heq ih =>
    refine char x _ (fun more hMore => h ?_) ih
    cases hMore
    exact ⟨rfl, rfl⟩
  | case3 s h =>
    cases s with
    | nil => exact nil
    | cons c s =>
      cases s with
      | nil => exact char c [] (fun rest hRest => by cases hRest) nil
      | cons d s => exact absurd rfl (h c d s)

theorem literalText_gap_iff {text u : List Char} :
    LiteralText ('/' :: '*' :: text) u ↔
      ∃ w v, '\n' ∉ w ∧ LiteralText text v ∧ u = '/' :: w ++ v := by
  constructor
  · rintro (_ | ⟨hLine, h⟩ | ⟨hPair, _⟩)
    · exact ⟨_, _, hLine, h, rfl⟩
    · exact absurd rfl (hPair text)
  · rintro ⟨w, v, hLine, h, rfl⟩
    exact .gap hLine h

theorem literalText_char_iff {c : Char} {text u : List Char}
    (hPair : ∀ rest, c :: text ≠ '/' :: '*' :: rest) :
    LiteralText (c :: text) u ↔ ∃ v, LiteralText text v ∧ u = c :: v := by
  constructor
  · rintro (_ | ⟨_, _⟩ | ⟨_, h⟩)
    · exact absurd rfl (hPair _)
    · exact ⟨_, h, rfl⟩
  · rintro ⟨v, h, rfl⟩
    exact .char hPair h

/-- Any text on one line. -/
theorem denotes_line : (Node.repeated .greedy 0 none .any).Denotes {u | '\n' ∉ u} := by
  apply (Node.Denotes.any.unbounded 0).of_eq
  apply Language.ext
  intro u
  constructor
  · exact fun h hMem => by simpa using h.2 '\n' hMem
  · exact fun h => ⟨Nat.zero_le _, fun c hc => bne_iff_ne.mpr fun hEq => h (hEq ▸ hc)⟩

theorem denotes_literal (text : List Char) :
    (Node.ofSequence ((literalParts text).map Part.node)).Denotes {u | LiteralText text u} := by
  induction text using literal_cases with
  | nil =>
    apply Node.Denotes.empty.of_eq
    apply Language.ext
    intro u
    rw [Language.mem_one]
    constructor
    · rintro rfl
      exact .nil
    · rintro (_ | _ | _)
      rfl
  | gap text ih =>
    rw [literalParts_gap]
    apply ((Node.Denotes.char '/').seq (denotes_line.seq ih)).of_eq
    apply Language.ext
    intro u
    refine Iff.trans ?_ literalText_gap_iff.symm
    constructor
    · rintro ⟨_, rfl, _, ⟨w, hLine, v, h, rfl⟩, rfl⟩
      exact ⟨w, v, hLine, h, rfl⟩
    · rintro ⟨w, v, hLine, h, rfl⟩
      exact ⟨['/'], rfl, w ++ v, ⟨w, hLine, v, h, rfl⟩, rfl⟩
  | char c text hPair ih =>
    rw [literalParts_char hPair]
    apply ((Node.Denotes.char c).seq ih).of_eq
    apply Language.ext
    intro u
    refine Iff.trans ?_ (literalText_char_iff hPair).symm
    constructor
    · rintro ⟨_, rfl, v, h, rfl⟩
      exact ⟨v, h, rfl⟩
    · rintro ⟨v, h, rfl⟩
      exact ⟨[c], rfl, v, h, rfl⟩

/-! ## What a template accepts -/

section Accepts

variable {sets : Field → Language Char} {tokens : List Token} {parts : List Part}

theorem denotes_tokens (h : Lays (fun f body => body.Denotes (sets f)) tokens parts) :
    (Node.ofSequence (parts.map Part.node)).Denotes {path | ∃ raws, Splits sets tokens raws path} := by
  induction h with
  | nil =>
    apply Node.Denotes.empty.of_eq
    apply Language.ext
    intro u
    rw [Language.mem_one]
    constructor
    · rintro rfl
      exact ⟨[], .nil⟩
    · rintro ⟨raws, _ | _ | _⟩
      rfl
  | literal text h ih =>
    rw [List.map_append]
    apply ((denotes_literal text.toList).ofSequence_append ih).of_eq
    apply Language.ext
    intro path
    constructor
    · rintro ⟨u, hText, v, ⟨raws, hSplits⟩, rfl⟩
      exact ⟨raws, .literal hText hSplits⟩
    · rintro ⟨raws, _ | ⟨hText, hSplits⟩ | _⟩
      exact ⟨_, hText, _, ⟨raws, hSplits⟩, rfl⟩
  | field index hBody h ih =>
    apply ((hBody.group index).seq ih).of_eq
    apply Language.ext
    intro path
    constructor
    · rintro ⟨raw, hRaw, v, ⟨raws, hSplits⟩, rfl⟩
      exact ⟨raw :: raws, .field hRaw hSplits⟩
    · rintro ⟨raws, _ | _ | ⟨hRaw, hSplits⟩⟩
      exact ⟨_, hRaw, _, ⟨_, hSplits⟩, rfl⟩

/-- Matching starts at the front of the path and takes the first end at its very end. -/
theorem fullMatch?_eq (p : Pattern.Compiled) (path : List Char) :
    p.fullMatch? path =
      ((p.node.ends path p.mode ⟨0, path, []⟩).find? (·.rest.isEmpty)).map (·.marks) := by
  rw [Pattern.Compiled.fullMatch?, Node.run_eq_findSome?]
  generalize p.node.ends path p.mode ⟨0, path, []⟩ = ends
  congr 1
  induction ends with
  | nil => rfl
  | cons s ends ih =>
    rw [List.findSome?_cons, List.find?_cons, ih]
    cases s.rest.isEmpty <;> rfl

theorem located_start (path : List Char) : Located path ⟨0, path, []⟩ := rfl

theorem fullyMatches_iff (p : Pattern.Compiled) (path : List Char) :
    p.fullyMatches path = true ↔ ∃ e ∈ p.node.ends path p.mode ⟨0, path, []⟩, e.rest = [] := by
  rw [Pattern.Compiled.fullyMatches, fullMatch?_eq, Option.isSome_map, List.find?_isSome]
  simp only [List.isEmpty_iff]

theorem Layout.accepts_iff {t : Template}
    (h : Layout (fun f body => body.Denotes (sets f)) t parts) (path : List Char) :
    t.accepts path = true ↔ ∃ raws, Splits sets t.tokens raws path := by
  have hEnds := ((denotes_tokens h.lays) path).exists_end_iff _ [] (located_start path)
  rw [accepts, fullyMatches_iff, h.mode, h.node, hEnds]
  simp only [List.append_nil, exists_eq_right']
  exact Iff.rfl

end Accepts

/-! ## What the fields capture -/

section Captures

variable {sets : Field → Language Char} {tokens : List Token} {parts : List Part}

theorem nodup_behind (front back : List Part)
    (h : (Node.ofSequence ((front ++ back).map Part.node)).indices.Nodup) :
    (Node.ofSequence (back.map Part.node)).indices.Nodup := by
  rw [List.map_append, Node.indices_ofSequence, List.flatMap_append, ← Node.indices_ofSequence,
    ← Node.indices_ofSequence] at h
  exact h.of_append_right

/-- Behind the group of a field its mark is not touched again, whatever is matched there. -/
theorem captured?_of_mem_ends {index : Nat} {body : Node} {parts : List Part} {path v : List Char}
    {s t e : State} (hs : Located path s)
    (hNodup : (Node.ofSequence ((.field index body :: parts).map Part.node)).indices.Nodup)
    (ht : t ∈ (Node.group index body).ends path {} s)
    (he : e ∈ (Node.ofSequence (parts.map Part.node)).ends path {} t) (hRest : s.rest = v ++ t.rest) :
    e.marks.captured? path index = some v := by
  have hIndices : (index :: (body.indices ++
      (Node.ofSequence (parts.map Part.node)).indices)).Nodup := hNodup
  have hIndex := (List.nodup_cons.mp hIndices).1
  rw [List.mem_append, not_or] at hIndex
  -- The group's mark is right where the group ends, and nothing behind it has the same number.
  have hTaken := Node.captured?_of_mem_ends_group ht hs hIndex.1
  have hGroup := Node.extends_of_mem_ends ht hs
  have hEq := List.append_cancel_right ((hGroup.rest_eq hs).symm.trans hRest)
  have hKept := (Node.extends_of_mem_ends he hGroup.located).kept index hIndex.2
  rw [Marks.captured?, hKept, ← hEq, ← hTaken]
  rfl

theorem splits_of_mem_ends (h : Lays (fun f body => body.Within (sets f)) tokens parts)
    {path : List Char} {s e : State} (hs : Located path s)
    (hNodup : (Node.ofSequence (parts.map Part.node)).indices.Nodup)
    (he : e ∈ (Node.ofSequence (parts.map Part.node)).ends path {} s) :
    ∃ raws u, Splits sets tokens raws u ∧ s.rest = u ++ e.rest ∧
      (fieldIndices parts).map (e.marks.captured? path) = raws.map some := by
  induction h generalizing s with
  | nil =>
    obtain rfl := List.mem_singleton.mp he
    exact ⟨[], [], .nil, rfl, rfl⟩
  | literal text h ih =>
    rw [List.map_append, Node.ends_ofSequence_append] at he
    obtain ⟨t, ht, he⟩ := List.mem_flatMap.mp he
    obtain ⟨v, hText, hRest⟩ := (denotes_literal text.toList).within path s hs t ht
    obtain ⟨raws, u, hSplits, hRest', hRaws⟩ :=
      ih (Node.extends_of_mem_ends ht hs).located (nodup_behind _ _ hNodup) he
    refine ⟨raws, v ++ u, .literal hText hSplits, by rw [hRest, hRest', List.append_assoc], ?_⟩
    rw [fieldIndices, List.filterMap_append, filterMap_literalParts, List.nil_append]
    exact hRaws
  | @field f index body rest parts hBody h ih =>
    obtain ⟨t, ht, he⟩ := List.mem_flatMap.mp he
    obtain ⟨v, hv, hRest⟩ := within_group hBody index path s hs t ht
    have hLocated := (Node.extends_of_mem_ends ht hs).located
    obtain ⟨raws, u, hSplits, hRest', hRaws⟩ :=
      ih hLocated (nodup_behind [.field index body] parts hNodup) he
    refine ⟨v :: raws, v ++ u, .field hv hSplits, by rw [hRest, hRest', List.append_assoc], ?_⟩
    exact congrArg₂ List.cons (captured?_of_mem_ends hs hNodup ht he hRest) hRaws
where
  within_group {body : Node} {L : Language Char} (h : body.Within L) (index : Nat) :
      (Node.group index body).Within L := by
    intro text s hs e he
    obtain ⟨t, ht, rfl⟩ := List.mem_map.mp he
    exact h text { s with marks := s.marks.enter index s.pos } hs t ht

theorem length_fieldIndices {P : Field → Node → Prop} (h : Lays P tokens parts) :
    (fieldIndices parts).length = (tokens.filterMap Token.field?).length := by
  induction h with
  | nil => rfl
  | literal text h ih =>
    rw [fieldIndices, List.filterMap_append, filterMap_literalParts, List.nil_append]
    exact ih
  | field index hBody h ih => exact congrArg (· + 1) ih

/-- The end that matching takes. -/
theorem exists_end_of_accepts {t : Template} {path : List Char} (hAccepts : t.accepts path = true) :
    ∃ e, (t.matcher.node.ends path t.matcher.mode ⟨0, path, []⟩).find? (·.rest.isEmpty) = some e := by
  obtain ⟨marks, hMarks⟩ := Option.isSome_iff_exists.mp hAccepts
  rw [fullMatch?_eq] at hMarks
  obtain ⟨e, hFind, -⟩ := Option.map_eq_some_iff.mp hMarks
  exact ⟨e, hFind⟩

/-- The captured texts are read off the marks at the end of the match. -/
theorem Layout.captures_eq_ok_of_find? {P : Field → Node → Prop} {t : Template} (h : Layout P t parts)
    {path : List Char} {e : State} {raws : List (List Char)}
    (hFind : (t.matcher.node.ends path t.matcher.mode ⟨0, path, []⟩).find? (·.rest.isEmpty) = some e)
    (hRaws : (fieldIndices parts).map (e.marks.captured? path) = raws.map some) :
    t.captures path = .ok (raws.map some) := by
  have hMarks : t.matcher.fullMatch? path = some e.marks := by
    rw [fullMatch?_eq, hFind, Option.map_some]
  rw [captures, hMarks, ← hRaws]
  have hLength : t.names.length = (fieldIndices parts).length := by
    rw [names, List.length_map, fields, length_fieldIndices h.lays]
  let captured (i : Nat) := ((fieldIndices parts).map (e.marks.captured? path))[i]?.join
  refine (mapM_eq_ok (g := captured) fun i hi => ?_).trans (congrArg Except.ok ?_)
  · rw [hLength, List.mem_range] at hi
    simp only [captured]
    rw [h.group i _ (List.getElem?_eq_getElem hi), List.getElem?_map, List.getElem?_eq_getElem hi]
    rfl
  · rw [hLength]
    apply List.ext_getElem (by simp)
    intro i hi hi'
    rw [List.length_map] at hi'
    simp [captured, hi']

/-- Each field captures the text that it stands for. -/
theorem Layout.captures_eq_ok {t : Template}
    (h : Layout (fun f body => body.Within (sets f)) t parts) {path : List Char}
    (hAccepts : t.accepts path = true) :
    ∃ raws, t.captures path = .ok (raws.map some) ∧ Splits sets t.tokens raws path := by
  obtain ⟨e, hFound⟩ := exists_end_of_accepts hAccepts
  have hFind := hFound
  rw [h.mode, h.node] at hFind
  have hEmpty := List.find?_some hFind
  have hEnd : e.rest = [] := List.isEmpty_iff.mp hEmpty
  obtain ⟨raws, u, hSplits, hRest, hRaws⟩ := splits_of_mem_ends h.lays (located_start path)
    (h.node ▸ h.nodup) (List.mem_of_find?_eq_some hFind)
  rw [hEnd, List.append_nil] at hRest
  have hPath : path = u := hRest
  subst hPath
  exact ⟨raws, h.captures_eq_ok_of_find? hFound hRaws, hSplits⟩

end Captures

end UriRouting.Template
