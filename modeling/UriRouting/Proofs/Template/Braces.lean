import UriRouting.Proofs.Template.Layout

/-! # Braces that do not balance

Literal text of an accepted template has no braces, and the name of a field has none. So a field
expression closes no more braces than it opens, unless it ends in two closing braces and opens none but
its own: it is cut behind the second one only because another brace opens further right. -/

set_option autoImplicit false

namespace UriRouting.Template

/-- The field ends in a brace that nothing in it opens. -/
def Segment.borrows : Segment → Bool
  | literal _ => false
  | field content => content.getLast? == some '}' && !content.contains '{'

theorem Segment.borrows_field_iff {content : List Char} :
    (field content).borrows = true ↔ content.getLast? = some '}' ∧ '{' ∉ content := by
  simp [borrows]

/-! ## Where a field expression ends -/

/-- A field expression ends at the first closing brace, or at the second if a brace opens behind it. -/
theorem fieldContent?_cases {s content : List Char} (h : fieldContent? s = some content) :
    '}' ∉ content ∨ ∃ head, content = head ++ ['}'] ∧ '}' ∉ head ∧ opensAgain s = true := by
  rw [fieldContent?] at h
  split at h
  · cases h
  · rename_i head behind hPartition
    have hHead := Text.notMem_of_partition hPartition
    split at h
    · cases h
    · split at h
      · rename_i hBoth
        cases h
        exact .inr ⟨head, rfl, hHead, (Bool.and_eq_true_iff.mp hBoth).1⟩
      · cases h
        exact .inl hHead

theorem mem_of_opensAgain {s : List Char} (h : opensAgain s = true) : '{' ∈ s := by
  cases s with
  | nil => cases h
  | cons c rest =>
    have hRest := (Bool.and_eq_true_iff.mp h).2
    exact List.mem_cons_of_mem c (List.contains_iff_mem.mp hRest)

/-- A character in front belongs to literal text, and the fields stay where they are. -/
theorem exists_eq_of_literalCons {c : Char} {content : List Char} {all front back : List Segment}
    (h : literalCons c all = front ++ .field content :: back) :
    ∃ front', all = front' ++ .field content :: back := by
  have hCons {first : Segment} {rest : List Segment} (hFirst : first.isLiteral = true)
      (h : first :: rest = front ++ .field content :: back) :
      ∃ front', rest = front' ++ .field content :: back := by
    cases front with
    | nil =>
      cases h
      cases hFirst
    | cons s front => exact ⟨front, (List.cons.inj h).2⟩
  cases all with
  | nil => exact hCons rfl h
  | cons s rest =>
    cases s with
    | field content => exact hCons rfl h
    | literal text =>
      obtain ⟨front', rfl⟩ := hCons rfl h
      exact ⟨.literal text :: front', rfl⟩

/-- Where a field is cut off depends on what the segments behind it were cut from. -/
theorem fieldContent?_of_segmentsFrom {skip : Nat} {s content : List Char} {front back : List Segment}
    (h : segmentsFrom skip s = front ++ .field content :: back) :
    fieldContent? (content ++ '}' :: back.flatMap Segment.source) = some content := by
  induction s generalizing skip front with
  | nil => simp [segmentsFrom] at h
  | cons c rest ih =>
    cases skip with
    | succ skip => exact ih h
    | zero =>
      rw [segmentsFrom] at h
      split at h
      · cases hContent : fieldContent? rest with
        | none =>
          rw [hContent] at h
          obtain ⟨front', hRest⟩ := exists_eq_of_literalCons h
          exact ih hRest
        | some found =>
          rw [hContent] at h
          cases front with
          | cons first front => exact ih (List.cons.inj h).2
          | nil =>
            obtain ⟨hFound, rfl⟩ := List.cons.inj h
            cases hFound
            obtain ⟨behind, rfl⟩ := fieldContent?_append hContent
            have hBehind : (content ++ '}' :: behind).drop (content.length + 1) = behind := by
              rw [List.drop_append]
              simp
            rwa [source_segmentsFrom, hBehind]
      · obtain ⟨front', hRest⟩ := exists_eq_of_literalCons h
        exact ih hRest

/-- The brace that a field borrows opens behind it. -/
theorem opens_behind_of_borrows {template content : List Char} {front back : List Segment}
    (h : segments template = front ++ .field content :: back)
    (hBorrows : (Segment.field content).borrows = true) : '{' ∈ back.flatMap Segment.source := by
  obtain ⟨hLast, hOpening⟩ := Segment.borrows_field_iff.mp hBorrows
  rcases fieldContent?_cases (fieldContent?_of_segmentsFrom h) with hClosing | ⟨head, -, -, hAgain⟩
  · exact absurd (List.mem_of_getLast? hLast) hClosing
  · have hMem := mem_of_opensAgain hAgain
    simpa only [List.mem_append, hOpening, false_or, List.mem_cons, Char.reduceEq] using hMem

/-! ## Counting braces -/

theorem count_content_le {template content : List Char} (hMem : .field content ∈ segments template) :
    content.count '}' ≤ content.count '{' + if (Segment.field content).borrows then 1 else 0 := by
  obtain ⟨front, back, hSplit⟩ := List.append_of_mem hMem
  rcases fieldContent?_cases (fieldContent?_of_segmentsFrom hSplit) with hClosing | ⟨head, hHead, hClosing, -⟩
  · rw [List.count_eq_zero.mpr hClosing]
    exact Nat.zero_le _
  · have hOne : content.count '}' = 1 := by
      simp [hHead, List.count_eq_zero.mpr hClosing]
    by_cases hOpening : '{' ∈ content
    · have hCount := List.count_pos_iff.mpr hOpening
      omega
    · have hBorrows : (Segment.field content).borrows = true :=
        Segment.borrows_field_iff.mpr ⟨by simp [hHead], hOpening⟩
      rw [hOne, if_pos hBorrows]
      exact Nat.le_add_left 1 _

/-- A segment closes no more braces than it opens, but for the one that it may borrow. -/
theorem count_source_le {p : PatternSource} {template : List Char} {s : Segment} {token : Token}
    (hMem : s ∈ segments template) (hRead : readToken p s = .ok token) :
    s.source.count '}' ≤ s.source.count '{' + if s.borrows then 1 else 0 := by
  cases s with
  | literal text =>
    obtain ⟨⟨⟩, hCheck, -⟩ := bind_eq_ok_iff.mp hRead
    have hClosing := (checkLiteral_eq_ok_iff.mp hCheck).2
    rw [Segment.source, List.count_eq_zero.mpr hClosing]
    exact Nat.zero_le _
  | field content =>
    have hContent := count_content_le hMem
    simp only [Segment.source, List.count_append, List.count_cons]
    simp
    omega

theorem count_flatMap_source_le {all : List Segment}
    (h : ∀ s ∈ all, s.source.count '}' ≤ s.source.count '{' + if s.borrows then 1 else 0) :
    (all.flatMap Segment.source).count '}' ≤
      (all.flatMap Segment.source).count '{' + all.countP Segment.borrows := by
  induction all with
  | nil => exact Nat.le_refl 0
  | cons s all ih =>
    obtain ⟨hs, hAll⟩ := List.forall_mem_cons.mp h
    have hRest := ih hAll
    simp only [List.flatMap_cons, List.count_append, List.countP_cons]
    omega

/-- What the tokens of a template can be read from closes no more braces than it opens and borrows. -/
theorem count_le_of_readTokens {p : PatternSource} {template : List Char} {tokens : List Token}
    (h : readTokens p template = .ok tokens) :
    template.count '}' ≤ template.count '{' + (segments template).countP Segment.borrows := by
  have hCount := count_flatMap_source_le fun s hs =>
    (exists_ok_of_mapM h s hs).elim fun token hRead => count_source_le hs hRead
  rwa [source_segments] at hCount

/-- More closing braces than the opening ones and the borrowed ones together are refused. A field borrows
for the sake of a brace that opens further right. -/
theorem malformed_of_surplus (p : PatternSource) (template : String) :
    (template.toList.count '{' + (segments template.toList).countP Segment.borrows <
        template.toList.count '}' →
      ∃ reason, compile p template = .error (.malformed template reason)) ∧
    ∀ front content back, segments template.toList = front ++ .field content :: back →
      (Segment.field content).borrows = true → '{' ∈ back.flatMap Segment.source := by
  refine ⟨fun hSurplus => ?_, fun front content back => opens_behind_of_borrows⟩
  cases hTokens : readTokens p template.toList with
  | error reason =>
    refine ⟨reason, ?_⟩
    rw [compile, hTokens]
    rfl
  | ok tokens =>
    exact absurd (Nat.lt_of_lt_of_le hSurplus (count_le_of_readTokens hTokens)) (Nat.lt_irrefl _)

/-- Three braces in a row, of which a later field lends one. -/
theorem malformed_of_surplus_of_three :
    let template := "/\x7bx\x7d\x7d\x7d/\x7by\x7d"
    (∃ reason, compile {} template = .error (.malformed template reason)) ∧
    '{' ∈ [Segment.literal "\x7d/".toList, .field ['y']].flatMap Segment.source := by
  intro template
  obtain ⟨hRefused, hOpens⟩ := malformed_of_surplus {} template
  exact ⟨hRefused (by decide +kernel),
    hOpens [.literal ['/']] "x\x7d".toList _ (by decide +kernel) (by decide +kernel)⟩

/-- The pattern of the first field takes a brace for its own that nothing opens, since a second field
follows. -/
theorem accepts_of_borrowed :
    let template := "/\x7bx:a\x7d\x7d/\x7by\x7d"
    template.toList.count '{' < template.toList.count '}' ∧
    ∃ t, compile {} template = .ok t ∧ t.accepts "/a\x7d/b".toList = true := by
  intro template
  refine ⟨by decide +kernel, ?_⟩
  obtain ⟨t, h, hAccepts⟩ := exists_ok_of_any (x := compile {} template)
    (p := fun t => t.accepts "/a\x7d/b".toList) (by decide +kernel)
  exact ⟨t, h, hAccepts⟩

end UriRouting.Template
