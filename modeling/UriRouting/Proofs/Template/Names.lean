import UriRouting.Proofs.Template.FieldForm

/-! # Fields of names

Whatever characters the names of an enumeration are made of, the pattern of a field that takes these
names can be read. -/

set_option autoImplicit false

namespace UriRouting.Template

open Pattern (Draft Frame Steps)

section Steps

variable {d : Draft} {ts : List Pattern.Token}

theorem noDangling_of_notMem (h : .dangling ∉ ts) : Pattern.noDangling ts = .ok () := by
  rw [Pattern.noDangling_eq_ok_iff]
  exact fun hHead => h (List.mem_of_mem_head? hHead)

theorem steps_literal (hSet : d.set? = none) (hVerbose : d.frame.verbose = false) (text : List Char)
    (hNo : .dangling ∉ ts) :
    Steps d (text.map Pattern.literalToken ++ ts) (pushAll d (literalPieces text)) ts := by
  induction text generalizing d with
  | nil => exact .refl d ts
  | cons c text ih =>
    have hBehind : .dangling ∉ text.map Pattern.literalToken ++ ts := by
      rw [List.mem_append]
      exact fun hMem => hMem.elim (dangling_notMem_literal text) hNo
    have hChar : Pattern.readStep d (Pattern.literalToken c :: (text.map Pattern.literalToken ++ ts)) =
        .ok (d.push (.code c.toNat), text.map Pattern.literalToken ++ ts) := by
      rw [Pattern.readStep_literalToken hSet hVerbose, noDangling_of_notMem hBehind]
      rfl
    have hBoth : pushAll (d.push (.code c.toNat)) (literalPieces text) =
        pushAll d (literalPieces (c :: text)) := by
      simp [pushAll, Draft.push, literalPieces]
    exact hBoth ▸ .step hChar (ih hSet hVerbose)

theorem steps_names {names : List (List Char)} (hNames : names ≠ []) (hSet : d.set? = none)
    (hVerbose : d.frame.verbose = false) {index : Nat} (hOpener : d.frame.opener = .capture index)
    (hNo : .dangling ∉ ts) :
    ∃ branches pieces, Steps d (enumTokens names ++ ts)
      { d with frame := { d.frame with branches, pieces } } ts := by
  induction names generalizing d with
  | nil => exact absurd rfl hNames
  | cons name rest ih =>
    cases rest with
    | nil => exact ⟨_, _, steps_literal hSet hVerbose name hNo⟩
    | cons other rest =>
      have hBehind : .dangling ∉ enumTokens (other :: rest) ++ ts := by
        rw [List.mem_append]
        exact fun hMem => hMem.elim (dangling_notMem_enumTokens _) hNo
      have hTokens : enumTokens (name :: other :: rest) ++ ts = name.map Pattern.literalToken ++
          (.plain '|' :: (enumTokens (other :: rest) ++ ts)) := by
        rw [enumTokens, List.append_assoc, List.cons_append]
        intro hNil
        cases hNil
      have hBar : .dangling ∉ .plain '|' :: (enumTokens (other :: rest) ++ ts) :=
        List.not_mem_cons_of_ne_of_not_mem (fun hEq => by cases hEq) hBehind
      have hName := steps_literal hSet hVerbose name hBar
      let before := pushAll d (literalPieces name)
      have hNext : Pattern.readStep before (.plain '|' :: (enumTokens (other :: rest) ++ ts)) =
          .ok (nextBranch before, enumTokens (other :: rest) ++ ts) := by
        refine (readStep_bar (d := before) hSet hOpener).trans ?_
        rw [noDangling_of_notMem hBehind]
        rfl
      obtain ⟨branches, pieces, hRest⟩ :=
        ih (d := nextBranch before) (List.cons_ne_nil _ _) hSet hVerbose hOpener
      refine ⟨branches, pieces, ?_⟩
      rw [hTokens]
      exact hName.trans (.step hNext hRest)

theorem readName_eq_ok {what : String} {terminator : Char} {cs a : List Char} (hNone : terminator ∉ cs)
    (hName : a ++ cs ≠ []) (hNo : .dangling ∉ ts) :
    Pattern.readName what terminator a (cs.map .plain ++ .plain terminator :: ts) =
      .ok (String.ofList (a ++ cs), ts) := by
  induction cs generalizing a with
  | nil =>
    have hSome : a.isEmpty = false := by simpa using hName
    rw [List.map_nil, List.nil_append, Pattern.readName, noDangling_of_notMem hNo, if_pos rfl, hSome,
      List.append_nil]
    rfl
  | cons c cs ih =>
    rw [List.mem_cons, not_or] at hNone
    have hBehind : .dangling ∉ cs.map Pattern.Token.plain ++ .plain terminator :: ts := by
      simp [hNo]
    rw [List.map_cons, List.cons_append, Pattern.readName, noDangling_of_notMem hBehind,
      if_neg fun hc => hNone.1 (Pattern.Token.plain.inj hc).symm]
    refine (ih (a := a ++ [c]) hNone.2 (by simp)).trans ?_
    rw [List.append_assoc, List.singleton_append]

def opened (d : Draft) (name : String) (start : Nat) : Draft :=
  { { d with groups := d.groups ++ [none] }.openFrame (.capture d.groups.length) start d.frame.verbose with
    names := d.names ++ [(name, d.groups.length)] }

theorem openCapture_eq_ok {name : String} (hNew : d.names.lookup name = none) (start left : Nat) :
    d.openCapture (some name) start left = .ok (opened d name start) := by
  simp only [Draft.openCapture, hNew]
  rfl

theorem readStep_namedHead_eq_ok (hSet : d.set? = none) (hVerbose : d.frame.verbose = false)
    (name : List Char) (hEnd : '>' ∉ name) (hIdentifier : Unicode.isIdentifier name = true)
    (hNew : d.names.lookup (String.ofList name) = none) (hNo : .dangling ∉ ts) :
    ∃ start, Pattern.readStep d (.plain '(' :: .plain '?' :: .plain 'P' :: .plain '<' ::
        (name.map .plain ++ .plain '>' :: ts)) = .ok (opened d (String.ofList name) start, ts) := by
  have hNil : name ≠ [] := by
    rintro rfl
    cases hIdentifier
  have hBehind : .dangling ∉ name.map Pattern.Token.plain ++ .plain '>' :: ts := by
    simp [hNo]
  have hGroup : Pattern.readGroupName '>' (name.map .plain ++ .plain '>' :: ts) =
      .ok (String.ofList name, ts) := by
    rw [Pattern.readGroupName, readName_eq_ok (a := []) hEnd hNil hNo]
    refine (if_pos ?_).trans rfl
    rw [String.toList_ofList]
    exact hIdentifier
  have hHead (rest : List Pattern.Token) (h : .dangling ∉ rest) (start : Nat) :
      Pattern.readExtension d start (.plain 'P' :: .plain '<' :: rest) =
        Pattern.readGroupName '>' rest >>= fun group =>
          d.openCapture (some group.1) start (Pattern.charsLeft group.2) >>= fun e => pure (e, group.2) := by
    simp only [Pattern.readExtension, Pattern.readNamedHead, noDangling_of_notMem h]
    rfl
  refine ⟨Pattern.charsLeft (.plain '?' :: .plain 'P' :: .plain '<' ::
    (name.map .plain ++ .plain '>' :: ts)) + 1, ?_⟩
  rw [Pattern.readStep_plain hSet hVerbose (by decide) (by decide), Pattern.readPlain, Pattern.readGroup,
    Pattern.take?_cons]
  refine (hHead _ hBehind _).trans ?_
  rw [hGroup]
  exact bind_eq_ok_iff.mpr ⟨_, rfl, bind_eq_ok_iff.mpr ⟨_, openCapture_eq_ok hNew _ _, rfl⟩⟩

theorem readStep_close_eq_ok (hSet : d.set? = none) {index : Nat}
    (hOpener : d.frame.opener = .capture index) {parent : Frame} {outer : List Frame}
    (hOuter : d.outer = parent :: outer) (hNo : .dangling ∉ ts) :
    Pattern.readStep d (.plain ')' :: ts) = .ok ({ d with
      frame := { parent with pieces := ⟨.group index d.frame.body, .ordinary⟩ :: parent.pieces }
      outer
      groups := d.groups.set index (some (d.nodeWidth d.frame.body)) }, ts) := by
  simp only [Pattern.readStep, hSet, Draft.closeFrame, hOuter, hOpener, noDangling_of_notMem hNo]
  rfl

/-- The pattern of a template with one field that takes names. -/
theorem exists_compile_names {names : List (List Char)} (hNames : names ≠ []) (f : Field)
    (hPattern : f.pattern.toList = Text.joinWith ['|'] (names.map Pattern.literally)) :
    ∃ p, Pattern.compile (patternOfTokens 0 [.literal "/x/", .field f]) = .ok p := by
  have hEnum : Pattern.tokenize f.pattern.toList = enumTokens names := hPattern ▸ tokenize_joinWith names
  have hNoEnum := dangling_notMem_enumTokens names
  have hTokens : Pattern.tokenize (patternOfTokens 0 [.literal "/x/", .field f]) =
      "/x/".toList.map Pattern.literalToken ++ .plain '(' :: .plain '?' :: .plain 'P' :: .plain '<' ::
        ("_p0".toList.map .plain ++ .plain '>' :: (enumTokens names ++ [.plain ')'])) := by
    have hField := tokenize_fieldPattern 0 (f := f) (hEnum ▸ hNoEnum) []
    rw [hEnum] at hField
    refine (Pattern.tokenize_literally_append "/x/".toList _).trans (congrArg (HAppend.hAppend _) ?_)
    exact hField
  have hNoClose : .dangling ∉ [Pattern.Token.plain ')'] := by decide
  have hNoTail : .dangling ∉ enumTokens names ++ [Pattern.Token.plain ')'] := by
    rw [List.mem_append]
    exact fun hMem => hMem.elim hNoEnum hNoClose
  have hNoHead : .dangling ∉ .plain '(' :: .plain '?' :: .plain 'P' :: .plain '<' ::
      ("_p0".toList.map .plain ++ .plain '>' :: (enumTokens names ++ [Pattern.Token.plain ')'])) := by
    simp [hNoTail]
  let before := pushAll .start (literalPieces "/x/".toList)
  obtain ⟨start, hHead⟩ := readStep_namedHead_eq_ok (d := before) rfl rfl "_p0".toList (by decide)
    (by decide +kernel) rfl hNoTail
  obtain ⟨branches, pieces, hBody⟩ :=
    steps_names (d := opened before "_p0" start) hNames rfl rfl rfl hNoClose
  let inside : Draft := { opened before "_p0" start with frame :=
    { (opened before "_p0" start).frame with branches, pieces } }
  have hClose := readStep_close_eq_ok (d := inside) rfl rfl rfl List.not_mem_nil
  have hSteps := (steps_literal (d := .start) rfl rfl "/x/".toList hNoHead).trans
    (.step hHead (hBody.trans (.single hClose)))
  refine ⟨_, Pattern.compile_eq_ok_iff.mpr ⟨?_, _, hTokens ▸ hSteps, rfl⟩⟩
  rw [hTokens]
  rfl

end Steps

end UriRouting.Template
