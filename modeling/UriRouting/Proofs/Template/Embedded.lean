import UriRouting.Proofs.Pattern.Inside
import UriRouting.Proofs.Template.Names
import UriRouting.Proofs.Template.Separated

/-! # Field patterns that mean the same inside a template

A portable pattern can be read wherever a field stands, and its group takes what the pattern takes
alone. -/

set_option autoImplicit false

namespace UriRouting.Template

open Pattern (Compiled Draft Embeds JustOpened Marks Moved Node ReadAlone State Steps renumber)

/-! ## Reading the front of a template -/

/-- A front of a template has been read: it is made of the given nodes, and all its names are taken. -/
structure Front (nodes : List Node) (taken : List String) (d : Draft) : Prop where
  set : d.set? = none
  outer : d.outer = []
  frame : ∃ pieces, d.frame = { Draft.start.frame with pieces } ∧ pieces.reverse.map (·.node) = nodes
  groups : d.groups.head? = some none
  fault : d.fault? = none
  mentions : d.mentions = []
  globalFlags : d.globalFlags = []
  names : ∀ name, name ∉ taken → d.names.lookup name = none

theorem justOpened {d : Draft} (hSet : d.set? = none) (hVerbose : d.frame.verbose = false)
    (hGroups : d.groups.head? = some none) (hBehind : d.behindLimit? = none) (hFault : d.fault? = none)
    (name : String) (start : Nat) : JustOpened (opened d name start) d.groups.length where
  set := hSet
  frame := ⟨start, by rw [← hVerbose]; rfl⟩
  groups := (List.head?_append_of_ne_nil _ fun hNil => by rw [hNil] at hGroups; cases hGroups).trans hGroups
  behind := hBehind
  fault := hFault

namespace Front

variable {nodes : List Node} {taken : List String} {d : Draft}

theorem start : Front [] [] .start := ⟨rfl, rfl, ⟨[], rfl, rfl⟩, rfl, rfl, rfl, rfl, fun _ _ => rfl⟩

theorem verbose (h : Front nodes taken d) : d.frame.verbose = false := by
  obtain ⟨pieces, hFrame, -⟩ := h.frame
  rw [hFrame]
  rfl

theorem literal (h : Front nodes taken d) (text : List Char) :
    Front (nodes ++ text.map fun c => .code c.toNat) taken (pushAll d (literalPieces text)) :=
  { h with
    frame := by
      obtain ⟨pieces, hFrame, hNodes⟩ := h.frame
      refine ⟨(literalPieces text).reverse ++ pieces, by rw [pushAll, hFrame], ?_⟩
      rw [List.reverse_append, List.reverse_reverse, List.map_append, hNodes, literalPieces,
        List.map_map]
      rfl }

theorem body (h : Front nodes taken d) : d.frame.body = .ofSequence nodes := by
  obtain ⟨pieces, hFrame, rfl⟩ := h.frame
  rw [hFrame]
  rfl

theorem finish_eq_ok (h : Front nodes taken d) : d.finish = .ok ⟨.ofSequence nodes, {}, d.names⟩ := by
  simp only [Draft.finish, h.set, h.outer, h.mentions, h.fault, h.globalFlags, h.body]
  rfl

end Front

/-- A field that fits in its place: its pattern takes none of the template's names, the name of its own
group among them, and that name is new. -/
structure Placed (taken all : List String) (place : Nat) (f : Field) : Prop where
  portable : Pattern.portable all f.pattern.toList = true
  covers : ∀ name, name ∉ all → name ≠ groupName place ∧ name ∉ taken
  fresh : groupName place ∉ taken
  isIdentifier : Unicode.isIdentifier (groupName place).toList = true

section Field

variable {nodes : List Node} {taken all : List String} {d last : Draft} {f : Field} {p : Compiled}
  {place : Nat}

/-- In the group of a field no name but the template's is taken. -/
theorem Front.lookup_opened (h : Front nodes taken d) (hPlaced : Placed taken all place f) (start : Nat)
    {name : String} (hName : name ∉ all) :
    (opened d (groupName place) start).names.lookup name = none := by
  obtain ⟨hNe, hNotTaken⟩ := hPlaced.covers name hName
  refine (List.lookup_append ..).trans ?_
  rw [h.names name hNotTaken, Option.none_or, List.lookup_cons, beq_false_of_ne hNe]
  rfl

theorem Front.closed (h : Front nodes taken d) {E : Draft} {start : Nat}
    (hAlone : ReadAlone f.pattern.toList p last)
    (hEmbeds : Embeds (opened d (groupName place) start) last E) (hSet : E.set? = none)
    (hPlaced : Placed taken all place f) (body : Node) (width : Option Pattern.Width) :
    Front (nodes ++ [.group d.groups.length body]) (all ++ p.names.map Prod.fst)
      { E with
        frame := { d.frame with pieces := ⟨.group d.groups.length body, .ordinary⟩ :: d.frame.pieces }
        outer := d.outer
        groups := E.groups.set d.groups.length width } where
  set := hSet
  outer := h.outer
  frame := by
    obtain ⟨pieces, hFrame, hNodes⟩ := h.frame
    refine ⟨⟨.group d.groups.length body, .ordinary⟩ :: pieces, by rw [hFrame], ?_⟩
    rw [List.reverse_cons, List.map_append, hNodes]
    rfl
  groups := by
    obtain ⟨widths, -, hGroups⟩ := hEmbeds.groups
    have hHead := h.groups
    have hBase : (opened d (groupName place) start).groups = d.groups ++ [none] := rfl
    rw [hBase] at hGroups
    cases hOwn : d.groups with
    | nil =>
      rw [hOwn] at hHead
      cases hHead
    | cons first rest =>
      rw [hOwn] at hHead hGroups
      simp only [hGroups]
      exact hHead
  fault := hEmbeds.fault.trans (Draft.fault_of_finish hAlone.finish)
  mentions := hEmbeds.mentions_base.trans h.mentions
  globalFlags := hEmbeds.flags_base.trans h.globalFlags
  names := by
    intro name hName
    obtain ⟨hNotAll, hNotOwn⟩ := not_or.mp (mt List.mem_append.mpr hName)
    obtain ⟨-, -, hCompiled⟩ := Draft.closed_of_finish hAlone.finish
    rw [hCompiled] at hNotOwn
    have hOwn : last.names.lookup name = none := by
      refine List.lookup_eq_none_iff.mpr fun entry hEntry => ?_
      exact bne_iff_ne.mpr fun hEq => hNotOwn (hEq ▸ List.mem_map_of_mem hEntry)
    refine (hEmbeds.lookup_eq name).trans ?_
    rw [h.lookup_opened hPlaced start hNotAll, hOwn]
    rfl

/-- Behind a front a field that fits in its place can be read, and becomes the group of what its
pattern becomes alone. -/
theorem Front.field (h : Front nodes taken d) (hBehind : d.behindLimit? = none)
    (hAlone : ReadAlone f.pattern.toList p last) (hPlaced : Placed taken all place f) (rest : List Char)
    (hRest : .dangling ∉ Pattern.tokenize rest) :
    p.mode = {} ∧ ∃ e,
      Steps d (Pattern.tokenize (fieldPattern place f ++ rest)) e (Pattern.tokenize rest) ∧
      Front (nodes ++ [.group d.groups.length (p.node.rename (renumber (d.groups.length + 1)))])
        (all ++ p.names.map Prod.fst) e ∧
      e.groups.length = d.groups.length + last.groups.length ∧
      e.behindLimit? = last.behindLimit?.map (renumber (d.groups.length + 1)) := by
  have hNo := hAlone.dangling_notMem
  have hTail : .dangling ∉ .plain ')' :: Pattern.tokenize rest :=
    List.not_mem_cons_of_ne_of_not_mem (fun hEq => by cases hEq) hRest
  have hFree : d.names.lookup (String.ofList (groupName place).toList) = none := by
    rw [String.ofList_toList]
    exact h.names _ hPlaced.fresh
  have hBehindHead :
      .dangling ∉ Pattern.tokenize f.pattern.toList ++ .plain ')' :: Pattern.tokenize rest :=
    fun hMem => (List.mem_append.mp hMem).elim hNo hTail
  -- The head of the group.
  obtain ⟨start, hHead⟩ := readStep_namedHead_eq_ok h.set h.verbose (groupName place).toList
    (notMem_groupName place (by decide) (by decide)) hPlaced.isIdentifier hFree hBehindHead
  rw [String.ofList_toList] at hHead
  -- Its body.
  have hBase := justOpened h.set h.verbose h.groups hBehind h.fault (groupName place) start
  obtain ⟨E, hBody, hEmbeds, hSet, hOuter, hOpener, hNode⟩ :=
    hAlone.inside hBase (fun _ => h.lookup_opened hPlaced start) hPlaced.portable
      ⟨Pattern.tokenize rest, rfl⟩
  have hLength : (opened d (groupName place) start).groups.length = d.groups.length + 1 :=
    List.length_append
  rw [hLength] at hNode
  -- Its end.
  have hClose := readStep_close_eq_ok hSet hOpener hOuter hRest
  rw [hNode] at hClose
  rw [tokenize_fieldPattern place hNo]
  obtain ⟨-, -, hCompiled⟩ := Draft.closed_of_finish hAlone.finish
  refine ⟨by rw [hCompiled, hEmbeds.globalFlags]; rfl, _, .step hHead (hBody.trans (.single hClose)),
    h.closed hAlone hEmbeds hSet hPlaced _ _, ?_, ?_⟩
  · obtain ⟨widths, hGroups, hGroups'⟩ := hEmbeds.groups
    rw [List.length_set, hGroups', hGroups, List.length_append, hLength, List.length_cons]
    omega
  · rw [← hLength]
    exact hEmbeds.behind

theorem Front.slash (h : Front nodes taken d) {rest : List Char}
    (hRest : .dangling ∉ Pattern.tokenize rest) :
    Steps d (Pattern.tokenize (literalPattern ['/'] ++ rest)) (pushAll d (literalPieces ['/']))
        (Pattern.tokenize rest) ∧
      Front (nodes ++ [.code '/'.toNat]) taken (pushAll d (literalPieces ['/'])) ∧
      .dangling ∉ Pattern.tokenize (literalPattern ['/'] ++ rest) := by
  have hTokens : Pattern.tokenize (literalPattern ['/'] ++ rest) =
      ['/'].map Pattern.literalToken ++ Pattern.tokenize rest :=
    Pattern.tokenize_literally_append ['/'] rest
  rw [hTokens, List.mem_append]
  exact ⟨steps_literal h.set h.verbose ['/'] hRest, h.literal ['/'],
    fun hMem => hMem.elim (dangling_notMem_literal ['/']) hRest⟩

theorem dangling_notMem_fieldPattern (place : Nat) (h : .dangling ∉ Pattern.tokenize f.pattern.toList)
    (rest : List Char) (hRest : .dangling ∉ Pattern.tokenize rest) :
    .dangling ∉ Pattern.tokenize (fieldPattern place f ++ rest) := by
  rw [tokenize_fieldPattern place h]
  simp [h, hRest]

end Field

theorem Front.compile_eq_ok {nodes : List Node} {taken : List String} {e : Draft}
    (h : Front nodes taken e) {source : PatternSource} {template : String} {tokens : List Token}
    (hTokens : readTokens source template.toList = .ok tokens)
    (hNo : .dangling ∉ Pattern.tokenize (patternOfTokens 0 tokens))
    (hSteps : Steps .start (Pattern.tokenize (patternOfTokens 0 tokens)) e []) :
    ∃ t, compile source template = .ok t ∧ t.matcher = ⟨.ofSequence nodes, {}, e.names⟩ := by
  have hMatcher := Pattern.compile_eq_ok_iff.mpr ⟨noDangling_of_notMem hNo, e, hSteps, h.finish_eq_ok⟩
  refine ⟨⟨template, tokens, patternOfTokens 0 tokens, _⟩, ?_, rfl⟩
  simp only [compile, hTokens, hMatcher]
  rfl

/-! ## Matching behind the front of a template -/

theorem exists_end_group_iff {path : List Char} {index : Nat} {body : Node} {t : State} :
    (∃ e ∈ (Node.ofSequence [.group index body]).ends path {} t, e.rest = []) ↔
      ∃ e ∈ body.ends path {} { t with marks := t.marks.enter index t.pos }, e.rest = [] := by
  have hEnds : (Node.ofSequence [.group index body]).ends path {} t =
      (Node.group index body).ends path {} t := by
    rw [Node.ends_ofSequence_cons]
    exact List.flatMap_singleton' _
  rw [hEnds, Node.ends]
  simp only [List.mem_map, exists_exists_and_eq_and]

/-- Where the front of a path can be taken in one way only, the group behind it takes the rest if the
pattern alone matches it. -/
theorem exists_end_behind {front : List Node} {L : Language Char} {index : Nat} {p : Compiled}
    {path s : List Char} (hFront : (Node.ofSequence front).Denotes L) (hIndex : 0 < index)
    (hIndices : ∀ i ∈ (Node.ofSequence front).indices, 0 < i ∧ i < index) (hMode : p.mode = {})
    (hLooks : p.node.looksBack = false) (hSplit : ∃ u ∈ L, path = u ++ s)
    (hUnique : ∀ u ∈ L, ∀ v, path = u ++ v → v = s) :
    (∃ e ∈ (Node.ofSequence (front ++ [.group index (p.node.rename (renumber (index + 1)))])).ends path {}
        ⟨0, path, []⟩, e.rest = []) ↔ p.fullyMatches s = true := by
  have hLocated := located_start path
  have hEnds := (hFront path).exists_end_iff ⟨0, path, []⟩
  -- From each end of the front the group takes what the pattern takes.
  have hGroup : ∀ t ∈ (Node.ofSequence front).ends path {} ⟨0, path, []⟩,
      (∃ e ∈ (Node.ofSequence [.group index (p.node.rename (renumber (index + 1)))]).ends path {} t,
        e.rest = []) ↔ p.fullyMatches s = true := by
    intro t ht
    have hExtends := Node.extends_of_mem_ends ht hLocated
    obtain ⟨u, hu, hPath⟩ := (hEnds t.rest hLocated).mp ⟨t, ht, rfl⟩
    have hRest : t.rest = s := hUnique u hu _ hPath
    have hMoved : Moved (renumber (index + 1)) t.pos ⟨0, s, []⟩
        { t with marks := t.marks.enter index t.pos } := by
      refine ⟨(Nat.zero_add _).symm, hRest, fun i => ?_⟩
      have hFresh : renumber (index + 1) i ∉ (Node.ofSequence front).indices ∧
          renumber (index + 1) i ≠ index := by
        refine ⟨fun hMem => ?_, ?_⟩
        · have hBounds := hIndices _ hMem
          cases i <;> simp only [renumber] at hBounds <;> omega
        · cases i <;> simp only [renumber] <;> omega
      rw [Marks.enter, Marks.get_set_of_ne _ _ hFresh.2, hExtends.kept _ hFresh.1]
      rfl
    have hDrop : path.drop t.pos = s := hExtends.located.symm.trans hRest
    have hAlike := Node.ends_rename (Pattern.renumber_injective (Nat.succ_pos index)) hDrop hLooks {}
    rw [exists_end_group_iff, fullyMatches_iff, hMode]
    exact (hAlike.exists_rest_iff hMoved []).symm
  rw [Node.ends_ofSequence_append]
  simp only [List.mem_flatMap]
  constructor
  · rintro ⟨e, ⟨t, ht, he⟩, hEnd⟩
    exact (hGroup t ht).mp ⟨e, he, hEnd⟩
  · intro hMatches
    obtain ⟨t, ht, -⟩ := (hEnds s hLocated).mpr hSplit
    obtain ⟨e, he, hEnd⟩ := (hGroup t ht).mpr hMatches
    exact ⟨e, ⟨t, ht, he⟩, hEnd⟩

/-- A field of a portable pattern behind a front that can be taken in one way only. -/
theorem Front.exists_accepts {front : List Node} {L : Language Char} {taken all : List String}
    {d : Draft} {f : Field} {p : Compiled} {place : Nat} (h : Front front taken d)
    (hBehind : d.behindLimit? = none) (hCompile : Pattern.compile f.pattern.toList = .ok p)
    (hLooks : p.node.looksBack = false) (hPlaced : Placed taken all place f)
    {source : PatternSource} {template : String} {tokens : List Token} {whole : List Char}
    (hTokens : readTokens source template.toList = .ok tokens) (hWhole : patternOfTokens 0 tokens = whole)
    (hNo : .dangling ∉ Pattern.tokenize whole)
    (hSteps : Steps .start (Pattern.tokenize whole) d (Pattern.tokenize (fieldPattern place f ++ [])))
    (hDenotes : (Node.ofSequence front).Denotes L) (hGroups : 0 < d.groups.length)
    (hIndices : ∀ i ∈ (Node.ofSequence front).indices, 0 < i ∧ i < d.groups.length) :
    ∃ t, compile source template = .ok t ∧ ∀ path s, (∃ u ∈ L, path = u ++ s) →
      (∀ u ∈ L, ∀ v, path = u ++ v → v = s) → t.accepts path = p.fullyMatches s := by
  subst hWhole
  obtain ⟨last, hAlone⟩ := ReadAlone.exists_of_compile hCompile
  obtain ⟨hMode, e, hField, hFront, -⟩ :=
    h.field hBehind hAlone hPlaced [] List.not_mem_nil
  obtain ⟨t, hTemplate, hMatcher⟩ := hFront.compile_eq_ok hTokens hNo (hSteps.trans hField)
  refine ⟨t, hTemplate, fun path s hSplit hUnique => ?_⟩
  rw [Bool.eq_iff_iff, accepts, hMatcher, fullyMatches_iff]
  exact exists_end_behind hDenotes hGroups hIndices hMode hLooks hSplit hUnique

theorem exists_readAlone_default : ∃ last, ReadAlone defaultPattern.toList ⟨defaultBody, {}, []⟩ last ∧
    last.behindLimit? = none ∧ last.groups = [none] := by
  obtain ⟨last, hRead, hFinish, hBehind, hGroups⟩ :
      ∃ last, Pattern.readSteps 5 .start (Pattern.tokenize defaultPattern.toList) = .ok last ∧
        last.finish = .ok ⟨defaultBody, {}, []⟩ ∧ last.behindLimit? = none ∧ last.groups = [none] :=
    ⟨_, rfl, rfl, rfl, rfl⟩
  have hSteps := (Pattern.readSteps_eq_ok_iff (Nat.le_refl 5)).mp hRead
  exact ⟨last, ⟨rfl, hSteps, hFinish⟩, hBehind, hGroups⟩

/-! ## A field at the end of a template -/

section AtEnd

variable {pattern : String} {p : Compiled}

theorem groupName_zero : groupName 0 = "_p0" := rfl

theorem groupName_one : groupName 1 = "_p1" := rfl

theorem toList_slash : "/".toList = ['/'] := rfl

theorem accepts_single (hCompile : Pattern.compile pattern.toList = .ok p)
    (hLooks : p.node.looksBack = false) (hPortable : Pattern.portable ["_p0"] pattern.toList = true) :
    ∃ t, compile { explicit := [("x", pattern)] } "/\x7bx\x7d" = .ok t ∧
      ∀ s, t.accepts ('/' :: s) = p.fullyMatches s := by
  obtain ⟨last, hAlone⟩ := ReadAlone.exists_of_compile hCompile
  let f : Field := ⟨"\x7bx\x7d", "x", pattern, false⟩
  have hTokens : readTokens { explicit := [("x", pattern)] } "/\x7bx\x7d".toList =
      .ok [.literal "/", .field f] := by
    have hSegments : segments "/\x7bx\x7d".toList = [.literal ['/'], .field ['x']] := by
      decide +kernel
    rw [readTokens, hSegments]
    rfl
  have hWhole : patternOfTokens 0 [.literal "/", .field f] =
      literalPattern ['/'] ++ (fieldPattern 0 f ++ []) := by
    rw [patternOfTokens, toList_slash, patternOfTokens, patternOfTokens]
  have hPlaced : Placed [] ["_p0"] 0 f :=
    ⟨hPortable, by simp [groupName_zero], List.not_mem_nil, by decide +kernel⟩
  have hField := dangling_notMem_fieldPattern 0 (f := f) hAlone.dangling_notMem [] List.not_mem_nil
  obtain ⟨hSlash, hFront, hNoSlash⟩ := Front.start.slash hField
  obtain ⟨t, hTemplate, hAccepts⟩ := hFront.exists_accepts (f := f) rfl hCompile hLooks hPlaced hTokens
    hWhole hNoSlash hSlash (denotes_single (.char '/')) Nat.one_pos (List.forall_mem_nil _)
  refine ⟨t, hTemplate, fun s => hAccepts ('/' :: s) s ⟨['/'], rfl, rfl⟩ ?_⟩
  rintro _ rfl v hPath
  exact (List.cons.inj hPath).2.symm

/-- The first two slashes of a path take the field between them apart from what follows. -/
theorem eq_of_between_slashes {u u' s v : List Char} (hu : '/' ∉ u) (hu' : '/' ∉ u')
    (h : '/' :: u ++ '/' :: s = (['/'] ++ (u' ++ ['/'])) ++ v) : v = s := by
  have hRest : u ++ '/' :: s = u' ++ '/' :: v := by simpa using h
  have hFront {w : List Char} (hw : '/' ∉ w) : ∀ c ∈ w, (c == '/') = false :=
    fun c hc => beq_false_of_ne fun hEq => hw (hEq ▸ hc)
  have hHead (w : List Char) : ∀ c, ('/' :: w).head? = some c → (c == '/') = true := by
    rintro _ ⟨⟩
    rfl
  obtain rfl := eq_of_append_eq_append hRest (hFront hu) (hFront hu') (hHead s) (hHead v)
  exact (List.cons.inj (List.append_cancel_left hRest)).2.symm

theorem accepts_double (hCompile : Pattern.compile pattern.toList = .ok p)
    (hLooks : p.node.looksBack = false)
    (hPortable : Pattern.portable ["_p0", "_p1"] pattern.toList = true) :
    ∃ t, compile { explicit := [("y", pattern)] } "/\x7bx\x7d/\x7by\x7d" = .ok t ∧
      ∀ u s, '/' ∉ u → t.accepts ('/' :: u ++ '/' :: s) = p.fullyMatches s := by
  obtain ⟨last, hAlone⟩ := ReadAlone.exists_of_compile hCompile
  obtain ⟨first, hDefault, hBehind, hGroups⟩ := exists_readAlone_default
  let g : Field := ⟨"\x7bx\x7d", "x", defaultPattern, false⟩
  let f : Field := ⟨"\x7by\x7d", "y", pattern, false⟩
  have hTokens : readTokens { explicit := [("y", pattern)] } "/\x7bx\x7d/\x7by\x7d".toList =
      .ok [.literal "/", .field g, .literal "/", .field f] := by
    have hSegments : segments "/\x7bx\x7d/\x7by\x7d".toList =
        [.literal ['/'], .field ['x'], .literal ['/'], .field ['y']] := by decide +kernel
    rw [readTokens, hSegments]
    rfl
  have hWhole : patternOfTokens 0 [.literal "/", .field g, .literal "/", .field f] =
      literalPattern ['/'] ++ (fieldPattern 0 g ++ (literalPattern ['/'] ++ (fieldPattern 1 f ++ []))) := by
    rw [patternOfTokens, toList_slash, patternOfTokens, patternOfTokens, toList_slash, patternOfTokens,
      patternOfTokens]
  have hPlaced : Placed [] ["_p0"] 0 g :=
    ⟨by decide +kernel, by simp [groupName_zero], List.not_mem_nil, by decide +kernel⟩
  have hPlaced' : Placed ["_p0"] ["_p0", "_p1"] 1 f :=
    ⟨hPortable, by simp +contextual [groupName_one], by simp [groupName_one], by decide +kernel⟩
  -- The front: a slash, the first field and another slash.
  have hField := dangling_notMem_fieldPattern 1 (f := f) hAlone.dangling_notMem [] List.not_mem_nil
  have hNoBack := (Front.start.slash hField).2.2
  have hNoFirst := dangling_notMem_fieldPattern 0 (f := g) hDefault.dangling_notMem _ hNoBack
  obtain ⟨hSlash, hFront, hNo⟩ := Front.start.slash hNoFirst
  obtain ⟨-, e, hFirst, hFront', hLength, hBehind'⟩ := hFront.field (f := g) rfl hDefault hPlaced _ hNoBack
  obtain ⟨hSlash', hFront'', -⟩ := hFront'.slash hField
  have hTwo : (pushAll e (literalPieces ['/'])).groups.length = 2 := by
    rw [hGroups] at hLength
    exact hLength
  have hNone : (pushAll e (literalPieces ['/'])).behindLimit? = none := by
    rw [hBehind] at hBehind'
    exact hBehind'
  have hDenotes := (Node.Denotes.char '/').seq
    ((denotes_defaultBody.group 1).seq (denotes_single (.char '/')))
  obtain ⟨t, hTemplate, hAccepts⟩ := hFront''.exists_accepts (f := f) hNone hCompile hLooks hPlaced' hTokens
    hWhole hNo (hSlash.trans (hFirst.trans hSlash')) hDenotes (by rw [hTwo]; exact Nat.two_pos)
    (by rw [hTwo]; decide)
  refine ⟨t, hTemplate, fun u s hu => hAccepts _ s ?_ ?_⟩
  · exact ⟨['/'] ++ (u ++ ['/']), ⟨['/'], rfl, u ++ ['/'], ⟨u, hu, ['/'], rfl, rfl⟩, rfl⟩, by simp⟩
  · rintro _ ⟨_, rfl, _, ⟨u', hu', _, rfl, rfl⟩, rfl⟩ v hPath
    exact eq_of_between_slashes hu hu' hPath

/-- A portable pattern takes the same texts as the pattern of a field at the end of a template as it takes
alone, with or without another field in front. -/
theorem accepts_eq_fullyMatches (hCompile : Pattern.compile pattern.toList = .ok p)
    (hLooks : p.node.looksBack = false) :
    (Pattern.portable ["_p0"] pattern.toList = true →
      ∃ t, compile { explicit := [("x", pattern)] } "/\x7bx\x7d" = .ok t ∧
        ∀ s, t.accepts ('/' :: s) = p.fullyMatches s) ∧
    (Pattern.portable ["_p0", "_p1"] pattern.toList = true →
      ∃ t, compile { explicit := [("y", pattern)] } "/\x7bx\x7d/\x7by\x7d" = .ok t ∧
        ∀ u s, '/' ∉ u → t.accepts ('/' :: u ++ '/' :: s) = p.fullyMatches s) :=
  ⟨accepts_single hCompile hLooks, accepts_double hCompile hLooks⟩

end AtEnd

/-- A pattern with a named group of its own, a reference to it and a condition on it. -/
theorem accepts_eq_fullyMatches_of_named :
    let pattern := "(?P<w>a|b)(?P=w)(?(w)c\x7b2,3\x7d|d)"
    (∃ t, compile { explicit := [("x", pattern)] } "/\x7bx\x7d" = .ok t ∧
      t.accepts "/aacc".toList = true ∧ t.accepts "/abcc".toList = false) ∧
    ∃ t, compile { explicit := [("y", pattern)] } "/\x7bx\x7d/\x7by\x7d" = .ok t ∧
      t.accepts "/b/aacc".toList = true ∧ t.accepts "/b/abcc".toList = false := by
  intro pattern
  obtain ⟨p, hCompile, hMatches⟩ : ∃ p, Pattern.compile pattern.toList = .ok p ∧
      (!p.node.looksBack && p.fullyMatches "aacc".toList && !p.fullyMatches "abcc".toList) = true :=
    exists_ok_of_any (by decide +kernel)
  simp only [Bool.and_eq_true, Bool.not_eq_true'] at hMatches
  obtain ⟨⟨hLooks, hYes⟩, hNo⟩ := hMatches
  obtain ⟨hSingle, hDouble⟩ := accepts_eq_fullyMatches hCompile hLooks
  obtain ⟨t, hTemplate, hAccepts⟩ := hSingle (by decide +kernel)
  obtain ⟨t', hTemplate', hAccepts'⟩ := hDouble (by decide +kernel)
  have hFree : '/' ∉ ['b'] := by decide
  exact ⟨⟨t, hTemplate, (hAccepts _).trans hYes, (hAccepts _).trans hNo⟩,
    t', hTemplate', (hAccepts' ['b'] _ hFree).trans hYes, (hAccepts' ['b'] _ hFree).trans hNo⟩

/-- A reference by number means another group inside a template: the group of the field itself, or that
of the field in front. -/
theorem exists_accepts_of_numbered :
    let pattern := "(a)\\1"
    (∃ p, Pattern.compile pattern.toList = .ok p ∧
      (!p.node.looksBack && p.fullyMatches "aa".toList && !p.fullyMatches "ab".toList) = true) ∧
    (∃ e, compile { explicit := [("x", pattern)] } "/\x7bx\x7d" = .error e) ∧
    ∃ t, compile { explicit := [("y", pattern)] } "/\x7bx\x7d/\x7by\x7d" = .ok t ∧
      (!t.accepts "/b/aa".toList && t.accepts "/b/ab".toList) = true :=
  ⟨exists_ok_of_any (by decide +kernel), exists_error_of_isOk_eq_false (by decide +kernel),
    exists_ok_of_any (by decide +kernel)⟩

end UriRouting.Template
