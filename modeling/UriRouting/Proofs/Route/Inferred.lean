import UriRouting.Proofs.PercentEncoding.Canonical
import UriRouting.Proofs.Route.Calls
import UriRouting.Proofs.Route.RoundTrip
import UriRouting.Proofs.Template.Names

/-! # Fields of members and characters

The pattern of an enumeration is made of the names of its members, and that of characters takes any
character of a line. Paths hold encoded text, so a route reads back a member whose encoded name is among
the names, and a character that needs no escape; what else it writes it does not accept. -/

set_option autoImplicit false

namespace UriRouting

theorem PercentEncoding.exists_encode_utf8 (s : List Char) : ∃ text, encode "utf-8" s = .ok text :=
  exists_encode ofName?_utf8 (fun _ => ⟨_, rfl⟩) s

namespace Builder

open Template (Field)

/-- The field of the template `/x/{p}` with the pattern of a type. -/
def typedField (s : Schema) (t : TypeExpr) : Field := ⟨"{p}", "p", s.inferredPattern t, false⟩

def typedTokens (s : Schema) (t : TypeExpr) : List Template.Token := [.literal "/x/", .field (typedField s t)]

theorem inferredFrom_typed {s : Schema} {t : TypeExpr} (ht : t ≠ .absent) :
    inferredFrom s [("p", t)] "p" = some (s.inferredPattern t) := by
  cases t with
  | absent => exact absurd rfl ht
  | atom a => rfl
  | union style members => rfl

theorem compile_typed {s : Schema} {t : TypeExpr} (ht : t ≠ .absent) {b : Builder}
    (hTemplate : b.template = .str "/x/{p}") (hPatterns : b.patterns = [])
    (hDeclared : b.declared = [⟨"p", t⟩]) {matcher : Pattern.Compiled}
    (hMatcher : Pattern.compile (Template.patternOfTokens 0 (typedTokens s t)) = .ok matcher) :
    b.compile s = .ok
      ⟨"/x/{p}", typedTokens s t, Template.patternOfTokens 0 (typedTokens s t), matcher⟩ := by
  have hNames : Template.namesIn "/x/{p}" = .ok ["p"] := by rfl
  have hTypes : fieldTypes s [⟨"p", t⟩] ["p"] = .ok [("p", t)] := by rfl
  have hRead (p : Template.PatternSource) : Template.readTokens p "/x/{p}".toList =
      .ok [.literal "/x/", .field ⟨"{p}", "p", p.patternOf ⟨"p", none, false⟩, false⟩] := by rfl
  have hPattern : Template.PatternSource.patternOf ⟨[], inferredFrom s [("p", t)]⟩ ⟨"p", none, false⟩ =
      s.inferredPattern t := by
    simp only [Template.PatternSource.patternOf, inferredFrom_typed ht]
    rfl
  have hTokens : Template.readTokens ⟨[], inferredFrom s [("p", t)]⟩ "/x/{p}".toList =
      .ok (typedTokens s t) := by
    rw [hRead, hPattern]
    rfl
  have hCompile : Template.compile ⟨[], inferredFrom s [("p", t)]⟩ "/x/{p}" = .ok
      ⟨"/x/{p}", typedTokens s t, Template.patternOfTokens 0 (typedTokens s t), matcher⟩ := by
    rw [Template.compile, hTokens]
    dsimp only
    rw [hMatcher]
    rfl
  have hText : b.template.asText? = some "/x/{p}" := by
    rw [hTemplate]
    rfl
  rw [compile, hText]
  refine bind_eq_ok_iff.mpr ⟨["p"], by rw [hNames]; rfl, ?_⟩
  refine bind_eq_ok_iff.mpr ⟨[("p", t)], by rw [hDeclared, hTypes]; rfl, ?_⟩
  rw [hPatterns, hCompile]
  rfl

end Builder

namespace Route

open Generation (formOf valueOf)
open Template (FieldForm Splits)

/-- The route of the template `/x/{p}` with a parameter of the given type, and all else as it comes. -/
structure Typed (s : Schema) (t : TypeExpr) (r : Route) : Prop where
  compiled : ∃ p source, Template.compile p source = .ok r.template
  tokens : r.template.tokens = Builder.typedTokens s t
  declared : r.declared = [⟨"p", t⟩]
  registry : r.registry = .own Registry.builtin
  encoding : r.encoding = "utf-8"

theorem exists_typed {s : Schema} {t : TypeExpr} (ht : t ≠ .absent) {h : Handler}
    (hParameters : h.parameters s = .ok [⟨"p", t⟩]) {matcher : Pattern.Compiled}
    (hMatcher : Pattern.compile (Template.patternOfTokens 0 (Builder.typedTokens s t)) = .ok matcher) :
    ∃ r, ((({ template := .str "/x/{p}" } : Builder).perform s (.handler (.handler h))).1.build s).run.value =
      .ok r ∧ Typed s t r := by
  rw [Builder.perform_handler_ok hParameters]
  have hCompile := Builder.compile_typed ht rfl rfl rfl hMatcher
    (b := ({ template := .str "/x/{p}" } : Builder).bound (some h) [⟨"p", t⟩])
  exact ⟨_, Builder.value_build_of_compile rfl hCompile, Builder.exists_compile_of_compile hCompile,
    rfl, rfl, rfl, rfl⟩

namespace Typed

variable {s : Schema} {t : TypeExpr} {r : Route} {v : Value} {form : String} {text : List Char}

theorem yields_write (h : Typed s t r) (shared : Registry) (hNull : v ≠ .null)
    (hForm : formOf s Registry.builtin v = .ok (.str form))
    (hEncode : PercentEncoding.encode "utf-8" form.toList = .ok text) :
    Yields (r.write s shared [v]) ("/x/".toList ++ text) [] := by
  have hValue : valueOf s "p" [("p", v)] = .ok v := by
    have hSelects : Generation.selects "p" "p".toList = true := by decide
    rw [Generation.valueOf_cons s hSelects]
    rfl
  have hEscaped : Yields (Generation.escaped "utf-8" (.str form)) text [] := by
    have hPercent : (Value.str form).percentEncode "utf-8" = .ok text :=
      Generation.percentEncode_eq_ok_iff.mpr ⟨form, rfl, hEncode⟩
    rw [Generation.escaped, hPercent]
    exact Yields.pure_iff.mpr ⟨rfl, rfl⟩
  have hField : Yields (Generation.fieldText s Registry.builtin "utf-8" [("p", v)]
      (Builder.typedField s t)) text [] := by
    refine Yields.bind_iff.mpr ⟨v, [], [], Generation.liftExcept_iff.mpr ⟨hValue, rfl⟩, ?_, rfl⟩
    split
    · exact absurd rfl hNull
    · exact Yields.bind_iff.mpr
        ⟨_, [], [], Generation.liftExcept_iff.mpr ⟨hForm, rfl⟩, hEscaped, rfl⟩
  rw [write, h.registry, h.encoding, h.declared]
  refine Eq.trans (congrArg ExceptT.run (if_neg (not_not_intro rfl))) ?_
  rw [h.tokens]
  refine Yields.bind_iff.mpr ⟨text, [], [], ?_, Yields.pure_iff.mpr ⟨rfl, rfl⟩, rfl⟩
  refine Yields.bind_iff.mpr ⟨text, [], [], hField, ?_, rfl⟩
  refine Yields.bind_iff.mpr ⟨[], [], [], rfl, Yields.pure_iff.mpr ⟨?_, rfl⟩, rfl⟩
  exact (List.append_nil text).symm

theorem splits_iff {sets : Template.Field → Language Char} {raws : List (List Char)} :
    Splits sets (Builder.typedTokens s t) raws ("/x/".toList ++ text) ↔
      raws = [text] ∧ text ∈ sets (Builder.typedField s t) := by
  have hGapless : Template.Gapless (Builder.typedTokens s t) := by
    intro text hText
    obtain rfl : text = "/x/" := by simpa [Builder.typedTokens] using hText
    decide
  constructor
  · intro h
    generalize hPath : "/x/".toList ++ text = path at h
    cases h with
    | literal hText h =>
      obtain rfl := hGapless.eq_of_literalText hText
      obtain rfl := List.append_cancel_left hPath
      cases h with
      | field hRaw h =>
        cases h
        rw [List.append_nil]
        exact ⟨rfl, hRaw⟩
  · rintro ⟨rfl, hText⟩
    have hField : Splits sets [.field (Builder.typedField s t)] [text] (text ++ []) := .field hText .nil
    rw [List.append_nil] at hField
    exact .literal (Generation.literalText_plainLiteral "/x/".toList) hField

/-- What is written is accepted where it is among the texts of the type, and then it is read back. -/
theorem accepts_written_iff (h : Typed s t r)
    (hEncode : PercentEncoding.encode "utf-8" form.toList = .ok text) :
    (r.accepts ("/x/".toList ++ text) = true ↔ text ∈ (FieldForm.inferred (s.kindOf t)).texts) ∧
    (r.accepts ("/x/".toList ++ text) = true →
      ∃ binding, Yields (r.read ("/x/".toList ++ text)) binding [] ∧ binding.failures = [] ∧
        binding.params.get? "p" = some form) := by
  obtain ⟨p, source, hCompile⟩ := h.compiled
  have hFields : r.template.fields = [Builder.typedField s t] := by
    rw [Template.fields, h.tokens]
    rfl
  have hForm : ∀ f ∈ r.template.fields, f.pattern = (FieldForm.inferred (s.kindOf t)).pattern := by
    intro f hf
    rw [hFields] at hf
    obtain rfl := List.mem_singleton.mp hf
    rfl
  have hAccepts := Template.accepts_iff_splits hCompile (fun _ => .inferred (s.kindOf t)) hForm
    ("/x/".toList ++ text)
  simp only [h.tokens, splits_iff, exists_eq_left] at hAccepts
  refine ⟨hAccepts, fun hAccepted => ?_⟩
  obtain ⟨parts, hLayout⟩ := Template.exists_layout
    (P := fun _ body => body.Within (FieldForm.inferred (s.kindOf t)).texts) hCompile
    fun f hf => hForm f hf ▸ (FieldForm.inferred (s.kindOf t)).reads.mono fun body hBody => hBody.within
  obtain ⟨raws, hCaptures, hSplits⟩ := hLayout.captures_eq_ok hAccepted
  rw [h.tokens] at hSplits
  obtain ⟨rfl, -⟩ := splits_iff.mp hSplits
  have hNames : r.template.names = ["p"] := by
    rw [Template.names, hFields]
    rfl
  let bound (_ : String) : String := form
  have hDecoded : ∀ field ∈ [("p", text)],
      Binding.decodeField "utf-8" field.2 = .ok (bound field.1).toList := by
    intro field hField
    obtain rfl := List.mem_singleton.mp hField
    exact PercentEncoding.decode_encode PercentEncoding.ofName?_utf8 List.mem_cons_self hEncode true
  obtain ⟨binding, hYields, hFailures, hParams⟩ :=
    Binding.yields_bindFields_of_decoded {} hDecoded
  refine ⟨binding, ?_, hFailures, ?_⟩
  · apply (yields_read_iff hAccepted hCaptures (by rw [hNames]; rfl)).mpr
    rw [hNames, h.encoding]
    exact hYields
  · rw [hParams]
    rfl

end Typed

/-- The route writes a value as encoded text. It accepts this just where `fits` holds, and then reads it
back. -/
structure ReadsBackIf (s : Schema) (shared : Registry) (r : Route) (v : Value) (form : String)
    (text : List Char) (fits : Prop) : Prop where
  encode : PercentEncoding.encode "utf-8" form.toList = .ok text
  write : Yields (r.write s shared [v]) ("/x/".toList ++ text) []
  accepts_iff : r.accepts ("/x/".toList ++ text) = true ↔ fits
  read : fits → ∃ binding, Yields (r.read ("/x/".toList ++ text)) binding [] ∧ binding.failures = [] ∧
    binding.params.get? "p" = some form

section Kinds

variable {s : Schema} {e : EnumDef} {name : String} {value : Value}

theorem kindOf_declared (hEnum : s.enum? e.name = some e) :
    s.kindOf (.atom (.declared e.name)) = .enumerated (e.members.map Prod.fst) := by
  simp only [Schema.kindOf, TypeExpr.required, hEnum]

theorem formOf_member (hEnum : s.enum? e.name = some e) :
    formOf s Registry.builtin (.member e.ref name value) = .ok (.str name) := by
  have hLookup : Registry.lookup? s Registry.builtin (.atom (Value.member e.ref name value).typeOf) =
      some (.enum .absent) := by
    have hOrder : s.resolutionOrder (Value.member e.ref name value).typeOf =
        .declared e.name :: (Schema.enumOrder e.base).map .builtin := by
      simp only [Value.typeOf, EnumDef.ref, Schema.resolutionOrder, hEnum]
    rw [Registry.lookup?, hOrder]
    cases e.base <;> rfl
  rw [formOf, hLookup]
  rfl

theorem formOf_str (x : String) : formOf s Registry.builtin (.str x) = .ok (.str x) := by
  have hText : formOf s Registry.builtin (.str x) = .ok (.str (String.ofList x.toList)) := rfl
  rw [hText, String.ofList_toList]

/-- Characters that are encoded as one character are those that need no escape. -/
theorem encode_single_iff {c : Char} {text : List Char} (h : PercentEncoding.encode "utf-8" [c] = .ok text) :
    text ∈ (FieldForm.inferred .character).texts ↔ PercentEncoding.isUnreserved c = true := by
  have hSame {c : Char} (hc : PercentEncoding.isUnreserved c = true) :
      PercentEncoding.encode "utf-8" [c] = .ok [c] :=
    PercentEncoding.encode_of_unreserved fun d hd => List.mem_singleton.mp hd ▸ hc
  constructor
  · rintro ⟨d, -, rfl⟩
    cases PercentEncoding.canonical_of_encode h with
    | unreserved hd =>
      have hDecode := PercentEncoding.decode_encode PercentEncoding.ofName?_utf8 List.mem_cons_self h true
      have hDecode' :=
        PercentEncoding.decode_encode PercentEncoding.ofName?_utf8 List.mem_cons_self (hSame hd) true
      cases hDecode.symm.trans hDecode'
      exact hd
  · intro hc
    cases (hSame hc).symm.trans h
    refine ⟨c, ?_, rfl⟩
    rintro rfl
    revert hc
    decide

theorem readsBackIf_of_typed {t : TypeExpr} {r : Route} (hTyped : Typed s t r) (shared : Registry)
    {v : Value} (hNull : v ≠ .null) {form : String} (hForm : formOf s Registry.builtin v = .ok (.str form))
    {text : List Char} (hEncode : PercentEncoding.encode "utf-8" form.toList = .ok text) {fits : Prop}
    (hFits : text ∈ (FieldForm.inferred (s.kindOf t)).texts ↔ fits) :
    ReadsBackIf s shared r v form text fits := by
  obtain ⟨hAccepts, hRead⟩ := hTyped.accepts_written_iff hEncode
  exact ⟨hEncode, hTyped.yields_write shared hNull hForm hEncode, hAccepts.trans hFits,
    fun h => hRead (hAccepts.mpr (hFits.mpr h))⟩

/-- Members are read back if their encoded names are names, and characters if they need no escape. -/
theorem accepts_inferred_iff (s : Schema) (shared : Registry) (h : Handler) :
    let built := (({ template := .str "/x/{p}" } : Builder).perform s (.handler (.handler h))).1.build s
    (∀ (e : EnumDef) (name : String) (value : Value), s.enum? e.name = some e →
      h.parameters s = .ok [⟨"p", .atom (.declared e.name)⟩] → (name, value) ∈ e.members →
      ∃ r text, built.run.value = .ok r ∧ ReadsBackIf s shared r (.member e.ref name value) name text
        (String.ofList text ∈ e.members.map Prod.fst)) ∧
    (∀ c : Char, h.parameters s = .ok [⟨"p", .atom .character⟩] →
      ∃ r text, built.run.value = .ok r ∧ ReadsBackIf s shared r (.str (String.ofList [c]))
        (String.ofList [c]) text (PercentEncoding.isUnreserved c = true)) := by
  intro built
  constructor
  · intro e name value hEnum hParameters hMember
    have hKind := kindOf_declared hEnum
    have hNames : e.members.map Prod.fst ≠ [] := List.ne_nil_of_mem (List.mem_map_of_mem hMember)
    obtain ⟨matcher, hMatcher⟩ := Template.exists_compile_names
      (mt List.map_eq_nil_iff.mp hNames) (Builder.typedField s (.atom (.declared e.name)))
      (by rw [Builder.typedField, Schema.inferredPattern, hKind, Template.toList_pattern_enumerated hNames])
    obtain ⟨r, hBuild, hTyped⟩ := exists_typed (fun hEq => by cases hEq) hParameters hMatcher
    obtain ⟨text, hEncode⟩ := PercentEncoding.exists_encode_utf8 name.toList
    refine ⟨r, text, hBuild, readsBackIf_of_typed hTyped shared (fun hEq => by cases hEq)
      (formOf_member hEnum) hEncode ?_⟩
    rw [hKind]
    constructor
    · rintro ⟨other, hOther, rfl⟩
      rwa [String.ofList_toList]
    · intro hMem
      exact ⟨_, hMem, String.toList_ofList.symm⟩
  · intro c hParameters
    obtain ⟨matcher, hMatcher⟩ := exists_ok_of_isOk (x := Pattern.compile
      (Template.patternOfTokens 0 [.literal "/x/", .field ⟨"{p}", "p", ".", false⟩])) (by decide +kernel)
    obtain ⟨r, hBuild, hTyped⟩ := exists_typed (fun hEq => by cases hEq) hParameters hMatcher
    obtain ⟨text, hEncode⟩ := PercentEncoding.exists_encode_utf8 [c]
    have hEncode' : PercentEncoding.encode "utf-8" (String.ofList [c]).toList = .ok text := by
      rwa [String.toList_ofList]
    exact ⟨r, text, hBuild, readsBackIf_of_typed hTyped shared (fun hEq => by cases hEq) (formOf_str _)
      hEncode' (encode_single_iff hEncode)⟩

end Kinds

/-- A member and a character that need no escape. -/
theorem accepts_inferred_iff_of_plain :
    let e : EnumDef := ⟨"Color", .int, [("RED", .int 1), ("dark red", .int 2)]⟩
    let s : Schema := { enums := [e] }
    let built (t : Atom) := (({ template := .str "/x/{p}" } : Builder).perform s
      (.handler (.handler { name := "h", arguments := [⟨"p", some (.atom t), .positional⟩] }))).1.build s
    (∃ r binding, (built (.declared "Color")).run.value = .ok r ∧
      Yields (r.write s .builtin [.member e.ref "RED" (.int 1)]) "/x/RED".toList [] ∧
      Yields (r.read "/x/RED".toList) binding [] ∧ binding.params.get? "p" = some "RED") ∧
    ∃ r binding, (built .character).run.value = .ok r ∧
      Yields (r.write s .builtin [.str "k"]) "/x/k".toList [] ∧
      Yields (r.read "/x/k".toList) binding [] ∧ binding.params.get? "p" = some "k" := by
  intro e s built
  let handler (t : Atom) : Handler := { name := "h", arguments := [⟨"p", some (.atom t), .positional⟩] }
  constructor
  · obtain ⟨r, text, hBuild, hReads⟩ := (accepts_inferred_iff s .builtin (handler (.declared "Color"))).1
      e "RED" (.int 1) rfl rfl (by exact List.mem_cons_self)
    have hEncode : PercentEncoding.encode "utf-8" "RED".toList = .ok "RED".toList := by rfl
    cases hEncode.symm.trans hReads.encode
    obtain ⟨binding, hRead, -, hBound⟩ := hReads.read (by decide +kernel)
    exact ⟨r, binding, hBuild, hReads.write, hRead, hBound⟩
  · obtain ⟨r, text, hBuild, hReads⟩ := (accepts_inferred_iff s .builtin (handler .character)).2 'k' rfl
    have hEncode : PercentEncoding.encode "utf-8" "k".toList = .ok "k".toList := by rfl
    cases hEncode.symm.trans hReads.encode
    obtain ⟨binding, hRead, -, hBound⟩ := hReads.read (by decide)
    exact ⟨r, binding, hBuild, hReads.write, hRead, hBound⟩

/-- A member and a character that are escaped in the path, which their route does not accept. -/
theorem not_accepts_written :
    let e : EnumDef := ⟨"Color", .plain, [("RED", .int 1), ("dark red", .int 2)]⟩
    let s : Schema := { enums := [e] }
    let built (t : Atom) := ((({ template := .str "/x/{p}" } : Builder).perform s (.handler (.handler
      { name := "h", arguments := [⟨"p", some (.atom t), .positional⟩] }))).1.build s).run.value.toOption
    let written (r : Route) (v : Value) := (r.write s Registry.builtin [v]).run.value.toOption
    ((built (.declared "Color")).map fun r =>
      (written r (.member e.ref "dark red" (.int 2)), r.accepts "/x/dark%20red".toList)) =
        some (some "/x/dark%20red".toList, false) ∧
    ((built .character).map fun r => (written r (.str "é"), r.accepts "/x/%C3%A9".toList)) =
      some (some "/x/%C3%A9".toList, false) := by
  decide +kernel

end Route

end UriRouting
