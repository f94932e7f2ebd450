import UriRouting.Proofs.Generation
import UriRouting.Proofs.Route.Built
import UriRouting.Proofs.Template.FieldForm
import UriRouting.Proofs.Template.Separated

/-! # Paths written and read again

A path that a route writes is one that it reads, with each field bound to the form of the value that it
was written from: encoded forms hold nothing that could be taken for a separator, so that the path
splits as it was put together. -/

set_option autoImplicit false

namespace UriRouting.Route

open Generation (EncodedForm Fills Quiet formAt? valueOf)
open Template (Field FieldForm Splits)
open PercentEncoding (isWritten)

/-- What a field may stand for, by its pattern. The default and the wildcard leave it open; a field of
the pattern of a type takes values of this very type. -/
inductive Suits (s : Schema) : String → Value → Prop where
  | default (v : Value) : Suits s Template.defaultPattern v
  | wildcard (v : Value) : Suits s Template.wildcardPattern v
  | integer (n : Int) : Suits s (s.inferredPattern (.ofBuiltin .int)) (.int n)
  | boolean (b : Bool) : Suits s (s.inferredPattern (.ofBuiltin .bool)) (.bool b)
  | text (x : String) (hText : x ≠ "") : Suits s (s.inferredPattern (.ofBuiltin .str)) (.str x)

/-- The arguments of the handler by their names. -/
def arguments (r : Route) (values : List Value) : List (String × Value) :=
  (r.declared.map Parameter.name).zip values

/-! ## Encoded forms are among the texts of their fields -/

section Forms

variable {encoding : String} {text : List Char}

theorem mem_default (h : ∀ c ∈ text, isWritten c = true) : text ∈ FieldForm.default.texts := by
  intro hMem
  have hSlash := h '/' hMem
  revert hSlash
  decide

theorem mem_wildcard (h : ∀ c ∈ text, isWritten c = true) : text ∈ FieldForm.wildcard.texts := by
  intro hMem
  have hLine := h '\n' hMem
  revert hLine
  decide

theorem isDecimalDigit_of_isDigit {c : Char} (h : c.isDigit = true) :
    Unicode.isDecimalDigit c = true ∧ PercentEncoding.isUnreserved c = true := by
  have hRange : ('0' ≤ c) ∧ c ≤ '9' := by
    simpa [Char.isDigit, Char.le_def] using h
  constructor
  · simp [Unicode.isDecimalDigit, Unicode.isAsciiDigit, hRange]
  · simp [PercentEncoding.isUnreserved, hRange]

theorem digit_of_mem_decimal {n : Nat} {c : Char} (h : c ∈ Text.decimal n) : c.isDigit = true :=
  Nat.isDigit_of_mem_toDigits (by decide) (by decide) h

theorem decimal_mem_digits (n : Nat) : Text.decimal n ∈ FieldForm.digits 1 := by
  constructor
  · exact Nat.length_toDigits_pos
  · intro c hc
    exact (isDecimalDigit_of_isDigit (digit_of_mem_decimal hc)).1

theorem decimalInt_mem (n : Int) : Text.decimalInt n ∈ (FieldForm.inferred .integer).texts := by
  cases n with
  | ofNat n => exact ⟨[], Or.inl rfl, _, decimal_mem_digits n, rfl⟩
  | negSucc n => exact ⟨['-'], Or.inr rfl, _, decimal_mem_digits (n + 1), rfl⟩

theorem isUnreserved_decimalInt (n : Int) :
    ∀ c ∈ Text.decimalInt n, PercentEncoding.isUnreserved c = true := by
  intro c hc
  cases n with
  | ofNat n => exact (isDecimalDigit_of_isDigit (digit_of_mem_decimal hc)).2
  | negSucc n =>
    rcases List.mem_cons.mp hc with rfl | hc
    · decide
    · exact (isDecimalDigit_of_isDigit (digit_of_mem_decimal hc)).2

theorem text_ne_nil {cs : Charset} (hName : Charset.ofName? encoding = some cs)
    (hcs : cs ∈ Charset.extendingAscii) {s : List Char}
    (h : PercentEncoding.encode encoding s = .ok text) (hs : s ≠ []) : text ≠ [] := by
  rintro rfl
  have hDecode := PercentEncoding.decode_encode hName hcs h true
  cases hDecode
  exact hs rfl

end Forms

section Fields

variable {s : Schema} {encoding : String} {cs : Charset} {arguments : List (String × Value)}

theorem formAt?_eq {r : Registry} {name : String} {v : Value} (hValue : valueOf s name arguments = .ok v)
    (hNull : v ≠ .null) :
    formAt? s r arguments name = (Generation.formOf s r v).toOption.bind Value.asText? := by
  rw [formAt?, hValue]
  split
  · rename_i hEq
    cases hEq
    exact absurd rfl hNull
  · rename_i hEq
    cases hEq
    rfl
  · rename_i hEq
    cases hEq

/-- A field that suits its value takes the encoded form. -/
theorem exists_fieldForm (hName : Charset.ofName? encoding = some cs)
    (hcs : cs ∈ Charset.extendingAscii) {f : Field} {v : Value}
    (hValue : valueOf s f.name arguments = .ok v) (hSuits : Suits s f.pattern v) :
    ∃ form : FieldForm, f.pattern = form.pattern ∧
      ∀ text, EncodedForm s Registry.builtin encoding arguments f text → text ∈ form.texts := by
  generalize hPattern : f.pattern = pattern at hSuits
  cases hSuits with
  | default =>
    refine ⟨.default, rfl, ?_⟩
    rintro text ⟨form, hForm, hEncode⟩
    exact mem_default (PercentEncoding.isWritten_of_encode hEncode)
  | wildcard =>
    refine ⟨.wildcard, rfl, ?_⟩
    rintro text ⟨form, hForm, hEncode⟩
    exact mem_wildcard (PercentEncoding.isWritten_of_encode hEncode)
  | integer n =>
    refine ⟨.inferred .integer, rfl, ?_⟩
    rintro text ⟨form, hForm, hEncode⟩
    rw [formAt?_eq hValue (fun hNull => by cases hNull)] at hForm
    have hText : String.ofList (Text.decimalInt n) = form := Option.some.inj hForm
    rw [← hText, String.toList_ofList,
      PercentEncoding.encode_of_unreserved (isUnreserved_decimalInt n)] at hEncode
    cases hEncode
    exact decimalInt_mem n
  | boolean b =>
    refine ⟨.inferred .boolean, rfl, ?_⟩
    rintro text ⟨form, hForm, hEncode⟩
    rw [formAt?_eq hValue (fun hNull => by cases hNull)] at hForm
    have hText : (if b then "true" else "false") = form := Option.some.inj hForm
    cases b with
    | true =>
      obtain rfl : "true" = form := hText
      have hAll : "true".toList.all PercentEncoding.isUnreserved = true := by decide
      rw [PercentEncoding.encode_of_unreserved (List.all_eq_true.mp hAll)] at hEncode
      cases hEncode
      exact Or.inl rfl
    | false =>
      obtain rfl : "false" = form := hText
      have hAll : "false".toList.all PercentEncoding.isUnreserved = true := by decide
      rw [PercentEncoding.encode_of_unreserved (List.all_eq_true.mp hAll)] at hEncode
      cases hEncode
      exact Or.inr rfl
  | text x hText =>
    refine ⟨.inferred .other, rfl, ?_⟩
    rintro text ⟨form, hForm, hEncode⟩
    rw [formAt?_eq hValue (fun hNull => by cases hNull)] at hForm
    have hSame : String.ofList x.toList = form := Option.some.inj hForm
    rw [← hSame, String.ofList_toList] at hEncode
    refine ⟨text_ne_nil hName hcs hEncode fun hNil => hText ?_, ?_⟩
    · exact String.toList_inj.mp hNil
    · exact mem_default (PercentEncoding.isWritten_of_encode hEncode)

theorem exists_valueOf {r : Registry} {name form : String}
    (h : formAt? s r arguments name = some form) : ∃ v, valueOf s name arguments = .ok v := by
  rw [formAt?] at h
  cases hValue : valueOf s name arguments with
  | ok v => exact ⟨v, rfl⟩
  | error e =>
    rw [hValue] at h
    cases h

end Fields

/-! ## The round trip -/

theorem fills_of_write {s : Schema} {shared : Registry} {r : Route} {values : List Value}
    {path : List Char} {log : List Record} (hWrite : Yields (r.write s shared values) path log)
    (hQuiet : Quiet log) : ∃ texts, Fills (EncodedForm s (r.registry.get shared) r.encoding
      (r.arguments values)) r.template.tokens texts path := by
  have hNames : (r.declared.map Generation.Declared.parameter).map Generation.Declared.nameOf =
      r.declared.map Parameter.name := by
    rw [List.map_map]
    rfl
  obtain ⟨texts, hFills⟩ := Generation.fills_of_byName hWrite hQuiet
  rw [hNames] at hFills
  exact ⟨texts, hFills⟩

/-- The fields of a path are bound to the forms that they were written from. -/
theorem read_write {s : Schema} {b : Builder} {r : Route} (hBuild : (b.build s).run.value = .ok r)
    {shared : Registry} (hRegistry : r.registry.get shared = Registry.builtin) {cs : Charset}
    (hName : Charset.ofName? r.encoding = some cs) (hcs : cs ∈ Charset.extendingAscii)
    (hPair : ∀ text, .literal text ∈ r.template.tokens → ¬ ['/', '*'] <:+: text.toList)
    (hSeparated : Template.separated (fun c => !isWritten c) r.template.tokens = true)
    {values : List Value} (hSuits : ∀ f ∈ r.template.fields, ∀ v,
      valueOf s f.name (r.arguments values) = .ok v → Suits s f.pattern v)
    {path : List Char} {log : List Record} (hWrite : Yields (r.write s shared values) path log)
    (hQuiet : Quiet log) :
    r.accepts path = true ∧ ∃ binding, Yields (r.read path) binding [] ∧ binding.failures = [] ∧
      ∀ f ∈ r.template.fields, ∃ form,
        formAt? s Registry.builtin (r.arguments values) f.name = some form ∧
        binding.params.get? f.name = some form := by
  obtain ⟨p, source, hCompile⟩ := Builder.exists_compile_of_compile (Builder.compiled_of_build hBuild)
  obtain ⟨texts, hFills⟩ := fills_of_write hWrite hQuiet
  rw [hRegistry] at hFills
  have hForms : ∀ f, f ∈ r.template.fields → ∃ form : FieldForm, f.pattern = form.pattern ∧
      ∀ text, EncodedForm s Registry.builtin r.encoding (r.arguments values) f text →
        text ∈ form.texts := by
    intro f hf
    obtain ⟨text, form, hForm, -⟩ := hFills.exists_text (Template.mem_fields.mp hf)
    obtain ⟨v, hValue⟩ := exists_valueOf hForm
    exact exists_fieldForm hName hcs hValue (hSuits f hf v hValue)
  have hNonempty : Nonempty FieldForm := ⟨.default⟩
  choose! form hPattern hTexts using hForms
  have hSplits : Splits (fun f => (form f).texts) r.template.tokens texts path :=
    hFills.splits fun f text hMem => hTexts f (Template.mem_fields.mpr hMem) text
  obtain ⟨-, hZip⟩ := List.forall₂_iff_zip.mp hFills.forall₂
  have hWritten : ∀ text ∈ texts, ∀ c ∈ text, (!isWritten c) = false := by
    refine hFills.forall_texts fun f text hText c hc => ?_
    obtain ⟨form, -, hEncode⟩ := hText
    rw [PercentEncoding.isWritten_of_encode hEncode c hc, Bool.not_true]
  obtain ⟨hAccepts, hCaptures⟩ :=
    Template.captures_of_separated hCompile hPattern hPair hSeparated hSplits hWritten
  -- A name that occurs more than once has one form, so that it does not matter which is bound last.
  let formOf (name : String) : String :=
    (formAt? s Registry.builtin (r.arguments values) name).getD ""
  have hDecoded : ∀ field ∈ r.template.names.zip texts,
      Binding.decodeField r.encoding field.2 = .ok (formOf field.1).toList := by
    intro field hField
    rw [Template.names, List.zip_map_left] at hField
    obtain ⟨⟨f, text⟩, hMem, rfl⟩ := List.mem_map.mp hField
    obtain ⟨form, hForm, hEncode⟩ := hZip hMem
    have hSame : formOf f.name = form := by
      simp [formOf, hForm]
    exact hSame ▸ PercentEncoding.decode_encode hName hcs hEncode true
  obtain ⟨binding, hYields, hFailures, hParams⟩ :=
    Binding.yields_bindFields_of_decoded {} hDecoded
  have hNames : texts.length = r.template.names.length := hSplits.length_eq_names
  refine ⟨hAccepts, binding, (yields_read_iff hAccepts hCaptures hNames).mpr hYields, hFailures,
    fun f hf => ?_⟩
  obtain ⟨text, form, hForm, -⟩ := hFills.exists_text (Template.mem_fields.mp hf)
  have hBound : f.name ∈ (r.template.names.zip texts).map Prod.fst := by
    rw [List.map_fst_zip (Nat.le_of_eq hNames.symm)]
    exact List.mem_map_of_mem hf
  refine ⟨form, hForm, ?_⟩
  rw [hParams, if_pos hBound]
  simp [formOf, hForm]

/-- An integer, and an attribute that takes a slash to a place where slashes separate. -/
theorem read_write_of_attribute :
    let user := Value.object "User" [("name", .str "é/b")] .null
    ∃ (r : Route) (path : List Char) (binding : Binding),
      Yields (r.write {} Registry.builtin [.int (-7), user]) path [] ∧ r.accepts path = true ∧
      Yields (r.read path) binding [] ∧ binding.failures = [] ∧
      binding.params.get? "id" = some "-7" ∧ binding.params.get? "user.name" = some "é/b" := by
  intro user
  let b : Builder := { template := .str "/u/{id}/{user.name}", handler? := some { name := "h" },
                       declared := [⟨"id", .ofBuiltin .int⟩, ⟨"user", .absent⟩] }
  let tokens : List Template.Token :=
    [.literal "/u/", .field ⟨"{id}", "id", "-?\\d+", false⟩, .literal "/",
      .field ⟨"{user.name}", "user.name", "[^/]*", false⟩]
  let path := "/u/-7/%C3%A9%2Fb".toList
  obtain ⟨r, hBuild, hTest⟩ := exists_ok_of_any (x := (b.build {}).run.value)
    (p := fun r => r.template.tokens = tokens ∧ r.encoding = "utf-8" ∧ r.declared = b.declared ∧
      (r.write {} Registry.builtin [.int (-7), user]).run.value.toOption = some path ∧
      (r.write {} Registry.builtin [.int (-7), user]).run.log = []) (by decide +kernel)
  obtain ⟨hTokens, hEncoding, hDeclared, hValue, hLog⟩ := of_decide_eq_true hTest
  have hRegistry : r.registry.get Registry.builtin = Registry.builtin := by
    obtain ⟨_, _, -, -, rfl⟩ := Builder.build_eq_ok hBuild
    rfl
  have hWrite : Yields (r.write {} Registry.builtin [.int (-7), user]) path [] :=
    Yields.of_run hValue hLog
  have hSuits : ∀ f ∈ r.template.fields, ∀ v,
      valueOf {} f.name (r.arguments [.int (-7), user]) = .ok v → Suits {} f.pattern v := by
    intro f hf v hv
    rw [Template.fields, hTokens] at hf
    rw [arguments, hDeclared] at hv
    rcases List.mem_cons.mp hf with rfl | hf
    · have hInt : valueOf {} "id" [("id", .int (-7)), ("user", user)] = .ok (.int (-7)) := by rfl
      cases hInt.symm.trans hv
      exact Suits.integer (-7)
    · obtain rfl := List.mem_singleton.mp hf
      exact Suits.default v
  have hName : Charset.ofName? r.encoding = some .utf8 := by
    rw [hEncoding]
    decide +kernel
  have hPair : ∀ text, .literal text ∈ r.template.tokens → ¬ ['/', '*'] <:+: text.toList := by
    simp only [hTokens, tokens, List.mem_cons, Template.Token.literal.injEq, reduceCtorEq, false_or,
      List.not_mem_nil, or_false, forall_eq_or_imp, forall_eq]
    decide +kernel
  have hSeparated : Template.separated (fun c => !isWritten c) r.template.tokens = true := by
    rw [hTokens]
    decide +kernel
  obtain ⟨hAccepts, binding, hRead, hFailures, hParams⟩ := read_write hBuild hRegistry hName
    List.mem_cons_self hPair hSeparated hSuits hWrite (List.forall_mem_nil _)
  refine ⟨r, path, binding, hWrite, hAccepts, hRead, hFailures, ?_, ?_⟩
  · obtain ⟨form, hForm, hBound⟩ := hParams ⟨"{id}", "id", "-?\\d+", false⟩
      (Template.mem_fields.mpr (by rw [hTokens]; decide +kernel))
    rw [arguments, hDeclared] at hForm
    have hSame : formAt? {} Registry.builtin [("id", .int (-7)), ("user", user)] "id" = some "-7" := by
      decide +kernel
    exact hBound.trans (hForm.symm.trans hSame)
  · obtain ⟨form, hForm, hBound⟩ := hParams ⟨"{user.name}", "user.name", "[^/]*", false⟩
      (Template.mem_fields.mpr (by rw [hTokens]; decide +kernel))
    rw [arguments, hDeclared] at hForm
    have hSame : formAt? {} Registry.builtin [("id", .int (-7)), ("user", user)] "user.name" =
        some "é/b" := by
      decide +kernel
    exact hBound.trans (hForm.symm.trans hSame)

end UriRouting.Route
