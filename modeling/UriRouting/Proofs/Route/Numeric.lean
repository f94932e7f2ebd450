import UriRouting.Proofs.Number.Layout
import UriRouting.Proofs.Number.Rounding
import UriRouting.Proofs.Route.Inferred

/-! # Fields of numbers

The pattern of decimals and of binary numbers takes digits with at most one point, and no exponent. So a
route reads back just the numbers that are written without one; what it writes for the others it does
not accept. -/

set_option autoImplicit false

namespace UriRouting

/-- Text that is encoded as text without a percent sign is encoded as itself. -/
theorem PercentEncoding.eq_of_encode {s text : List Char} (h : encode "utf-8" s = .ok text)
    (hPercent : '%' ∉ text) : text = s := by
  have hDecode := decode_encode ofName?_utf8 List.mem_cons_self h true
  rw [decode_of_isWritten (isWritten_of_encode h), if_neg (mt List.contains_iff_mem.mp hPercent)] at hDecode
  exact Except.ok.inj hDecode

namespace Route

open Generation (formOf)
open Number (Binary64 Decimal Positional)
open Template (FieldForm)

section Texts

variable {s text : List Char}

theorem mem_numbers_of_positional (h : Positional s) (negative : Bool) :
    (if negative then ['-'] else []) ++ s ∈ (FieldForm.inferred .decimal).texts := by
  have hSign : (if negative then ['-'] else []) ∈ FieldForm.optional '-' := by
    cases negative
    · exact Or.inl rfl
    · exact Or.inr rfl
  have hRun {digits : List Char} (hDigits : ∀ c ∈ digits, c.isDigit = true) (least : Nat)
      (hLeast : least ≤ digits.length) : digits ∈ FieldForm.digits least :=
    ⟨hLeast, fun c hc => (isDecimalDigit_of_isDigit (hDigits c hc)).1⟩
  refine ⟨_, hSign, s, ?_, rfl⟩
  cases h with
  | whole hDigits hSome =>
    have hLast := hRun hDigits 1 (List.length_pos_iff.mpr hSome)
    exact ⟨[], ⟨Nat.zero_le _, List.forall_mem_nil _⟩, s, ⟨[], Or.inl rfl, s, hLast, rfl⟩, rfl⟩
  | @fraction front digits hFront hDigits hSome =>
    have hLast := hRun hDigits 1 (List.length_pos_iff.mpr hSome)
    exact ⟨front, hRun hFront 0 (Nat.zero_le _), '.' :: digits, ⟨['.'], Or.inr rfl, digits, hLast, rfl⟩, rfl⟩

theorem isUnreserved_of_positional (h : Positional s) (negative : Bool) :
    ∀ c ∈ (if negative then ['-'] else []) ++ s, PercentEncoding.isUnreserved c = true := by
  have hRun {digits : List Char} (hDigits : ∀ c ∈ digits, c.isDigit = true) :
      ∀ c ∈ digits, PercentEncoding.isUnreserved c = true :=
    fun c hc => (isDecimalDigit_of_isDigit (hDigits c hc)).2
  have hSign : ∀ c ∈ if negative then ['-'] else [], PercentEncoding.isUnreserved c = true := by
    cases negative
    · exact List.forall_mem_nil _
    · exact List.forall_mem_singleton.mpr (by decide)
  refine List.forall_mem_append.mpr ⟨hSign, ?_⟩
  cases h with
  | whole hDigits hSome => exact hRun hDigits
  | fraction hFront hDigits hSome =>
    exact List.forall_mem_append.mpr ⟨hRun hFront, List.forall_mem_cons.mpr ⟨by decide, hRun hDigits⟩⟩

theorem mark_or_digit_of_mem_numbers (h : s ∈ (FieldForm.inferred .decimal).texts) {c : Char} (hc : c ∈ s) :
    c = '-' ∨ c = '.' ∨ Unicode.isDecimalDigit c = true := by
  have hOptional {mark : Char} {u : List Char} (hu : u ∈ FieldForm.optional mark) (hc : c ∈ u) :
      c = mark := by
    rcases hu with rfl | rfl
    · cases hc
    · exact List.mem_singleton.mp hc
  obtain ⟨sign, hSign, -, ⟨front, hFront, -, ⟨point, hPoint, digits, hDigits, rfl⟩, rfl⟩, rfl⟩ := h
  rcases List.mem_append.mp hc with hc | hc
  · exact Or.inl (hOptional hSign hc)
  rcases List.mem_append.mp hc with hc | hc
  · exact Or.inr (Or.inr (hFront.2 c hc))
  rcases List.mem_append.mp hc with hc | hc
  · exact Or.inr (Or.inl (hOptional hPoint hc))
  · exact Or.inr (Or.inr (hDigits.2 c hc))

/-- What a sign and a body are encoded as is among the texts of numbers if the body has no letter. -/
theorem mem_numbers_iff {negative : Bool} {body : List Char} {plain : Prop} {letter : Char}
    (hEncode : PercentEncoding.encode "utf-8" ((if negative then ['-'] else []) ++ body) = .ok text)
    (hPlain : plain → Positional body) (hLetter : ¬ plain → letter ∈ body)
    (hForeign : ¬ (letter = '-' ∨ letter = '.' ∨ Unicode.isDecimalDigit letter = true)) :
    text ∈ (FieldForm.inferred .decimal).texts ↔ plain := by
  constructor
  · intro hMem
    by_contra hNot
    have hPercent : '%' ∉ text := fun hc => absurd (mark_or_digit_of_mem_numbers hMem hc) (by decide)
    obtain rfl := PercentEncoding.eq_of_encode hEncode hPercent
    exact hForeign (mark_or_digit_of_mem_numbers hMem (List.mem_append_right _ (hLetter hNot)))
  · intro h
    rw [PercentEncoding.encode_of_unreserved (isUnreserved_of_positional (hPlain h) negative)] at hEncode
    cases hEncode
    exact mem_numbers_of_positional (hPlain h) negative

end Texts

theorem exists_readsBackIf {s : Schema} {t : TypeExpr} (hKind : s.kindOf t = .decimal) (shared : Registry)
    {h : Handler} (hParameters : h.parameters s = .ok [⟨"p", t⟩]) {v : Value} (hNull : v ≠ .null)
    {form : List Char} (hForm : formOf s Registry.builtin v = .ok (.str (String.ofList form)))
    {fits : Prop} (hFits : ∀ text, PercentEncoding.encode "utf-8" form = .ok text →
      (text ∈ (FieldForm.inferred .decimal).texts ↔ fits)) :
    let built := (({ template := .str "/x/{p}" } : Builder).perform s (.handler (.handler h))).1.build s
    ∃ r text, built.run.value = .ok r ∧ ReadsBackIf s shared r v (String.ofList form) text fits := by
  intro built
  have ht : t ≠ .absent := by
    rintro rfl
    cases hKind
  obtain ⟨matcher, hMatcher⟩ := exists_ok_of_isOk (x := Pattern.compile
    (Template.patternOfTokens 0 [.literal "/x/", .field ⟨"{p}", "p", "-?\\d*\\.?\\d+", false⟩]))
    (by decide +kernel)
  have hTokens : Builder.typedTokens s t =
      [.literal "/x/", .field ⟨"{p}", "p", "-?\\d*\\.?\\d+", false⟩] := by
    rw [Builder.typedTokens, Builder.typedField, Schema.inferredPattern, hKind]
    rfl
  obtain ⟨r, hBuild, hTyped⟩ := exists_typed ht hParameters (hTokens ▸ hMatcher)
  obtain ⟨text, hEncode⟩ := PercentEncoding.exists_encode_utf8 form
  have hEncode' : PercentEncoding.encode "utf-8" (String.ofList form).toList = .ok text := by
    rwa [String.toList_ofList]
  refine ⟨r, text, hBuild, readsBackIf_of_typed hTyped shared hNull hForm hEncode' ?_⟩
  rw [hKind]
  exact hFits text hEncode

/-- Decimals and binary numbers are read back if they are written without an exponent. -/
theorem accepts_numeric_iff (s : Schema) (shared : Registry) (h : Handler) :
    let built := (({ template := .str "/x/{p}" } : Builder).perform s (.handler (.handler h))).1.build s
    (h.parameters s = .ok [⟨"p", .ofBuiltin .decimal⟩] →
      ∀ (negative : Bool) (coefficient : Nat) (exponent : Int),
        let d := Decimal.finite negative coefficient exponent
        ∃ r text, built.run.value = .ok r ∧ ReadsBackIf s shared r (.decimal d) (String.ofList d.text) text
          (exponent ≤ 0 ∧ -6 < (Text.decimal coefficient).length + exponent)) ∧
    (h.parameters s = .ok [⟨"p", .ofBuiltin .float⟩] →
      ∀ (negative : Bool) (m : Nat) (q : Int), Binary64.Scaled m q →
        let x := Binary64.finite negative m q
        ∃ r text, built.run.value = .ok r ∧ ReadsBackIf s shared r (.float x) (String.ofList x.text) text
          (m = 0 ∨ (10 : ℚ) ^ (-4 : ℤ) ≤ m * 2 ^ q ∧ (m : ℚ) * 2 ^ q < 10 ^ (16 : ℤ))) := by
  intro built
  constructor
  · intro hParameters negative coefficient exponent d
    obtain ⟨body, hText, hPlain, hLetter⟩ := Decimal.text_cases negative coefficient exponent
    refine exists_readsBackIf rfl shared hParameters (fun hEq => by cases hEq) rfl fun text hEncode => ?_
    exact mem_numbers_iff (hText ▸ hEncode) hPlain hLetter (by decide +kernel)
  · intro hParameters negative m q hScaled x
    obtain ⟨body, hText, hPlain, hLetter⟩ := Binary64.text_cases negative hScaled
    refine exists_readsBackIf rfl shared hParameters (fun hEq => by cases hEq) rfl fun text hEncode => ?_
    exact mem_numbers_iff (hText ▸ hEncode) hPlain hLetter (by decide +kernel)

/-- A decimal and a binary number that are written in digits and a point. -/
theorem accepts_numeric_iff_of_plain :
    let built (b : Builtin) := (({ template := .str "/x/{p}" } : Builder).perform {} (.handler (.handler
      { name := "h", arguments := [⟨"p", some (.ofBuiltin b), .positional⟩] }))).1.build {}
    (∃ r binding, (built .decimal).run.value = .ok r ∧
      Yields (r.write {} .builtin [.decimal (.finite true 150 (-2))]) "/x/-1.50".toList [] ∧
      Yields (r.read "/x/-1.50".toList) binding [] ∧ binding.params.get? "p" = some "-1.50") ∧
    ∃ r binding, (built .float).run.value = .ok r ∧
      Yields (r.write {} .builtin [.float (.finite false 6755399441055744 (-52))]) "/x/1.5".toList [] ∧
      Yields (r.read "/x/1.5".toList) binding [] ∧ binding.params.get? "p" = some "1.5" := by
  intro built
  let handler (b : Builtin) : Handler :=
    { name := "h", arguments := [⟨"p", some (.ofBuiltin b), .positional⟩] }
  constructor
  · obtain ⟨r, text, hBuild, hReads⟩ :=
      (accepts_numeric_iff {} .builtin (handler .decimal)).1 rfl true 150 (-2)
    have hText : (Decimal.finite true 150 (-2)).text = "-1.50".toList := by decide +kernel
    rw [hText, String.ofList_toList] at hReads
    have hEncode : PercentEncoding.encode "utf-8" "-1.50".toList = .ok "-1.50".toList := by rfl
    cases hEncode.symm.trans hReads.encode
    obtain ⟨binding, hRead, -, hBound⟩ := hReads.read (by decide)
    exact ⟨r, binding, hBuild, hReads.write, hRead, hBound⟩
  · have hRead : Binary64.ofText? "1.5".toList = some (.finite false 6755399441055744 (-52)) := by
      decide +kernel
    have hScaled : Binary64.Scaled 6755399441055744 (-52) := Binary64.scaled_of_ofText? hRead
    obtain ⟨r, text, hBuild, hReads⟩ :=
      (accepts_numeric_iff {} .builtin (handler .float)).2 rfl false _ _ hScaled
    have hText : (Binary64.finite false 6755399441055744 (-52)).text = "1.5".toList := by decide +kernel
    rw [hText, String.ofList_toList] at hReads
    have hEncode : PercentEncoding.encode "utf-8" "1.5".toList = .ok "1.5".toList := by rfl
    cases hEncode.symm.trans hReads.encode
    obtain ⟨binding, hRead, -, hBound⟩ := hReads.read (by norm_num)
    exact ⟨r, binding, hBuild, hReads.write, hRead, hBound⟩

/-- A decimal and a binary number that are written with an exponent, which their route does not accept. -/
theorem not_accepts_exponent :
    let built (b : Builtin) := ((({ template := .str "/x/{p}" } : Builder).perform {} (.handler (.handler
      { name := "h", arguments := [⟨"p", some (.ofBuiltin b), .positional⟩] }))).1.build {}).run.value.toOption
    let written (r : Route) (v : Value) := (r.write {} Registry.builtin [v]).run.value.toOption
    ((built .decimal).map fun r =>
      (written r (.decimal (.finite false 1 5)), r.accepts "/x/1E%2B5".toList)) =
        some (some "/x/1E%2B5".toList, false) ∧
    ((built .float).map fun r =>
      (written r (.float (.finite false 5000000000000000 1)), r.accepts "/x/1e%2B16".toList)) =
        some (some "/x/1e%2B16".toList, false) := by
  decide +kernel

end Route

end UriRouting
