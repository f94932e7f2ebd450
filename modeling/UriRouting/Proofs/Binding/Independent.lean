import UriRouting.Proofs.Binding
import UriRouting.Proofs.OrderedMap

/-! # Fields bind independently of each other

What a field adds to a binding depends on its own name and text only: a value that is handed out, or a
failure and a record of it. -/

set_option autoImplicit false

namespace UriRouting.Binding

/-- The value that a field hands out under its name. -/
def callOf? (encoding : String) (field : String × List Char) : Option (String × String) :=
  match decodeField encoding field.2 with
  | .ok value => some (field.1, String.ofList value)
  | .error _ => none

/-- The failure that a field leaves under its name. -/
def failureOf? (encoding : String) (field : String × List Char) :
    Option (String × PercentEncoding.DecodeError) :=
  match decodeField encoding field.2 with
  | .ok _ => none
  | .error e => some (field.1, e)

/-- The record of the failure of a field. -/
def recordOf? (encoding : String) (field : String × List Char) : Option Record :=
  (failureOf? encoding field).map fun failure =>
    ⟨.error, failureText field.1 field.2 encoding failure.2⟩

/-- A field either hands out what its text stands for or fails, and is recorded if it fails. -/
theorem outcome_cases (encoding : String) (field : String × List Char) :
    (∃ value, decodeField encoding field.2 = .ok value ∧
      callOf? encoding field = some (field.1, String.ofList value) ∧
      failureOf? encoding field = none ∧ recordOf? encoding field = none) ∨
    ∃ e, decodeField encoding field.2 = .error e ∧ callOf? encoding field = none ∧
      failureOf? encoding field = some (field.1, e) ∧
      recordOf? encoding field = some ⟨.error, failureText field.1 field.2 encoding e⟩ := by
  cases hDecode : decodeField encoding field.2 with
  | ok value =>
    have hFailure : failureOf? encoding field = none := by rw [failureOf?, hDecode]
    refine .inl ⟨value, rfl, by rw [callOf?, hDecode], hFailure, ?_⟩
    rw [recordOf?, hFailure]
    rfl
  | error e =>
    have hFailure : failureOf? encoding field = some (field.1, e) := by rw [failureOf?, hDecode]
    refine .inr ⟨e, rfl, by rw [callOf?, hDecode], hFailure, ?_⟩
    rw [recordOf?, hFailure]
    rfl

/-- A binding with what the given fields add. -/
def extend (encoding : String) (b : Binding) (fields : List (String × List Char)) : Binding where
  params := b.params.overlay (fields.filterMap (callOf? encoding))
  failures := b.failures.overlay (fields.filterMap (failureOf? encoding))
  calls := b.calls ++ fields.filterMap (callOf? encoding)

theorem bindField_eq (encoding : String) (b : Binding) (field : String × List Char) :
    bindField encoding b field.1 field.2 =
      ⟨extend encoding b [field], [field].filterMap (recordOf? encoding)⟩ := by
  obtain ⟨value, hDecode, hCall, hFailure, hRecord⟩ | ⟨e, hDecode, hCall, hFailure, hRecord⟩ :=
    outcome_cases encoding field
  · simp only [bindField, hDecode, extend, List.filterMap_cons, List.filterMap_nil, hCall, hFailure,
      hRecord]
    rfl
  · simp only [bindField, hDecode, extend, List.filterMap_cons, List.filterMap_nil, hCall, hFailure,
      hRecord, List.append_nil]
    rfl

theorem extend_append (encoding : String) (b : Binding) (fields more : List (String × List Char)) :
    extend encoding b (fields ++ more) = extend encoding (extend encoding b fields) more := by
  simp only [extend, List.filterMap_append, OrderedMap.overlay_append, List.append_assoc]

theorem yields_bindFields (encoding : String) (b : Binding) (fields : List (String × List Char)) :
    Yields (bindFields encoding b (captured fields)) (extend encoding b fields)
      (fields.filterMap (recordOf? encoding)) := by
  induction fields generalizing b with
  | nil =>
    refine Yields.pure_iff.mpr ⟨?_, rfl⟩
    exact congrArg (Binding.mk b.params b.failures) (List.append_nil b.calls)
  | cons field rest ih =>
    refine Yields.bind_iff.mpr ⟨_, _, rest.filterMap (recordOf? encoding),
      Yields.lift_iff.mpr ⟨rfl, rfl⟩, ?_, ?_⟩
    · rw [bindField_eq, show field :: rest = [field] ++ rest from rfl, extend_append]
      exact ih _
    · rw [bindField_eq, ← List.filterMap_append]
      rfl

theorem yields_ofCaptures (encoding : String) {raws : List (List Char)} {names : List String}
    (h : raws.length = names.length) :
    Yields (ofCaptures encoding (raws.map some) names) (extend encoding {} (names.zip raws))
      ((names.zip raws).filterMap (recordOf? encoding)) := by
  rw [ofCaptures, if_neg (by rw [List.length_map, h]; exact not_not_intro rfl), captured_zip]
  exact yields_bindFields encoding {} _

theorem extend_append_eq (encoding : String) (fields more : List (String × List Char)) :
    extend encoding {} (fields ++ more) =
      let front := extend encoding {} fields
      let back := extend encoding {} more
      ⟨front.params.overlay back.params, front.failures.overlay back.failures,
        front.calls ++ back.calls⟩ := by
  have hParams := OrderedMap.ofList_append (fields.filterMap (callOf? encoding))
    (more.filterMap (callOf? encoding))
  have hFailures := OrderedMap.ofList_append (fields.filterMap (failureOf? encoding))
    (more.filterMap (failureOf? encoding))
  rw [← List.filterMap_append] at hParams hFailures
  exact (Binding.mk.injEq ..).mpr ⟨hParams, hFailures, List.filterMap_append⟩

/-- Fields bind behind others as they do alone, each of them by itself; the only error is that texts
and names do not line up. -/
theorem yields_ofCaptures_append (encoding : String) :
    (∀ (raws₁ raws₂ : List (List Char)) (names₁ names₂ : List String),
      raws₁.length = names₁.length → raws₂.length = names₂.length →
      ∃ b₁ b₂ log₁ log₂,
        Yields (ofCaptures encoding (raws₁.map some) names₁) b₁ log₁ ∧
        Yields (ofCaptures encoding (raws₂.map some) names₂) b₂ log₂ ∧
        Yields (ofCaptures encoding ((raws₁ ++ raws₂).map some) (names₁ ++ names₂))
          ⟨b₁.params.overlay b₂.params, b₁.failures.overlay b₂.failures, b₁.calls ++ b₂.calls⟩
          (log₁ ++ log₂)) ∧
    (∀ (raws : List (List Char)) (names : List String), raws.length = names.length →
      let fields := names.zip raws
      let calls := fields.filterMap (callOf? encoding)
      Yields (ofCaptures encoding (raws.map some) names)
        ⟨.ofList calls, .ofList (fields.filterMap (failureOf? encoding)), calls⟩
        (fields.filterMap (recordOf? encoding))) ∧
    (∀ field,
      (∃ value, PercentEncoding.decode encoding true true field.2 = .ok value ∧
        callOf? encoding field = some (field.1, String.ofList value) ∧
        failureOf? encoding field = none ∧ recordOf? encoding field = none) ∨
      ∃ e, PercentEncoding.decode encoding true true field.2 = .error e ∧
        callOf? encoding field = none ∧ failureOf? encoding field = some (field.1, e) ∧
        recordOf? encoding field = some ⟨.error, failureText field.1 field.2 encoding e⟩) ∧
    ∀ captures names, captures.length ≠ names.length →
      (ofCaptures encoding captures names).run =
        ⟨.error (.lengths captures.length names.length), []⟩ := by
  refine ⟨fun raws₁ raws₂ names₁ names₂ h₁ h₂ => ?_, fun raws names h => ?_,
    outcome_cases encoding, fun captures names h => ?_⟩
  · refine ⟨_, _, _, _, yields_ofCaptures encoding h₁, yields_ofCaptures encoding h₂, ?_⟩
    have hLength : (raws₁ ++ raws₂).length = (names₁ ++ names₂).length := by
      rw [List.length_append, List.length_append, h₁, h₂]
    have hWhole := yields_ofCaptures encoding hLength
    rwa [List.zip_append h₁.symm, extend_append_eq, List.filterMap_append] at hWhole
  · exact yields_ofCaptures encoding h
  · rw [ofCaptures, if_pos h]
    rfl

/-- A name that fails and is then bound twice, behind another one. -/
theorem yields_ofCaptures_append_of_repeated :
    let front := ["%zz".toList, "a%20b".toList]
    let back := ["b".toList, "%C3%A9".toList]
    (∃ b₁ b₂ log₁ log₂,
      Yields (ofCaptures "utf-8" (front.map some) ["x", "y"]) b₁ log₁ ∧
      Yields (ofCaptures "utf-8" (back.map some) ["x", "x"]) b₂ log₂ ∧
      Yields (ofCaptures "utf-8" ((front ++ back).map some) ["x", "y", "x", "x"])
        ⟨b₁.params.overlay b₂.params, b₁.failures.overlay b₂.failures, b₁.calls ++ b₂.calls⟩
        (log₁ ++ log₂)) ∧
    Yields (ofCaptures "utf-8" ((front ++ back).map some) ["x", "y", "x", "x"])
      ⟨[("y", "a b"), ("x", "é")], [("x", .malformed "zz")],
        [("y", "a b"), ("x", "b"), ("x", "é")]⟩
      [⟨.error, "Error when decoding url parameter x='%zz' with encoding utf-8: " ++
        "Malformed percent-encoded sequence: %zz"⟩] ∧
    (ofCaptures "utf-8" (front.map some) ["x"]).run = ⟨.error (.lengths 2 1), []⟩ := by
  intro front back
  obtain ⟨hAppend, hEach, -, hLengths⟩ := yields_ofCaptures_append "utf-8"
  refine ⟨hAppend front back ["x", "y"] ["x", "x"] rfl rfl, ?_,
    hLengths (front.map some) ["x"] (by decide)⟩
  have hYields := hEach (front ++ back) ["x", "y", "x", "x"] rfl
  have hCalls : (["x", "y", "x", "x"].zip (front ++ back)).filterMap (callOf? "utf-8") =
      [("y", "a b"), ("x", "b"), ("x", "é")] := by decide +kernel
  have hFailures : (["x", "y", "x", "x"].zip (front ++ back)).filterMap (failureOf? "utf-8") =
      [("x", .malformed "zz")] := by decide +kernel
  have hRecords : (["x", "y", "x", "x"].zip (front ++ back)).filterMap (recordOf? "utf-8") =
      [⟨.error, "Error when decoding url parameter x='%zz' with encoding utf-8: " ++
        "Malformed percent-encoded sequence: %zz"⟩] := by decide +kernel
  simp only [hCalls, hFailures, hRecords] at hYields
  exact hYields

end UriRouting.Binding
