import UriRouting.Binding
import UriRouting.Proofs.Log

/-! # Binding fields one after the other

No text of a field keeps the others from being bound. Where every text can be decoded nothing fails and
nothing is reported, and each name is bound to what its text stands for. -/

set_option autoImplicit false

namespace UriRouting.Binding

/-- Captured texts, none of which is missing. -/
def captured (fields : List (String × List Char)) : List (String × Option (List Char)) :=
  fields.map fun field => (field.1, some field.2)

theorem captured_zip (names : List String) (raws : List (List Char)) :
    names.zip (raws.map some) = captured (names.zip raws) := by
  rw [List.zip_map_right]
  rfl

theorem exists_yields_bindFields (encoding : String) (b : Binding)
    (fields : List (String × List Char)) :
    ∃ result log, Yields (bindFields encoding b (captured fields)) result log := by
  induction fields generalizing b with
  | nil => exact ⟨b, [], rfl⟩
  | cons field rest ih =>
    obtain ⟨result, log, hRest⟩ := ih (bindField encoding b field.1 field.2).value
    exact ⟨result, _, Yields.bind_iff.mpr ⟨_, _, _, Yields.lift_iff.mpr ⟨rfl, rfl⟩, hRest, rfl⟩⟩

/-! ## What fields are bound to -/

theorem mem_keys_bindField {encoding : String} {b : Binding} {name other : String}
    {raw : List Char} :
    other ∈ (bindField encoding b name raw).value.params.keys ∨
        other ∈ (bindField encoding b name raw).value.failures.keys ↔
      other = name ∨ other ∈ b.params.keys ∨ other ∈ b.failures.keys := by
  generalize hResult : (bindField encoding b name raw).value = result
  cases hDecode : decodeField encoding raw with
  | ok value =>
    rw [bindField, hDecode] at hResult
    subst hResult
    exact (or_congr_left OrderedMap.mem_keys_put).trans or_assoc
  | error e =>
    rw [bindField, hDecode] at hResult
    subst hResult
    exact (or_congr_right OrderedMap.mem_keys_put).trans or_left_comm

/-- Each name has a value or a failure, and no other name has. -/
theorem mem_keys_of_yields_bindFields {encoding : String} {b result : Binding}
    {fields : List (String × List Char)} {log : List Record}
    (h : Yields (bindFields encoding b (captured fields)) result log) (name : String) :
    name ∈ result.params.keys ∨ name ∈ result.failures.keys ↔
      name ∈ fields.map Prod.fst ∨ name ∈ b.params.keys ∨ name ∈ b.failures.keys := by
  induction fields generalizing b log with
  | nil =>
    obtain ⟨rfl, -⟩ := Yields.pure_iff.mp h
    exact (or_iff_right List.not_mem_nil).symm
  | cons field rest ih =>
    obtain ⟨next, front, back, hField, hRest, -⟩ := Yields.bind_iff.mp h
    obtain ⟨rfl, -⟩ := Yields.lift_iff.mp hField
    rw [ih hRest, mem_keys_bindField, List.map_cons, List.mem_cons, or_assoc]
    exact or_left_comm

theorem yields_bindFields_of_decoded {encoding : String} {form : String → String} (b : Binding)
    {fields : List (String × List Char)}
    (hDecoded : ∀ field ∈ fields, decodeField encoding field.2 = .ok (form field.1).toList) :
    ∃ result, Yields (bindFields encoding b (captured fields)) result [] ∧
      result.failures = b.failures ∧
      ∀ name, result.params.get? name =
        if name ∈ fields.map Prod.fst then some (form name) else b.params.get? name := by
  induction fields generalizing b with
  | nil => exact ⟨b, rfl, rfl, fun name => (if_neg List.not_mem_nil).symm⟩
  | cons field rest ih =>
    obtain ⟨hField, hRest⟩ := List.forall_mem_cons.mp hDecoded
    let next : Binding := { b with
      params := b.params.put field.1 (form field.1), calls := b.calls ++ [(field.1, form field.1)] }
    have hNext : bindField encoding b field.1 field.2 = ⟨next, []⟩ := by
      simp only [bindField, hField, String.ofList_toList]
      rfl
    obtain ⟨result, hYields, hFailures, hParams⟩ := ih next hRest
    refine ⟨result, ?_, hFailures, fun name => ?_⟩
    · refine Yields.bind_iff.mpr ⟨next, [], [], Yields.lift_iff.mpr ?_, hYields, rfl⟩
      rw [hNext]
      exact ⟨rfl, rfl⟩
    · rw [hParams]
      by_cases hRest : name ∈ rest.map Prod.fst
      · rw [if_pos hRest]
        exact (if_pos (List.mem_cons_of_mem _ hRest)).symm
      · rw [if_neg hRest]
        by_cases hName : name = field.1
        · rw [hName, OrderedMap.get?_put_self]
          exact (if_pos List.mem_cons_self).symm
        · rw [OrderedMap.get?_put_of_ne _ _ hName]
          exact (if_neg (List.not_mem_cons_of_ne_of_not_mem hName hRest)).symm

end UriRouting.Binding
