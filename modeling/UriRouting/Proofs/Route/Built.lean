import UriRouting.Proofs.Binding
import UriRouting.Proofs.Template.Substitution
import UriRouting.Route.Builder

/-! # Built routes

A route that is built has a template that was compiled. Where each of its field patterns can be read
alone, reading a path that matches always ends with a binding. -/

set_option autoImplicit false

namespace UriRouting

namespace Builder

theorem exists_compile_of_compile {s : Schema} {b : Builder} {t : Template}
    (h : b.compile s = .ok t) : ∃ p source, Template.compile p source = .ok t := by
  rw [compile] at h
  split at h
  · cases h
  · rename_i source hSource
    obtain ⟨names, -, h⟩ := bind_eq_ok_iff.mp h
    obtain ⟨types, -, h⟩ := bind_eq_ok_iff.mp h
    exact ⟨_, source, mapError_eq_ok_iff.mp h⟩

/-- A route that is built takes over what the builder holds. -/
theorem build_eq_ok {s : Schema} {b : Builder} {r : Route} (h : (b.build s).run.value = .ok r) :
    ∃ handler t, b.handler? = some handler ∧ b.compile s = .ok t ∧
      r = ⟨t, handler, b.methods, b.priority, b.declared, b.registry, b.encoding⟩ := by
  have hYields : Yields (b.build s) r (b.build s).run.log := by
    rw [Yields, ← h]
  rw [build] at hYields
  cases hHandler : b.handler? with
  | none =>
    rw [hHandler] at hYields
    exact (Yields.throw_iff.mp hYields).elim
  | some handler =>
    rw [hHandler] at hYields
    dsimp only at hYields
    cases hCompile : b.compile s with
    | error e =>
      rw [hCompile] at hYields
      exact (Yields.throw_iff.mp hYields).elim
    | ok template =>
      rw [hCompile] at hYields
      obtain ⟨_, _, _, -, hYields, -⟩ := Yields.bind_iff.mp hYields
      obtain ⟨_, _, _, -, hYields, -⟩ := Yields.bind_iff.mp hYields
      exact ⟨handler, template, rfl, rfl, (Yields.pure_iff.mp hYields).1⟩

theorem value_build_of_compile {s : Schema} {b : Builder} {h : Handler} {t : Template}
    (hHandler : b.handler? = some h) (hCompile : b.compile s = .ok t) : (b.build s).run.value =
      .ok ⟨t, h, b.methods, b.priority, b.declared, b.registry, b.encoding⟩ := by
  rw [build, hHandler]
  dsimp only
  rw [hCompile]
  rfl

theorem compiled_of_build {s : Schema} {b : Builder} {r : Route}
    (h : (b.build s).run.value = .ok r) : b.compile s = .ok r.template := by
  obtain ⟨handler, t, -, hCompile, rfl⟩ := build_eq_ok h
  exact hCompile

end Builder

/-- The template was compiled, and each of its field patterns can be read alone. -/
structure Route.WellFormed (r : Route) : Prop where
  compiled : ∃ p source, Template.compile p source = .ok r.template
  fields : ∀ f ∈ r.template.fields, (Pattern.compile f.pattern.toList).isOk = true

theorem Route.wellFormed_of_build {s : Schema} {b : Builder} {r : Route}
    (h : (b.build s).run.value = .ok r)
    (hFields : ∀ f ∈ r.template.fields, (Pattern.compile f.pattern.toList).isOk = true) :
    r.WellFormed :=
  ⟨Builder.exists_compile_of_compile (Builder.compiled_of_build h), hFields⟩

theorem Route.yields_read_iff {r : Route} {path : List Char} (hAccepts : r.accepts path = true)
    {raws : List (List Char)} (hCaptures : r.template.captures path = .ok (raws.map some))
    (hLength : raws.length = r.template.names.length) {binding : Binding} {log : List Record} :
    Yields (r.read path) binding log ↔ Yields (Binding.bindFields r.encoding {}
      (Binding.captured (r.template.names.zip raws))) binding log := by
  rw [read, if_pos hAccepts, hCaptures]
  apply Yields.adapt_iff.trans
  rw [Binding.ofCaptures, if_neg (by simp [hLength]), Binding.captured_zip]

theorem Route.exists_captures {r : Route} (h : r.WellFormed) {path : List Char}
    (hAccepts : r.accepts path = true) :
    ∃ raws : List (List Char), r.template.captures path = .ok (raws.map some) ∧
      raws.length = r.template.names.length := by
  obtain ⟨p, source, hCompile⟩ := h.compiled
  obtain ⟨parts, hLayout⟩ := Template.exists_layout_of_compile hCompile h.fields
  obtain ⟨raws, hCaptures, hSplits⟩ := hLayout.captures_eq_ok hAccepts
  exact ⟨raws, hCaptures, hSplits.length_eq_names⟩

theorem Route.exists_yields_read {r : Route} (h : r.WellFormed) {path : List Char}
    (hAccepts : r.accepts path = true) : ∃ binding log, Yields (r.read path) binding log := by
  obtain ⟨raws, hCaptures, hLength⟩ := exists_captures h hAccepts
  obtain ⟨binding, log, hYields⟩ :=
    Binding.exists_yields_bindFields r.encoding {} (r.template.names.zip raws)
  exact ⟨binding, log, (yields_read_iff hAccepts hCaptures hLength).mpr hYields⟩

/-- Reading a path says something of each field, and of nothing else. -/
theorem Route.mem_keys_of_read {r : Route} (h : r.WellFormed) {path : List Char}
    (hAccepts : r.accepts path = true) {binding : Binding} {log : List Record}
    (hRead : Yields (r.read path) binding log) (name : String) :
    name ∈ r.template.names ↔ name ∈ binding.params.keys ∨ name ∈ binding.failures.keys := by
  obtain ⟨raws, hCaptures, hLength⟩ := exists_captures h hAccepts
  have hFields := (yields_read_iff hAccepts hCaptures hLength).mp hRead
  have hNone : ¬ (name ∈ ({} : Binding).params.keys ∨ name ∈ ({} : Binding).failures.keys) := by
    rintro (hMem | hMem) <;> cases hMem
  rw [Binding.mem_keys_of_yields_bindFields hFields, List.map_fst_zip (Nat.le_of_eq hLength.symm),
    or_iff_left hNone]

end UriRouting
