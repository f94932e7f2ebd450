import UriRouting.Proofs.Router.Find

/-! # Searches that always answer

Whatever a request asks for, a search ends with nothing, with the refusal of its method or with a route.
What cannot be decoded is reported beside the values, so that no field of the route is passed over. -/

set_option autoImplicit false

namespace UriRouting.Router

variable {ι : Type} {t : Router ι}

theorem find_answers_of_refused {uri : List Char} {method : String}
    (hFind : t.routes.find? (fun e => e.2.serves (requestPath uri) method) = none) :
    (t.find uri method).run.value = .ok none ∨
      ∃ allowed, (t.find uri method).run.value =
        .error (.methodNotAllowed (Method.upper method) allowed) := by
  rw [run_find_of_find?_none hFind]
  dsimp only
  split
  · exact Or.inl rfl
  · exact Or.inr ⟨_, rfl⟩

/-- No request makes the search of a router of built routes fail in any other way than by refusing a
method, whatever the charsets of the routes are. -/
theorem find_answers
    (hBuilt : ∀ e ∈ t.routes, ∃ (s : Schema) (b : Builder), (b.build s).run.value = .ok e.2)
    (hFields : ∀ e ∈ t.routes, ∀ f ∈ e.2.template.fields,
      (Pattern.compile f.pattern.toList).isOk = true)
    (uri : List Char) (method : String) :
    (t.find uri method).run.value = .ok none ∨
    (∃ allowed, (t.find uri method).run.value =
      .error (.methodNotAllowed (Method.upper method) allowed)) ∨
    ∃ found, (t.find uri method).run.value = .ok (some found) ∧
      ∀ name, name ∈ found.route.template.names ↔
        name ∈ found.binding.params.keys ∨ name ∈ found.binding.failures.keys := by
  cases hFind : t.routes.find? fun e => e.2.serves (requestPath uri) method with
  | none => exact (find_answers_of_refused hFind).imp_right Or.inl
  | some entry =>
    obtain ⟨label, r⟩ := entry
    have hMem := List.mem_of_find?_eq_some hFind
    obtain ⟨s, b, hBuild⟩ := hBuilt _ hMem
    have hFormed := Route.wellFormed_of_build hBuild (hFields _ hMem)
    obtain ⟨hAccepts, binding, log, hRead, hFound⟩ := exists_found_of_find?_some hFormed hFind
    exact Or.inr (Or.inr ⟨_, congrArg Logged.value hFound,
      Route.mem_keys_of_read hFormed hAccepts hRead⟩)

/-- An unknown charset and an escape that breaks off. -/
theorem find_answers_of_unknown : ∃ (r : Route) (found : Found Nat),
    (({ routes := [(0, r)] } : Router Nat).find "/u/7/%4?x".toList "get").run.value =
      .ok (some found) ∧
    ("id" ∈ found.binding.params.keys ∨ "id" ∈ found.binding.failures.keys) ∧
    ("tag" ∈ found.binding.params.keys ∨ "tag" ∈ found.binding.failures.keys) := by
  let b : Builder := { template := .str "/u/{id}/{tag}", handler? := some { name := "h" },
                       encoding := "no-such-encoding" }
  obtain ⟨r, hBuild, hTest⟩ := exists_ok_of_any (x := (b.build {}).run.value)
    (p := fun r => (r.template.fields.all fun f => (Pattern.compile f.pattern.toList).isOk) ∧
      (({ routes := [(0, r)] } : Router Nat).find "/u/7/%4?x".toList "get").run.value.toOption.any
        (Option.any fun found => found.route.template.names = ["id", "tag"])) (by decide +kernel)
  obtain ⟨hFields, hFound⟩ := of_decide_eq_true hTest
  have hBuilt : ∀ e ∈ ({ routes := [(0, r)] } : Router Nat).routes,
      ∃ (s : Schema) (b : Builder), (b.build s).run.value = .ok e.2 := by
    intro e he
    obtain rfl := List.mem_singleton.mp he
    exact ⟨{}, b, hBuild⟩
  have hAlone : ∀ e ∈ ({ routes := [(0, r)] } : Router Nat).routes, ∀ f ∈ e.2.template.fields,
      (Pattern.compile f.pattern.toList).isOk = true := by
    intro e he
    obtain rfl := List.mem_singleton.mp he
    exact List.all_eq_true.mp hFields
  rcases find_answers hBuilt hAlone "/u/7/%4?x".toList "get" with h | ⟨allowed, h⟩ | ⟨found, h, hKeys⟩
  · rw [h] at hFound
    cases hFound
  · rw [h] at hFound
    cases hFound
  · rw [h] at hFound
    have hNames : found.route.template.names = ["id", "tag"] := of_decide_eq_true hFound
    rw [hNames] at hKeys
    exact ⟨r, found, h, (hKeys "id").mp (by simp), (hKeys "tag").mp (by simp)⟩

end UriRouting.Router
