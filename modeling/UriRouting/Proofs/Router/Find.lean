import UriRouting.Proofs.Distinct
import UriRouting.Proofs.Route.Built
import UriRouting.Proofs.Router.Table

/-! # Which route is found

Among the routes that a path matches and that accept the method, the search answers with the one of the
least priority that was registered first. A path that only other methods may ask for is told from a
path that nothing is registered for: a route that refuses a method names at least one. -/

set_option autoImplicit false

namespace UriRouting

/-- A request for the path by the method can be served. -/
def Route.serves (r : Route) (path : List Char) (method : String) : Bool :=
  r.accepts path && r.acceptsMethod method

/-! ## The allowed methods -/

namespace Router

variable {ι : Type}

theorem mem_allowedMethods {routes : List Route} {path : List Char} {m : String} :
    m ∈ allowedMethods routes path ↔ ∃ r ∈ routes, r.accepts path = true ∧ m ∈ r.methods := by
  rw [allowedMethods, List.mem_mergeSort, List.mem_eraseDups, List.mem_flatMap]
  simp only [List.mem_filter, and_assoc]

theorem pairwise_allowedMethods (routes : List Route) (path : List Char) :
    (allowedMethods routes path).Pairwise (· < ·) := by
  have hTrans : ∀ a b c : String, decide (a ≤ b) = true → decide (b ≤ c) = true →
      decide (a ≤ c) = true := by
    intro a b c hab hbc
    exact decide_eq_true (String.le_trans (of_decide_eq_true hab) (of_decide_eq_true hbc))
  have hTotal : ∀ a b : String, (decide (a ≤ b) || decide (b ≤ a)) = true := by
    intro a b
    simpa using String.le_total a b
  have hSorted := List.pairwise_mergeSort hTrans hTotal
    ((routes.filter (·.accepts path)).flatMap Route.methods).eraseDups
  have hNodup : (allowedMethods routes path).Nodup :=
    (List.mergeSort_perm _ _).nodup_iff.mpr (nodup_eraseDups _)
  refine (List.Pairwise.and hSorted hNodup).imp fun {a b} h => ?_
  refine String.not_le.mp fun hba => h.2 ?_
  exact String.le_antisymm (of_decide_eq_true h.1) hba

/-! ## The search -/

variable {t : Router ι} {entries : List (ι × Route)}

theorem find_eq_of_find?_some {uri : List Char} {method : String} {label : ι} {r : Route}
    (hFind : t.routes.find? (fun e => e.2.serves (requestPath uri) method) = some (label, r))
    {binding : Binding} {log : List Record} (hRead : Yields (r.read (requestPath uri)) binding log) :
    Yields (t.find uri method) (some ⟨label, r, binding⟩) log := by
  have hEq : t.find uri method = (do
      let binding ← (r.read (requestPath uri)).adapt .read
      pure (some ⟨label, r, binding⟩)) := by
    unfold find
    dsimp only
    rw [show t.routes.find? (fun e => e.2.accepts (requestPath uri) && e.2.acceptsMethod method) =
      some (label, r) from hFind]
  rw [hEq, Yields.bind_iff]
  exact ⟨binding, log, [], Yields.adapt_iff.mpr hRead, Yields.pure_iff.mpr ⟨rfl, rfl⟩,
    (List.append_nil log).symm⟩

theorem exists_found_of_find?_some {uri : List Char} {method : String} {label : ι} {r : Route}
    (hFormed : r.WellFormed)
    (hFind : t.routes.find? (fun e => e.2.serves (requestPath uri) method) = some (label, r)) :
    r.accepts (requestPath uri) = true ∧ ∃ binding log,
      Yields (r.read (requestPath uri)) binding log ∧
      Yields (t.find uri method) (some ⟨label, r, binding⟩) log := by
  have hServes := List.find?_some hFind
  have hAccepts : r.accepts (requestPath uri) = true := (Bool.and_eq_true_iff.mp hServes).1
  obtain ⟨binding, log, hRead⟩ := Route.exists_yields_read hFormed hAccepts
  exact ⟨hAccepts, binding, log, hRead, find_eq_of_find?_some hFind hRead⟩

theorem run_find_of_find?_none {uri : List Char} {method : String}
    (hFind : t.routes.find? (fun e => e.2.serves (requestPath uri) method) = none) :
    (t.find uri method).run =
      (let allowed := allowedMethods (t.routes.map Prod.snd) (requestPath uri)
      if allowed.isEmpty then ⟨.ok none, []⟩
      else ⟨.error (.methodNotAllowed (Method.upper method) allowed), []⟩) := by
  unfold find
  dsimp only
  rw [show t.routes.find? (fun e => e.2.accepts (requestPath uri) && e.2.acceptsMethod method) =
    none from hFind]
  dsimp only
  split
  · rfl
  · rfl

/-! ## What runs register -/

theorem compiled_of_run {calls : List (Call ι)} (t : Router ι)
    (hRegistered : ∀ label r, .register label r ∈ calls →
      ∃ p source, Template.compile p source = .ok r.template) :
    ∀ e ∈ (t.run calls).2, ∃ p source, Template.compile p source = .ok e.2.template := by
  induction calls generalizing t with
  | nil => exact fun e he => by cases he
  | cons call rest ih =>
    intro e he
    rcases List.mem_append.mp he with he | he
    · cases call with
      | register label r =>
        obtain rfl := List.mem_singleton.mp he
        exact hRegistered label r List.mem_cons_self
      | add s label d =>
        change e ∈ (t.perform (.add s label d)).2 at he
        rw [perform] at he
        split at he
        · rename_i next r hAdd
          obtain rfl := List.mem_singleton.mp he
          obtain ⟨-, b, hBuild⟩ := add_eq_ok hAdd
          exact Builder.exists_compile_of_compile (Builder.compiled_of_build hBuild)
        · cases he
    · exact ih _ (fun label r hMem => hRegistered label r (List.mem_cons_of_mem call hMem)) e he

/-! ## The outcome of a search -/

section Outcome

variable {uri : List Char} {method : String}

theorem find_of_serves (h : Sorted entries t.routes) (hFormed : ∀ e ∈ entries, e.2.WellFormed)
    (hServes : ∃ e ∈ entries, e.2.serves (requestPath uri) method = true) :
    ∃ (i : Nat) (label : ι) (r : Route) (binding : Binding) (log : List Record),
      entries[i]? = some (label, r) ∧ r.serves (requestPath uri) method = true ∧
      (∀ (j : Nat) (e : ι × Route), entries[j]? = some e →
        e.2.serves (requestPath uri) method = true →
          r.priority < e.2.priority ∨ r.priority = e.2.priority ∧ i ≤ j) ∧
      Yields (r.read (requestPath uri)) binding log ∧
      Yields (t.find uri method) (some ⟨label, r, binding⟩) log := by
  obtain ⟨e, he, hServes⟩ := hServes
  have hSome : (t.routes.find? fun e => e.2.serves (requestPath uri) method).isSome = true :=
    List.find?_isSome.mpr ⟨e, h.mem_iff.mpr he, hServes⟩
  obtain ⟨⟨label, r⟩, hFind⟩ := Option.isSome_iff_exists.mp hSome
  obtain ⟨i, hEntry, hServes, hFirst⟩ := h.find?_eq_some hFind
  obtain ⟨-, binding, log, hRead, hFound⟩ :=
    exists_found_of_find?_some (hFormed _ (List.mem_of_getElem? hEntry)) hFind
  exact ⟨i, label, r, binding, log, hEntry, hServes, hFirst, hRead, hFound⟩

theorem find?_eq_none (h : Sorted entries t.routes)
    (hNone : ∀ e ∈ entries, e.2.serves (requestPath uri) method = false) :
    t.routes.find? (fun e => e.2.serves (requestPath uri) method) = none := by
  refine List.find?_eq_none.mpr fun e he hServes => ?_
  rw [hNone e (h.mem_iff.mp he)] at hServes
  cases hServes

theorem mem_allowedMethods_of_sorted (h : Sorted entries t.routes) {path : List Char} {m : String} :
    m ∈ allowedMethods (t.routes.map Prod.snd) path ↔
      ∃ e ∈ entries, e.2.accepts path = true ∧ m ∈ e.2.methods := by
  rw [mem_allowedMethods]
  constructor
  · rintro ⟨r, hr, hMethods⟩
    obtain ⟨e, he, rfl⟩ := List.mem_map.mp hr
    exact ⟨e, h.mem_iff.mp he, hMethods⟩
  · rintro ⟨e, he, hMethods⟩
    exact ⟨e.2, List.mem_map_of_mem (h.mem_iff.mpr he), hMethods⟩

/-- A route that refuses a method names one that it accepts. -/
theorem exists_method_of_refused {r : Route} {path : List Char} (hAccepts : r.accepts path = true)
    (hServes : r.serves path method = false) : ∃ m, m ∈ r.methods := by
  rw [Route.serves, hAccepts, Bool.true_and, Route.acceptsMethod, Bool.or_eq_false_iff] at hServes
  exact List.exists_mem_of_ne_nil _ (List.isEmpty_eq_false_iff.mp hServes.1)

theorem find_of_refused (h : Sorted entries t.routes)
    (hNone : ∀ e ∈ entries, e.2.serves (requestPath uri) method = false)
    (hSome : ∃ e ∈ entries, e.2.accepts (requestPath uri) = true) :
    ∃ allowed : List String,
      (t.find uri method).run = ⟨.error (.methodNotAllowed (Method.upper method) allowed), []⟩ ∧
      allowed.Pairwise (· < ·) ∧
      ∀ m, m ∈ allowed ↔ ∃ e ∈ entries, e.2.accepts (requestPath uri) = true ∧ m ∈ e.2.methods := by
  refine ⟨_, ?_, pairwise_allowedMethods _ _, fun m => mem_allowedMethods_of_sorted h⟩
  obtain ⟨e, he, hAccepts⟩ := hSome
  -- An empty list of methods would be taken for a path that nothing is registered for.
  obtain ⟨m, hm⟩ := exists_method_of_refused hAccepts (hNone e he)
  have hMem := (mem_allowedMethods_of_sorted h).mpr ⟨e, he, hAccepts, hm⟩
  rw [run_find_of_find?_none (find?_eq_none h hNone)]
  exact if_neg fun hEmpty => List.ne_nil_of_mem hMem (List.isEmpty_iff.mp hEmpty)

theorem find_of_absent (h : Sorted entries t.routes)
    (hNone : ∀ e ∈ entries, e.2.accepts (requestPath uri) = false) :
    (t.find uri method).run = ⟨.ok none, []⟩ := by
  have hServes : ∀ e ∈ entries, e.2.serves (requestPath uri) method = false := by
    intro e he
    rw [Route.serves, hNone e he, Bool.false_and]
  rw [run_find_of_find?_none (find?_eq_none h hServes)]
  refine if_pos (List.isEmpty_iff.mpr (List.eq_nil_iff_forall_not_mem.mpr fun m hm => ?_))
  obtain ⟨e, he, hAccepts, -⟩ := (mem_allowedMethods_of_sorted h).mp hm
  rw [hNone e he] at hAccepts
  cases hAccepts

end Outcome

/-! ## The three cases of a search -/

section Cases

variable (registered : List (ι × Route)) (path : List Char) (method : String)

def Served : Prop := ∃ e ∈ registered, e.2.serves path method = true

/-- Routes match the path, but none of them accepts the method. -/
def Refused : Prop :=
  (∀ e ∈ registered, e.2.serves path method = false) ∧ ∃ e ∈ registered, e.2.accepts path = true

def Absent : Prop := ∀ e ∈ registered, e.2.accepts path = false

variable {registered path method}

theorem Served.not_refused (h : Served registered path method) :
    ¬ Refused registered path method := by
  rintro ⟨hNone, -⟩
  obtain ⟨e, he, hServes⟩ := h
  rw [hNone e he] at hServes
  cases hServes

theorem Served.not_absent (h : Served registered path method) : ¬ Absent registered path := by
  intro hNone
  obtain ⟨e, he, hServes⟩ := h
  rw [Route.serves, hNone e he] at hServes
  cases hServes

theorem Refused.not_absent (h : Refused registered path method) : ¬ Absent registered path := by
  intro hNone
  obtain ⟨-, e, he, hAccepts⟩ := h
  rw [hNone e he] at hAccepts
  cases hAccepts

variable (registered path method) in
theorem served_or_refused_or_absent :
    Served registered path method ∨ Refused registered path method ∨ Absent registered path := by
  by_cases hServed : Served registered path method
  · exact Or.inl hServed
  · by_cases hAccepts : ∃ e ∈ registered, e.2.accepts path = true
    · refine Or.inr (Or.inl ⟨fun e he => ?_, hAccepts⟩)
      exact Bool.eq_false_iff.mpr fun hServes => hServed ⟨e, he, hServes⟩
    · apply Or.inr
      apply Or.inr
      intro e he
      exact Bool.eq_false_iff.mpr fun hAccepts' => hAccepts ⟨e, he, hAccepts'⟩

end Cases

/-- The search of a router that began without routes, in terms of the routes registered with it in the
order in which they were. -/
theorem find_run (hNew : t.routes = []) (calls : List (Call ι))
    (hRegistered : ∀ label r, .register label r ∈ calls →
      ∃ p source, Template.compile p source = .ok r.template)
    (hFields : ∀ e ∈ (t.run calls).2, ∀ f ∈ e.2.template.fields,
      (Pattern.compile f.pattern.toList).isOk = true)
    (uri : List Char) (method : String) :
    let path := requestPath uri
    let registered := (t.run calls).2
    let find := (t.run calls).1.find uri method
    (Served registered path method →
      ∃ (i : Nat) (label : ι) (r : Route) (binding : Binding) (log : List Record),
        registered[i]? = some (label, r) ∧ r.serves path method = true ∧
        (∀ (j : Nat) (e : ι × Route), registered[j]? = some e → e.2.serves path method = true →
          r.priority < e.2.priority ∨ r.priority = e.2.priority ∧ i ≤ j) ∧
        Yields (r.read path) binding log ∧ Yields find (some ⟨label, r, binding⟩) log) ∧
    (Refused registered path method →
      ∃ allowed : List String,
        find.run = ⟨.error (.methodNotAllowed (Method.upper method) allowed), []⟩ ∧
        allowed.Pairwise (· < ·) ∧
        ∀ m, m ∈ allowed ↔ ∃ e ∈ registered, e.2.accepts path = true ∧ m ∈ e.2.methods) ∧
    (Absent registered path → find.run = ⟨.ok none, []⟩) ∧
    (Served registered path method ∨ Refused registered path method ∨ Absent registered path) ∧
    ¬ (Served registered path method ∧ Refused registered path method) ∧
    ¬ (Served registered path method ∧ Absent registered path) ∧
    ¬ (Refused registered path method ∧ Absent registered path) := by
  intro path registered find
  have hSorted : Sorted registered (t.run calls).1.routes := by
    have hNil : Sorted [] t.routes := hNew ▸ sorted_nil
    have hRun := sorted_run hNil calls
    rwa [List.nil_append] at hRun
  have hFormed : ∀ e ∈ registered, e.2.WellFormed := by
    intro e he
    constructor
    · exact compiled_of_run t hRegistered e he
    · exact hFields e he
  refine ⟨?_, ?_, ?_, ?_, ?_, ?_, ?_⟩
  · exact find_of_serves hSorted hFormed
  · rintro ⟨hNone, hSome⟩
    exact find_of_refused hSorted hNone hSome
  · exact find_of_absent hSorted
  · exact served_or_refused_or_absent registered path method
  · rintro ⟨hServed, hRefused⟩
    exact hServed.not_refused hRefused
  · rintro ⟨hServed, hAbsent⟩
    exact hServed.not_absent hAbsent
  · rintro ⟨hRefused, hAbsent⟩
    exact hRefused.not_absent hAbsent

/-- A query is not part of the path, and a method may be in any case. -/
theorem find_run_of_two : ∃ (r : Route) (found : Found Nat) (log : List Record),
    Yields (((({} : Router Nat).run
      [.register 0 r, .register 1 { r with methods := ["GET"], priority := 10 }]).1).find
        "/u/7?x".toList "get") (some found) log := by
  obtain ⟨template, hCompile, hTest⟩ := exists_ok_of_any
    (x := Template.compile { explicit := [("a", "[0-9]+")] } "/u/{a}")
    (p := fun template => (template.fields.all fun f => (Pattern.compile f.pattern.toList).isOk) ∧
      template.accepts "/u/7".toList) (by decide +kernel)
  obtain ⟨hFields, hAccepts⟩ := of_decide_eq_true hTest
  let r : Route := ⟨template, { name := "h" }, ["PUT"], 40, [], .shared, "utf-8"⟩
  let calls : List (Call Nat) :=
    [.register 0 r, .register 1 { r with methods := ["GET"], priority := 10 }]
  have hRegistered : ∀ label (r : Route), .register label r ∈ calls →
      ∃ p source, Template.compile p source = .ok r.template := by
    intro label other hMem
    simp only [calls, List.mem_cons, Call.register.injEq, List.not_mem_nil, or_false] at hMem
    rcases hMem with ⟨-, rfl⟩ | ⟨-, rfl⟩ <;> exact ⟨_, _, hCompile⟩
  have hAlone : ∀ e ∈ (({} : Router Nat).run calls).2, ∀ f ∈ e.2.template.fields,
      (Pattern.compile f.pattern.toList).isOk = true := by
    intro e he
    have he' : e ∈ [(0, r), (1, { r with methods := ["GET"], priority := 10 })] := he
    simp only [List.mem_cons, List.not_mem_nil, or_false] at he'
    rcases he' with rfl | rfl <;> exact List.all_eq_true.mp hFields
  have hPath : requestPath "/u/7?x".toList = "/u/7".toList := by decide +kernel
  have hMethod : (["GET"].isEmpty || decide (Method.upper "get" ∈ ["GET"])) = true := by decide +kernel
  have hServes : Route.serves { r with methods := ["GET"], priority := 10 }
      (requestPath "/u/7?x".toList) "get" = true := by
    rw [hPath]
    exact Bool.and_eq_true_iff.mpr ⟨hAccepts, hMethod⟩
  obtain ⟨hServed, -⟩ := find_run rfl calls hRegistered hAlone "/u/7?x".toList "get"
  obtain ⟨_, label, route, binding, log, -, -, -, -, hFind⟩ :=
    hServed ⟨_, List.mem_cons_of_mem _ List.mem_cons_self, hServes⟩
  exact ⟨r, ⟨label, route, binding⟩, log, hFind⟩

end Router

end UriRouting
