import UriRouting.Proofs.Log
import UriRouting.Router.Basic

/-! # The route table

Routes are kept sorted by priority, and among equal priorities in the order in which they were
registered. `Sorted` relates the table to that order; a call that fails registers nothing. -/

set_option autoImplicit false

namespace UriRouting.Router

variable {ι : Type}

/-- A route with its place in the order of registration stands in front of another. -/
def Precedes (a b : Nat × ι × Route) : Prop :=
  a.2.2.priority < b.2.2.priority ∨ a.2.2.priority = b.2.2.priority ∧ a.1 < b.1

/-- The table holds the entries, each one once, with those in front that precede. -/
def Sorted (entries routes : List (ι × Route)) : Prop :=
  ∃ ranked : List (Nat × ι × Route), ranked.map Prod.snd = routes ∧
    (∀ i e, (i, e) ∈ ranked ↔ entries[i]? = some e) ∧ ranked.Pairwise Precedes

theorem insert_ranked (n : Nat) (label : ι) (r : Route) {ranked : List (Nat × ι × Route)}
    (hSorted : ranked.Pairwise Precedes) (hLess : ∀ a ∈ ranked, a.1 < n) :
    ∃ next : List (Nat × ι × Route), next.map Prod.snd = insert label r (ranked.map Prod.snd) ∧
      (∀ a, a ∈ next ↔ a = (n, label, r) ∨ a ∈ ranked) ∧ next.Pairwise Precedes := by
  induction ranked with
  | nil => exact ⟨[(n, label, r)], rfl, by simp, by simp⟩
  | cons a rest ih =>
    obtain ⟨hFirst, hRest⟩ := List.pairwise_cons.mp hSorted
    by_cases hBefore : r.before a.2.2 = true
    · refine ⟨(n, label, r) :: a :: rest, by simp [insert, hBefore], by simp, ?_⟩
      rw [Route.before, decide_eq_true_eq] at hBefore
      refine List.pairwise_cons.mpr ⟨fun b hb => Or.inl ?_, hSorted⟩
      rcases List.mem_cons.mp hb with rfl | hb
      · exact hBefore
      · rcases hFirst b hb with hPriority | ⟨hPriority, -⟩
        · exact Int.lt_trans hBefore hPriority
        · exact hPriority ▸ hBefore
    · obtain ⟨next, hMap, hMem, hNext⟩ := ih hRest fun b hb => hLess b (List.mem_cons_of_mem a hb)
      refine ⟨a :: next, by simp [insert, hBefore, hMap], fun b => ?_, ?_⟩
      · rw [List.mem_cons, hMem, List.mem_cons]
        exact or_left_comm
      · rw [Route.before, decide_eq_true_eq, Int.not_lt] at hBefore
        refine List.pairwise_cons.mpr ⟨fun b hb => ?_, hNext⟩
        rcases (hMem b).mp hb with rfl | hb
        -- Among equal priorities the new entry comes last, as it was registered last.
        · rcases Int.lt_or_eq_of_le hBefore with hLt | hEq
          · exact Or.inl hLt
          · exact Or.inr ⟨hEq, hLess a List.mem_cons_self⟩
        · exact hFirst b hb

theorem sorted_nil : Sorted ([] : List (ι × Route)) [] := ⟨[], rfl, by simp, List.Pairwise.nil⟩

theorem Sorted.register {entries routes : List (ι × Route)} (h : Sorted entries routes) (label : ι)
    (r : Route) : Sorted (entries ++ [(label, r)]) (insert label r routes) := by
  obtain ⟨ranked, rfl, hMem, hSorted⟩ := h
  have hLess : ∀ a ∈ ranked, a.1 < entries.length := by
    intro a ha
    obtain ⟨hLength, -⟩ := List.getElem?_eq_some_iff.mp ((hMem a.1 a.2).mp ha)
    exact hLength
  obtain ⟨next, hMap, hNext, hSorted'⟩ := insert_ranked entries.length label r hSorted hLess
  refine ⟨next, hMap, fun i e => ?_, hSorted'⟩
  rw [hNext, hMem, List.getElem?_append]
  split
  · rename_i hi
    constructor
    · rintro (hEq | he)
      · cases hEq
        omega
      · exact he
    · exact Or.inr
  · rename_i hi
    have hNone : entries[i]? = none := List.getElem?_eq_none (Nat.le_of_not_lt hi)
    rw [hNone, List.getElem?_singleton]
    constructor
    · rintro (hEq | he)
      · cases hEq
        simp
      · cases he
    · intro he
      split at he
      · rename_i hZero
        cases he
        have hi' : i = entries.length := by omega
        exact Or.inl (hi' ▸ rfl)
      · cases he

/-- The first entry of the table that passes a test is the one that precedes all others that do. -/
theorem Sorted.find?_eq_some {entries routes : List (ι × Route)} (h : Sorted entries routes)
    {test : ι × Route → Bool} {e : ι × Route} (hFind : routes.find? test = some e) :
    ∃ i : Nat, entries[i]? = some e ∧ test e = true ∧
      ∀ (j : Nat) e', entries[j]? = some e' → test e' = true →
        e.2.priority < e'.2.priority ∨ e.2.priority = e'.2.priority ∧ i ≤ j := by
  obtain ⟨ranked, rfl, hMem, hSorted⟩ := h
  obtain ⟨hTest, front, back, hRoutes, hFront⟩ := List.find?_eq_some_iff_append.mp hFind
  obtain ⟨front', middle, rfl, rfl, hMiddle⟩ := List.map_eq_append_iff.mp hRoutes
  obtain ⟨⟨i, e'⟩, back', rfl, rfl, rfl⟩ := List.map_eq_cons_iff.mp hMiddle
  refine ⟨i, (hMem i e').mp (by simp), hTest, fun j other hOther hTest' => ?_⟩
  obtain ⟨-, hBack, -⟩ := List.pairwise_append.mp hSorted
  rcases List.mem_append.mp ((hMem j other).mpr hOther) with hj | hj
  · have hNot := hFront other (List.mem_map_of_mem (f := Prod.snd) hj)
    rw [hTest'] at hNot
    cases hNot
  · rcases List.mem_cons.mp hj with hEq | hj
    · cases hEq
      exact Or.inr ⟨rfl, Nat.le_refl _⟩
    · rcases (List.pairwise_cons.mp hBack).1 _ hj with hLess | ⟨hEq, hLess⟩
      · exact Or.inl hLess
      · exact Or.inr ⟨hEq, Nat.le_of_lt hLess⟩

theorem Sorted.mem_iff {entries routes : List (ι × Route)} (h : Sorted entries routes)
    {e : ι × Route} : e ∈ routes ↔ e ∈ entries := by
  obtain ⟨ranked, rfl, hMem, -⟩ := h
  rw [List.mem_map, List.mem_iff_getElem?]
  constructor
  · rintro ⟨⟨i, e⟩, he, rfl⟩
    exact ⟨i, (hMem i e).mp he⟩
  · rintro ⟨i, he⟩
    exact ⟨(i, e), (hMem i e).mpr he, rfl⟩

/-! ## Runs of calls -/

/-- The calls that put routes into a router. -/
inductive Call (ι : Type) where
  | register (label : ι) (r : Route)
  | add (s : Schema) (label : ι) (d : Declaration)

/-- The router after a call, and what the call has registered. -/
def perform (t : Router ι) : Call ι → Router ι × List (ι × Route)
  | .register label r => (t.register label r, [(label, r)])
  | .add s label d =>
    match (t.add s label d).run.value with
    | .ok (next, r) => (next, [(label, r)])
    | .error _ => (t, [])

/-- The router after calls, and what they have registered, in their order. -/
def run (t : Router ι) : List (Call ι) → Router ι × List (ι × Route)
  | [] => (t, [])
  | call :: rest =>
    let (next, new) := t.perform call
    let (last, more) := next.run rest
    (last, new ++ more)

theorem add_eq_ok {t next : Router ι} {s : Schema} {label : ι} {d : Declaration} {r : Route}
    (h : (t.add s label d).run.value = .ok (next, r)) :
    next = t.register label r ∧ ∃ b : Builder, (b.build s).run.value = .ok r := by
  have hYields : Yields (t.add s label d) (next, r) (t.add s label d).run.log := by
    rw [Yields, ← h]
  obtain ⟨b, front, back, -, hBuild, -⟩ := Yields.bind_iff.mp hYields
  obtain ⟨r', front', back', hBuilt, hPure, -⟩ := Yields.bind_iff.mp hBuild
  obtain ⟨hEq, -⟩ := Yields.pure_iff.mp hPure
  cases hEq
  exact ⟨rfl, b, congrArg Logged.value hBuilt⟩

theorem sorted_perform {t : Router ι} {entries : List (ι × Route)} (h : Sorted entries t.routes)
    (call : Call ι) : Sorted (entries ++ (t.perform call).2) (t.perform call).1.routes := by
  cases call with
  | register label r => exact h.register label r
  | add s label d =>
    rw [perform]
    split
    · rename_i next r hAdd
      obtain ⟨rfl, -⟩ := add_eq_ok hAdd
      exact h.register label r
    · rw [List.append_nil]
      exact h

theorem sorted_run {t : Router ι} {entries : List (ι × Route)} (h : Sorted entries t.routes)
    (calls : List (Call ι)) : Sorted (entries ++ (t.run calls).2) (t.run calls).1.routes := by
  induction calls generalizing t entries with
  | nil =>
    rw [run, List.append_nil]
    exact h
  | cons call rest ih =>
    have hNext := ih (sorted_perform h call)
    rw [List.append_assoc] at hNext
    exact hNext

end UriRouting.Router
