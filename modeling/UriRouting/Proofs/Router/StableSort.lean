import Mathlib.Data.List.Nodup
import UriRouting.Proofs.Outcome
import UriRouting.Proofs.Router.Table

/-! # The table as a stable sort

The table holds what has been registered, sorted by priority, and within one priority in the order of
registration. Which calls have failed in between makes no difference, and where all priorities are
distinct neither does the order of the calls. -/

set_option autoImplicit false

namespace UriRouting.Router

variable {ι : Type} {registered routes : List (ι × Route)}

/-- Routes sorted by priority, with those of one priority in the order in which they were registered. -/
structure StablySorted (registered routes : List (ι × Route)) : Prop where
  perm : routes.Perm registered
  ascending : routes.Pairwise fun a b => a.2.priority ≤ b.2.priority
  ties : ∀ p : Int, routes.filter (fun e => e.2.priority = p) =
    registered.filter fun e => e.2.priority = p

/-! ## Ranked entries -/

/-- Entries with their places. -/
def ranked (entries : List (ι × Route)) : List (Nat × ι × Route) := entries.zipIdx.map Prod.swap

theorem map_snd_ranked (entries : List (ι × Route)) : (ranked entries).map Prod.snd = entries := by
  rw [ranked, List.map_map]
  exact List.zipIdx_map_fst 0 entries

theorem mem_ranked_iff {entries : List (ι × Route)} {i : Nat} {e : ι × Route} :
    (i, e) ∈ ranked entries ↔ entries[i]? = some e := by
  rw [ranked, List.mem_map]
  constructor
  · rintro ⟨⟨e, i⟩, hMem, hEq⟩
    cases hEq
    exact List.mem_zipIdx_iff_getElem?.mp hMem
  · intro he
    exact ⟨(e, i), List.mem_zipIdx_iff_getElem?.mpr he, rfl⟩

theorem pairwise_ranked (entries : List (ι × Route)) :
    (ranked entries).Pairwise fun a b => a.1 < b.1 := by
  have hPlaces : (entries.zipIdx.map Prod.snd).Pairwise (· < ·) := by
    rw [List.zipIdx_map_snd]
    exact List.pairwise_lt_range' 1
  exact List.pairwise_map.mpr (List.pairwise_map.mp hPlaces)

theorem Precedes.ne {a b : Nat × ι × Route} (h : Precedes a b) : a ≠ b := by
  rintro rfl
  rcases h with h | ⟨-, h⟩
  · exact Int.lt_irrefl _ h
  · exact Nat.lt_irrefl _ h

/-! ## From places to a stable sort -/

theorem pairwise_filter_of_precedes {entries : List (Nat × ι × Route)}
    (h : entries.Pairwise Precedes) (p : Int) :
    (entries.filter fun a => a.2.2.priority = p).Pairwise fun a b => a.1 < b.1 := by
  refine List.pairwise_filter.mpr (h.imp fun {a b} hPrecedes ha hb => ?_)
  have hSame : a.2.2.priority = b.2.2.priority :=
    (of_decide_eq_true ha).trans (of_decide_eq_true hb).symm
  rcases hPrecedes with hLess | ⟨-, hLess⟩
  · exact absurd hLess (hSame ▸ Int.lt_irrefl _)
  · exact hLess

theorem Sorted.stablySorted (h : Sorted registered routes) : StablySorted registered routes := by
  obtain ⟨entries, rfl, hMem, hSorted⟩ := h
  have hPerm : entries.Perm (ranked registered) := by
    refine (List.perm_ext_iff_of_nodup (hSorted.imp Precedes.ne) ?_).mpr ?_
    · refine (pairwise_ranked registered).imp fun {a b} hLess hEq => ?_
      exact Nat.lt_irrefl _ (hEq ▸ hLess)
    · rintro ⟨i, e⟩
      exact (hMem i e).trans mem_ranked_iff.symm
  constructor
  case perm =>
    have hMap := hPerm.map Prod.snd
    rwa [map_snd_ranked] at hMap
  case ascending =>
    refine List.pairwise_map.mpr (hSorted.imp fun hPrecedes => ?_)
    rcases hPrecedes with hLess | ⟨hEq, -⟩
    · exact Int.le_of_lt hLess
    · exact Int.le_of_eq hEq
  case ties =>
    intro p
    -- Both sides hold the same places in ascending order.
    have hSame : entries.filter (fun a => a.2.2.priority = p) =
        (ranked registered).filter fun a => a.2.2.priority = p := by
      refine List.Perm.eq_of_pairwise (fun a b _ _ hab hba => ?_) (pairwise_filter_of_precedes hSorted p)
        ((pairwise_ranked registered).filter _) (hPerm.filter _)
      exact absurd hab (Nat.lt_asymm hba)
    rw [← map_snd_ranked registered, List.filter_map, List.filter_map]
    exact congrArg (List.map Prod.snd) hSame

/-- Distinct priorities leave nothing to the order of registration. -/
theorem StablySorted.eq_of_perm {registered' routes' : List (ι × Route)}
    (h : StablySorted registered routes) (h' : StablySorted registered' routes')
    (hPerm : registered'.Perm registered) (hDistinct : (registered.map fun e => e.2.priority).Nodup) :
    routes' = routes := by
  refine List.Perm.eq_of_pairwise (fun a b ha hb hab hba => ?_) h'.ascending h.ascending
    (h'.perm.trans (hPerm.trans h.perm.symm))
  exact List.inj_on_of_nodup_map hDistinct (hPerm.mem_iff.mp (h'.perm.mem_iff.mp ha))
    (h.perm.mem_iff.mp hb) (Int.le_antisymm hab hba)

/-! ## The table after calls -/

theorem run_append (t : Router ι) (calls more : List (Call ι)) :
    t.run (calls ++ more) =
      (((t.run calls).1.run more).1, (t.run calls).2 ++ ((t.run calls).1.run more).2) := by
  induction calls generalizing t with
  | nil => rfl
  | cons call rest ih => simp only [List.cons_append, run, ih, List.append_assoc]

/-- After any calls the table is the stable sort of what they have registered. A call that fails
registers nothing and changes nothing. -/
theorem stablySorted_run {t : Router ι} (hNew : t.routes = []) (calls : List (Call ι)) :
    StablySorted (t.run calls).2 (t.run calls).1.routes ∧
    (∀ label r, t.run (calls ++ [.register label r]) =
      ((t.run calls).1.register label r, (t.run calls).2 ++ [(label, r)])) ∧
    (∀ s label d next r, ((t.run calls).1.add s label d).run.value = .ok (next, r) →
      t.run (calls ++ [.add s label d]) = (next, (t.run calls).2 ++ [(label, r)])) ∧
    (∀ s label d e, ((t.run calls).1.add s label d).run.value = .error e →
      t.run (calls ++ [.add s label d]) = t.run calls) ∧
    ∀ (t' : Router ι) (calls' : List (Call ι)), t'.routes = [] →
      (t'.run calls').2.Perm (t.run calls).2 →
      ((t.run calls).2.map fun e => e.2.priority).Nodup →
      (t'.run calls').1.routes = (t.run calls).1.routes := by
  have hSorted {t : Router ι} (hNew : t.routes = []) (calls : List (Call ι)) :
      StablySorted (t.run calls).2 (t.run calls).1.routes := by
    have hNil : Sorted [] t.routes := hNew ▸ sorted_nil
    have hRun := sorted_run hNil calls
    exact hRun.stablySorted
  refine ⟨hSorted hNew calls, ?_, ?_, ?_, ?_⟩
  · intro label r
    rw [run_append]
    rfl
  · intro s label d next r hAdd
    rw [run_append]
    simp only [run, perform, hAdd, List.append_nil]
  · intro s label d e hAdd
    rw [run_append]
    simp only [run, perform, hAdd, List.append_nil]
  · intro t' calls' hNew' hPerm hDistinct
    exact (hSorted hNew calls).eq_of_perm (hSorted hNew' calls') hPerm hDistinct

/-- Calls that fail between others, and two routes registered in either order. -/
theorem stablySorted_run_of_failures :
    let declared (template : String) (priority : Int) : Declaration :=
      { template := .str template, target := .handler { name := "h" }, priority? := some priority }
    let unknownMethod : Declaration := { declared "/x" 0 with methods := .list [.str "FETCH"] }
    let notCallable : Declaration := { declared "/x" 0 with target := .value (.int 7) }
    let malformed : Declaration := declared "/\x7b" 0
    let calls : List (Call Nat) :=
      [.add {} 0 (declared "/a" 20), .add {} 1 unknownMethod, .add {} 2 (declared "/b" 10),
        .add {} 3 notCallable, .add {} 4 (declared "/c" 20)]
    let t : Router Nat := {}
    StablySorted (t.run calls).2 (t.run calls).1.routes ∧
      (t.run calls).1.routes.map Prod.fst = [2, 0, 4] ∧
      t.run (calls ++ [.add {} 5 malformed]) = t.run calls ∧
      ∃ r : Route, (t.run [.register 1 { r with priority := 10 }, .register 0 r]).1.routes =
        (t.run [.register 0 r, .register 1 { r with priority := 10 }]).1.routes := by
  intro declared unknownMethod notCallable malformed calls t
  obtain ⟨hSorted, -, -, hFailed, -⟩ := stablySorted_run (t := t) rfl calls
  obtain ⟨e, hError⟩ : ∃ e, ((t.run calls).1.add {} 5 malformed).run.value = .error e := by
    exact exists_error_of_isOk_eq_false (by decide +kernel)
  refine ⟨hSorted, by decide +kernel, hFailed _ _ _ e hError, ?_⟩
  obtain ⟨template, -, -⟩ := exists_ok_of_any (x := Template.compile {} "/a")
    (p := fun _ => true) (by decide +kernel)
  let r : Route := ⟨template, { name := "h" }, [], 20, [], .shared, "utf-8"⟩
  obtain ⟨-, -, -, -, hOrder⟩ :=
    stablySorted_run (t := t) rfl [.register 0 r, .register 1 { r with priority := 10 }]
  exact ⟨r, hOrder t _ rfl (List.Perm.swap _ _ _) (by simp [run, perform, r])⟩

end UriRouting.Router
