import UriRouting.Proofs.Binding.Independent
import UriRouting.Proofs.Router.Find

/-! # Names that come more than once

Values and failures are kept by name, while texts are decoded field by field. A name that several fields
have is among both where one of its texts can be decoded and another cannot; a name that only one field
has never is. -/

set_option autoImplicit false

namespace UriRouting

namespace Binding

variable {encoding : String} {fields : List (String × List Char)} {name : String}

theorem mem_filterMap_callOf?_iff : name ∈ (fields.filterMap (callOf? encoding)).map Prod.fst ↔
    ∃ raw, (name, raw) ∈ fields ∧ (decodeField encoding raw).isOk = true := by
  simp only [List.mem_map, List.mem_filterMap]
  constructor
  · rintro ⟨call, ⟨field, hField, hCall⟩, rfl⟩
    obtain ⟨value, hDecode, hSome, -, -⟩ | ⟨e, -, hNone, -, -⟩ := outcome_cases encoding field
    · cases hSome.symm.trans hCall
      exact ⟨field.2, hField, by rw [hDecode]; rfl⟩
    · cases hNone.symm.trans hCall
  · rintro ⟨raw, hField, hOk⟩
    obtain ⟨value, -, hSome, -, -⟩ | ⟨e, hDecode, -, -, -⟩ := outcome_cases encoding (name, raw)
    · exact ⟨_, ⟨_, hField, hSome⟩, rfl⟩
    · rw [hDecode] at hOk
      cases hOk

theorem mem_filterMap_failureOf?_iff : name ∈ (fields.filterMap (failureOf? encoding)).map Prod.fst ↔
    ∃ raw, (name, raw) ∈ fields ∧ (decodeField encoding raw).isOk = false := by
  simp only [List.mem_map, List.mem_filterMap]
  constructor
  · rintro ⟨failure, ⟨field, hField, hFailure⟩, rfl⟩
    obtain ⟨value, -, -, hNone, -⟩ | ⟨e, hDecode, -, hSome, -⟩ := outcome_cases encoding field
    · cases hNone.symm.trans hFailure
    · cases hSome.symm.trans hFailure
      exact ⟨field.2, hField, by rw [hDecode]; rfl⟩
  · rintro ⟨raw, hField, hFails⟩
    obtain ⟨value, hDecode, -, -, -⟩ | ⟨e, -, -, hSome, -⟩ := outcome_cases encoding (name, raw)
    · rw [hDecode] at hFails
      cases hFails
    · exact ⟨_, ⟨_, hField, hSome⟩, rfl⟩

theorem mem_keys_params_extend : name ∈ (extend encoding {} fields).params.keys ↔
    ∃ raw, (name, raw) ∈ fields ∧ (decodeField encoding raw).isOk = true :=
  (OrderedMap.mem_keys_overlay.trans (or_iff_left List.not_mem_nil)).trans mem_filterMap_callOf?_iff

theorem mem_keys_failures_extend : name ∈ (extend encoding {} fields).failures.keys ↔
    ∃ raw, (name, raw) ∈ fields ∧ (decodeField encoding raw).isOk = false :=
  (OrderedMap.mem_keys_overlay.trans (or_iff_left List.not_mem_nil)).trans mem_filterMap_failureOf?_iff

/-- Binding succeeds only if no text is missing. -/
theorem exists_captured_of_yields {b result : Binding} {log : List Record}
    {fields : List (String × Option (List Char))} (h : Yields (bindFields encoding b fields) result log) :
    ∃ known, fields = captured known := by
  induction fields generalizing b log with
  | nil => exact ⟨[], rfl⟩
  | cons field rest ih =>
    obtain ⟨name, text?⟩ := field
    cases text? with
    | none => exact (Yields.throw_iff.mp h).elim
    | some raw =>
      obtain ⟨next, front, back, -, hRest, -⟩ := Yields.bind_iff.mp h
      obtain ⟨known, rfl⟩ := ih hRest
      exact ⟨(name, raw) :: known, rfl⟩

theorem exists_of_yields_ofCaptures {captures : List (Option (List Char))} {names : List String}
    {b : Binding} {log : List Record} (h : Yields (ofCaptures encoding captures names) b log) :
    ∃ raws, captures = raws.map some ∧ raws.length = names.length ∧
      b = extend encoding {} (names.zip raws) := by
  have hBound := h
  rw [ofCaptures] at hBound
  split at hBound
  · exact (Yields.throw_iff.mp hBound).elim
  · rename_i hLength
    rw [not_not] at hLength
    obtain ⟨known, hKnown⟩ := exists_captured_of_yields hBound
    have hCaptures : captures = (known.map Prod.snd).map some := by
      rw [← List.map_snd_zip (Nat.le_of_eq hLength), hKnown, captured, List.map_map, List.map_map]
      rfl
    have hLength' : (known.map Prod.snd).length = names.length := by
      rw [← hLength, hCaptures]
      exact (List.length_map some).symm
    refine ⟨_, hCaptures, hLength', ?_⟩
    exact (h.eq (hCaptures ▸ yields_ofCaptures encoding hLength')).1

end Binding

/-- What a route has read was bound field by field. -/
theorem Route.exists_of_yields_read {r : Route} {path : List Char} (hAccepts : r.accepts path = true)
    {binding : Binding} {log : List Record} (h : Yields (r.read path) binding log) :
    ∃ raws, r.template.captures path = .ok (raws.map some) ∧ raws.length = r.template.names.length ∧
      binding = Binding.extend r.encoding {} (r.template.names.zip raws) := by
  rw [read, if_pos hAccepts] at h
  split at h
  · rename_i captures hCaptures
    obtain ⟨raws, rfl, hLength, hBinding⟩ :=
      Binding.exists_of_yields_ofCaptures (Yields.adapt_iff.mp h)
    exact ⟨raws, hCaptures, hLength, hBinding⟩
  · exact (Yields.throw_iff.mp h).elim

namespace Router

variable {ι : Type} {t : Router ι} {uri : List Char} {method : String} {found : Found ι}
  {log : List Record}

theorem yields_read_of_find (h : Yields (t.find uri method) (some found) log) :
    found.route.accepts (requestPath uri) = true ∧
      ∃ front, Yields (found.route.read (requestPath uri)) found.binding front := by
  rw [find] at h
  dsimp only at h
  split at h
  · rename_i label r hFind
    obtain ⟨binding, front, back, hRead, hPure, -⟩ := Yields.bind_iff.mp h
    obtain ⟨hFound, -⟩ := Yields.pure_iff.mp hPure
    cases hFound
    have hServes : (r.accepts (requestPath uri) && r.acceptsMethod method) = true :=
      List.find?_some (p := fun e : ι × Route => e.2.accepts (requestPath uri) && e.2.acceptsMethod method)
        hFind
    exact ⟨(Bool.and_eq_true_iff.mp hServes).1, front, Yields.adapt_iff.mp hRead⟩
  · split at h
    · cases (Yields.pure_iff.mp h).1
    · exact (Yields.throw_iff.mp h).elim

theorem two_le_count_of_mem_zip {names : List String} {raws : List (List Char)} {name : String}
    {raw other : List Char} (hRaw : (name, raw) ∈ names.zip raws) (hOther : (name, other) ∈ names.zip raws)
    (hNe : raw ≠ other) : 2 ≤ names.count name := by
  induction names generalizing raws with
  | nil => cases hRaw
  | cons n names ih =>
    cases raws with
    | nil => cases hRaw
    | cons x raws =>
      have hTail {y : List Char} (hy : (name, y) ∈ names.zip raws) : 0 < names.count name :=
        List.count_pos_iff.mpr (List.of_mem_zip hy).1
      rw [List.zip_cons_cons, List.mem_cons, Prod.mk.injEq] at hRaw hOther
      rcases hRaw with ⟨rfl, hRaw⟩ | hRaw
      · rcases hOther with ⟨-, hOther⟩ | hOther
        · exact absurd (hRaw.trans hOther.symm) hNe
        · rw [List.count_cons_self]
          exact Nat.succ_le_succ (hTail hOther)
      · rcases hOther with ⟨rfl, -⟩ | hOther
        · rw [List.count_cons_self]
          exact Nat.succ_le_succ (hTail hRaw)
        · exact Nat.le_trans (ih hRaw hOther) List.count_le_count_cons

/-- A name is among the values where one of its texts can be decoded, and among the failures where one
cannot. For both it has to come twice. -/
theorem keys_of_find (h : Yields (t.find uri method) (some found) log) :
    let names := found.route.template.names
    let decodes (raw : List Char) : Bool :=
      (PercentEncoding.decode found.route.encoding true true raw).isOk
    ∃ raws, found.route.template.captures (requestPath uri) = .ok (raws.map some) ∧
      raws.length = names.length ∧
      (∀ name, name ∈ found.binding.params.keys ↔
        ∃ raw, (name, raw) ∈ names.zip raws ∧ decodes raw = true) ∧
      (∀ name, name ∈ found.binding.failures.keys ↔
        ∃ raw, (name, raw) ∈ names.zip raws ∧ decodes raw = false) ∧
      ∀ name, name ∈ found.binding.params.keys → name ∈ found.binding.failures.keys →
        2 ≤ names.count name := by
  intro names decodes
  obtain ⟨hAccepts, front, hRead⟩ := yields_read_of_find h
  obtain ⟨raws, hCaptures, hLength, hBinding⟩ := Route.exists_of_yields_read hAccepts hRead
  have hParams (name : String) : name ∈ found.binding.params.keys ↔
      ∃ raw, (name, raw) ∈ names.zip raws ∧ decodes raw = true := by
    rw [hBinding]
    exact Binding.mem_keys_params_extend
  have hFailures (name : String) : name ∈ found.binding.failures.keys ↔
      ∃ raw, (name, raw) ∈ names.zip raws ∧ decodes raw = false := by
    rw [hBinding]
    exact Binding.mem_keys_failures_extend
  refine ⟨raws, hCaptures, hLength, hParams, hFailures, fun name hBound hFailed => ?_⟩
  obtain ⟨raw, hRaw, hOk⟩ := (hParams name).mp hBound
  obtain ⟨other, hOther, hNot⟩ := (hFailures name).mp hFailed
  refine two_le_count_of_mem_zip hRaw hOther ?_
  rintro rfl
  cases hOk.symm.trans hNot

/-- A name whose first text can be decoded and whose second one cannot, and a name that comes once. -/
theorem keys_of_find_of_three : ∃ (r : Route) (found : Found Nat) (log : List Record),
    Yields (({ routes := [(0, r)] } : Router Nat).find "/a/%zz/b?x".toList "get") (some found) log ∧
    "x" ∈ found.binding.params.keys ∧ "x" ∈ found.binding.failures.keys ∧
    "y" ∈ found.binding.params.keys ∧ "y" ∉ found.binding.failures.keys := by
  let b : Builder := { template := .str "/{x}/{x}/{y}", handler? := some { name := "h" } }
  let raws := [['a'], "%zz".toList, ['b']]
  obtain ⟨r, -, hTest⟩ := exists_ok_of_any (x := (b.build {}).run.value)
    (p := fun r => (({ routes := [(0, r)] } : Router Nat).find "/a/%zz/b?x".toList "get").run.value.toOption.any
      (Option.any fun found => found.route.encoding = "utf-8" ∧
        found.route.template.names = ["x", "x", "y"] ∧
        found.route.template.captures "/a/%zz/b".toList = .ok (raws.map some))) (by decide +kernel)
  obtain ⟨found?, hFind, hTest⟩ := exists_ok_of_any hTest
  obtain ⟨found, rfl, hTest⟩ := (Option.any_eq_true _ _).mp hTest
  obtain ⟨hEncoding, hNames, hCaptures⟩ := of_decide_eq_true hTest
  have hYields : Yields (({ routes := [(0, r)] } : Router Nat).find "/a/%zz/b?x".toList "get") (some found) _ :=
    congrArg (Logged.mk · _) hFind
  obtain ⟨raws', hCaptures', -, hParams, hFailures, hTwice⟩ := keys_of_find hYields
  have hPath : requestPath "/a/%zz/b?x".toList = "/a/%zz/b".toList := by decide +kernel
  rw [hPath, hCaptures] at hCaptures'
  obtain rfl : raws = raws' := (List.map_injective_iff.mpr (Option.some_injective _)) (Except.ok.inj hCaptures')
  simp only [hNames, hEncoding] at hParams hFailures hTwice
  have hBound : "y" ∈ found.binding.params.keys := (hParams "y").mpr ⟨['b'], by decide, by decide +kernel⟩
  refine ⟨r, found, _, hYields, (hParams "x").mpr ⟨['a'], by decide, by decide +kernel⟩,
    (hFailures "x").mpr ⟨"%zz".toList, by decide, by decide +kernel⟩, hBound, fun hFailed => ?_⟩
  have hCount := hTwice "y" hBound hFailed
  revert hCount
  decide

/-- What one field of a name gives is kept though another one of that name fails. -/
theorem find_of_half_decoded :
    let b : Builder := { template := .str "/{x}/{x}", handler? := some { name := "h" } }
    ∃ r found, (b.build {}).run.value = .ok r ∧
      (({ routes := [(0, r)] } : Router Nat).find "/a/%zz".toList "GET").run.value = .ok (some found) ∧
      found.binding.params = [("x", "a")] ∧ found.binding.failures = [("x", .malformed "zz")] := by
  intro b
  obtain ⟨r, hBuild, hTest⟩ := exists_ok_of_any (x := (b.build {}).run.value)
    (p := fun r => (({ routes := [(0, r)] } : Router Nat).find "/a/%zz".toList "GET").run.value.toOption.any
      (Option.any fun found => found.binding.params = [("x", "a")] ∧
        found.binding.failures = [("x", .malformed "zz")])) (by decide +kernel)
  obtain ⟨found?, hFind, hTest⟩ := exists_ok_of_any hTest
  obtain ⟨found, rfl, hTest⟩ := (Option.any_eq_true _ _).mp hTest
  exact ⟨r, found, hBuild, hFind, of_decide_eq_true hTest⟩

end Router

end UriRouting
