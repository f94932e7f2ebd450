import Mathlib.Data.List.Infix
import Mathlib.Data.List.TakeWhile
import UriRouting.Proofs.Router.SessionId
import UriRouting.Proofs.Unicode.Case
import UriRouting.Router.Basic

/-! # The path within a request

A session id begins where its marker stands first, in any case, and reaches to the end. The marker holds
a semicolon at its front alone, so that none begins in one text and ends in a marker put behind that text.
What is put behind a path as a query or as a session id is therefore what is taken off, all of it and
nothing else, and a search for the whole ends as the search for the path alone. -/

set_option autoImplicit false

namespace UriRouting.Router

open Pattern (Node)
open Unicode (Alike)

/-! ## The marker -/

/-- The marker of a session id as a pattern that disregards case. -/
def markerPattern : Pattern.Compiled where
  node := .ofSequence (sessionMarker.map fun c => .code c.toNat)
  mode := { ignoreCase := true }

example : Pattern.compile "(?i);jsessionid=".toList = .ok markerPattern := by decide +kernel

def IsMarker (u : List Char) : Prop := markerPattern.fullyMatches u = true

/-- No part of the text is a marker, in whatever case. -/
def Unmarked (s : List Char) : Prop := ∀ u, u <:+: s → ¬ IsMarker u

theorem afterMarker?_eq_some_iff {marker s rest : List Char} :
    afterMarker? marker s = some rest ↔ ∃ u, Alike marker u ∧ s = u ++ rest := by
  induction marker generalizing s with
  | nil => simp [afterMarker?, Alike]
  | cons c marker ih =>
    cases s with
    | nil => simp [afterMarker?, Alike, List.forall₂_cons_left_iff]
    | cons d s =>
      rw [afterMarker?]
      constructor
      · intro h
        split at h
        · rename_i hSame
          obtain ⟨u, hu, rfl⟩ := ih.mp h
          exact ⟨d :: u, .cons hSame hu, rfl⟩
        · cases h
      · rintro ⟨u, hu, hSplit⟩
        cases hu with
        | cons hSame hu =>
          obtain ⟨rfl, rfl⟩ := List.cons.inj hSplit
          rw [if_pos hSame]
          exact ih.mpr ⟨_, hu, rfl⟩

theorem isMarker_iff {u : List Char} : IsMarker u ↔ Alike sessionMarker u := by
  have hAfter : IsMarker u ↔ afterMarker? sessionMarker u = some [] := by
    rw [IsMarker, Pattern.Compiled.fullyMatches, Pattern.Compiled.fullMatch?, Node.run_eq_findSome?,
      markerPattern, ends_marker]
    cases afterMarker? sessionMarker u with
    | none => simp
    | some rest => cases rest <;> simp
  rw [hAfter, afterMarker?_eq_some_iff]
  simp

section Requests

variable {p m s u rest : List Char}

theorem IsMarker.of_map_lowerCode
    (h : sessionMarker.map (fun c => Unicode.lowerCode c.toNat) = m.map fun c => Unicode.lowerCode c.toNat) :
    IsMarker m := isMarker_iff.mpr (.of_map_lowerCode h)

/-- A marker holds one semicolon, in front. -/
theorem IsMarker.exists_cons (h : IsMarker u) : ∃ v, u = ';' :: v ∧ ';' ∉ v := by
  have hMarker : sessionMarker = ';' :: "jsessionid=".toList := by decide
  rw [isMarker_iff, hMarker] at h
  obtain ⟨d, v, hHead, hTail, rfl⟩ := List.forall₂_cons_left_iff.mp h
  have hCode : d.toNat = ';'.toNat := by
    by_contra hNe
    cases hHead.symm.trans (Unicode.equalUpToCase_semicolon hNe)
  have hOthers : ("jsessionid=".toList.all fun c => !Unicode.equalUpToCase c.toNat ';'.toNat) = true := by
    decide +kernel
  refine ⟨v, by rw [Char.toNat_inj.mp hCode], Alike.not_mem hTail fun c hc => ?_⟩
  simpa using List.all_eq_true.mp hOthers c hc

theorem IsMarker.question_not_mem (h : IsMarker u) : '?' ∉ u := by
  have hNone : (sessionMarker.all fun c => !Unicode.equalUpToCase c.toNat '?'.toNat) = true := by
    decide +kernel
  refine Alike.not_mem (isMarker_iff.mp h) fun c hc => ?_
  simpa using List.all_eq_true.mp hNone c hc

theorem unmarked_iff : Unmarked s ↔ (s.tails.all fun t => (afterMarker? sessionMarker t).isNone) = true := by
  rw [List.all_eq_true]
  constructor
  · intro h t ht
    rw [Option.isNone_iff_eq_none, Option.eq_none_iff_forall_ne_some]
    intro rest hAfter
    obtain ⟨u, hu, rfl⟩ := afterMarker?_eq_some_iff.mp hAfter
    have hInfix := (List.prefix_append u rest).isInfix.trans ((List.mem_tails _ _).mp ht).isInfix
    exact h u hInfix (isMarker_iff.mpr hu)
  · intro h u hInfix hMarker
    obtain ⟨t, ⟨rest, rfl⟩, ht⟩ := List.infix_iff_prefix_suffix.mp hInfix
    have hNone := h _ ((List.mem_tails _ _).mpr ht)
    rw [afterMarker?_eq_some_iff.mpr ⟨u, isMarker_iff.mp hMarker, rfl⟩] at hNone
    cases hNone

theorem unmarked_of_not_mem (h : ';' ∉ s) : Unmarked s := by
  intro u hInfix hMarker
  obtain ⟨v, rfl, -⟩ := hMarker.exists_cons
  exact h (hInfix.subset List.mem_cons_self)

instance : DecidablePred Unmarked := fun _ => decidable_of_iff _ unmarked_iff.symm

/-! ## Session ids -/

/-- No marker begins in a text without one and ends behind a semicolon that follows the text. -/
theorem Unmarked.afterMarker?_eq_none (h : Unmarked p) (hp : p ≠ []) (hRest : ∀ c ∈ rest.head?, c = ';') :
    afterMarker? sessionMarker (p ++ rest) = none := by
  refine Option.eq_none_iff_forall_ne_some.mpr fun left hAfter => ?_
  obtain ⟨u, hu, hSplit⟩ := afterMarker?_eq_some_iff.mp hAfter
  have hMarker : IsMarker u := isMarker_iff.mpr hu
  rcases List.append_eq_append_iff.mp hSplit with ⟨v, rfl, hv⟩ | ⟨v, rfl, -⟩
  · cases v with
    | nil => exact h p (List.infix_refl p) (List.append_nil p ▸ hMarker)
    | cons c v =>
      -- The marker would go on behind `p` with the semicolon, which it holds at its front alone.
      obtain rfl : c = ';' := hRest c (by rw [hv]; rfl)
      obtain ⟨w, hw, hOnce⟩ := hMarker.exists_cons
      obtain ⟨d, p, rfl⟩ := List.exists_cons_of_ne_nil hp
      obtain ⟨-, rfl⟩ := List.cons.inj hw
      exact hOnce (List.mem_append_right p List.mem_cons_self)
  · exact h u (List.prefix_append u v).isInfix hMarker

theorem scanSession_append (h : Unmarked p) (hRest : ∀ c ∈ rest.head?, c = ';') :
    scanSession (p ++ rest) = p ++ scanSession rest := by
  induction p with
  | nil => rfl
  | cons c p ih =>
    have hAfter := h.afterMarker?_eq_none (List.cons_ne_nil c p) hRest
    have hTail : Unmarked p := fun u hu => h u (hu.trans (List.suffix_cons c p).isInfix)
    rw [List.cons_append] at hAfter ⊢
    rw [scanSession, hAfter, Option.bind_none, ih hTail]
    rfl

theorem Unmarked.scanSession_eq_self (h : Unmarked p) : scanSession p = p := by
  have hNil : scanSession (p ++ []) = p ++ scanSession [] := scanSession_append h fun c hc => by cases hc
  rwa [scanSession, List.append_nil] at hNil

theorem scanSession_session (hm : IsMarker m) (hLine : '\n' ∉ s) : scanSession (m ++ s) = [] := by
  have hAfter : afterMarker? sessionMarker (m ++ s) = some s :=
    afterMarker?_eq_some_iff.mpr ⟨m, isMarker_iff.mp hm, rfl⟩
  have hEnd : sessionEnd? s = some [] := by
    have hWhole : s.dropWhile (· ≠ '\n') = [] :=
      List.dropWhile_eq_nil_iff.mpr fun c hc => decide_eq_true fun hEq => hLine (hEq ▸ hc)
    rw [sessionEnd?, hWhole]
  obtain ⟨v, rfl, -⟩ := hm.exists_cons
  rw [List.cons_append] at hAfter ⊢
  rw [scanSession, hAfter, Option.bind_some, hEnd]

theorem scanSession_path_session (h : Unmarked p) (hm : IsMarker m) (hLine : '\n' ∉ s) :
    scanSession (p ++ m ++ s) = p := by
  have hHead : ∀ c ∈ (m ++ s).head?, c = ';' := by
    obtain ⟨v, rfl, -⟩ := hm.exists_cons
    rintro c ⟨⟩
    rfl
  rw [List.append_assoc, scanSession_append h hHead, scanSession_session hm hLine, List.append_nil]

/-! ## Queries -/

theorem requestPath_eq_scanSession (hQuery : '?' ∉ p) : requestPath p = scanSession p := by
  have hWhole : p.takeWhile (· ≠ '?') = p :=
    List.takeWhile_eq_self_iff.mpr fun c hc => decide_eq_true fun hEq => hQuery (hEq ▸ hc)
  rw [requestPath, hWhole, dropSession_eq_scanSession]

theorem requestPath_query (hQuery : '?' ∉ p) (q : List Char) : requestPath (p ++ '?' :: q) = requestPath p := by
  have hTake : (p ++ '?' :: q).takeWhile (· ≠ '?') = p := by
    have hAll : ∀ c ∈ p, decide (c ≠ '?') = true := fun c hc => decide_eq_true fun hEq => hQuery (hEq ▸ hc)
    rw [List.takeWhile_append_of_pos hAll, List.takeWhile_cons_of_neg (by decide), List.append_nil]
  rw [requestPath_eq_scanSession hQuery, requestPath, hTake, dropSession_eq_scanSession]

theorem Unmarked.requestPath_eq_self (h : Unmarked p) (hQuery : '?' ∉ p) : requestPath p = p := by
  rw [requestPath_eq_scanSession hQuery, h.scanSession_eq_self]

theorem requestPath_session (hQuery : '?' ∉ p ++ m ++ s) (h : Unmarked p) (hm : IsMarker m) (hLine : '\n' ∉ s) :
    requestPath (p ++ m ++ s) = p := by
  rw [requestPath_eq_scanSession hQuery, scanSession_path_session h hm hLine]

/-- A request that holds no question mark and no semicolon is all path. -/
theorem requestPath_eq_self (hQuery : '?' ∉ p) (hSession : ';' ∉ p) : requestPath p = p :=
  (unmarked_of_not_mem hSession).requestPath_eq_self hQuery

end Requests

/-! ## Searches -/

variable {ι : Type} {p m s : List Char}

theorem find_eq_of_requestPath_eq (t : Router ι) (method : String) {uri uri' : List Char}
    (h : requestPath uri = requestPath uri') : t.find uri method = t.find uri' method := by
  rw [find, find, h]

/-- A session id and a query behind a path leave a search as it is: it finds the same route with the same
values and failures, or nothing, or ends with the same error, and reports the same records. -/
theorem find_append_ignored (t : Router ι) (method : String) (hQuery : '?' ∉ p) (hUnmarked : Unmarked p)
    (hm : IsMarker m) (hs : '?' ∉ s) (hLine : '\n' ∉ s) (q : List Char) :
    requestPath p = p ∧
    (t.find (p ++ m ++ s) method).run = (t.find p method).run ∧
    (t.find (p ++ '?' :: q) method).run = (t.find p method).run ∧
    (t.find (p ++ m ++ s ++ '?' :: q) method).run = (t.find p method).run := by
  have hPath : requestPath p = p := hUnmarked.requestPath_eq_self hQuery
  have hWhole : '?' ∉ p ++ m ++ s := by simp [hQuery, hm.question_not_mem, hs]
  have hSession : requestPath (p ++ m ++ s) = requestPath p :=
    (requestPath_session hWhole hUnmarked hm hLine).trans hPath.symm
  refine ⟨hPath, ?_, ?_, ?_⟩
  · rw [find_eq_of_requestPath_eq t method hSession]
  · rw [find_eq_of_requestPath_eq t method (requestPath_query hQuery q)]
  · rw [find_eq_of_requestPath_eq t method ((requestPath_query hWhole q).trans hSession)]

/-- A path that ends within a marker, a session id that repeats it, and a query that holds all of it. -/
theorem find_append_ignored_of_overlap :
    let p := "/a/b;jsession".toList
    let m := ";JSessİonID=".toList
    let s := "1;jsessionid=2".toList
    let q := "x?/;jsessionid=3".toList
    ∃ (r : Route) (found : Found Nat), found.binding.params = [("x", "b;jsession")] ∧
      let t : Router Nat := { routes := [(0, r)] }
      (t.find (p ++ m ++ s) "get").run.value = .ok (some found) ∧
      (t.find (p ++ '?' :: q) "get").run.value = .ok (some found) ∧
      (t.find (p ++ m ++ s ++ '?' :: q) "get").run.value = .ok (some found) := by
  intro p m s q
  let b : Builder := { template := .str "/a/{x}", handler? := some { name := "h" } }
  obtain ⟨r, -, hTest⟩ := exists_ok_of_any (x := (b.build {}).run.value)
    (p := fun r => (({ routes := [(0, r)] } : Router Nat).find p "get").run.value.toOption.any
      (Option.any fun found => found.binding.params = [("x", "b;jsession")])) (by decide +kernel)
  obtain ⟨found?, hFind, hTest⟩ := exists_ok_of_any hTest
  obtain ⟨found, rfl, hParams⟩ := (Option.any_eq_true _ _).mp hTest
  have hMarker : IsMarker m := .of_map_lowerCode (by decide +kernel)
  obtain ⟨-, hSession, hQuery, hBoth⟩ := find_append_ignored ({ routes := [(0, r)] } : Router Nat) "get"
    (p := p) (by decide) (by decide +kernel) hMarker (s := s) (by decide) (by decide) q
  refine ⟨r, found, of_decide_eq_true hParams, ?_, ?_, ?_⟩
  · rw [hSession, hFind]
  · rw [hQuery, hFind]
  · rw [hBoth, hFind]

end UriRouting.Router
