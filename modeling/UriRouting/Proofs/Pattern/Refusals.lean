import UriRouting.Proofs.Pattern.Nesting

/-! # Patterns that are refused inside a group

A pattern that is refused alone is refused inside a group as well, unless what is wrong with it has to do
with what stands around it. -/

set_option autoImplicit false

namespace UriRouting.Pattern

/-- What is wrong with a complete draft is that something is open, or a lookbehind, or a group that a
condition names. -/
theorem Draft.reachesOut_of_finish {d : Draft} {e : Fault} (h : d.finish = .error e) :
    e.cause.reachesOut = true ∨ d.outer = [] ∧ d.fault? = some e.cause := by
  rw [finish] at h
  split at h
  · cases h
    exact .inl rfl
  · cases h
    exact .inl rfl
  · rename_i hOuter
    split at h
    · cases h
      exact .inl rfl
    · split at h
      · rename_i hFault
        cases h
        exact .inr ⟨hOuter, hFault⟩
      · cases h

theorem compile_eq_error {pattern : List Char} {e : Error} (h : compile pattern = .error e) :
    ∃ fault, readTokens (tokenize pattern) = .error fault ∧ fault.cause = e.cause := by
  unfold compile at h
  split at h
  · cases h
  · rename_i fault hRead
    cases h
    exact ⟨fault, hRead, rfl⟩

/-- A group that has a pattern like this in it cannot be read. -/
theorem not_steps_of_compile_eq_error {pattern : List Char} {e : Error} (h : compile pattern = .error e)
    (hOwn : e.cause.reachesOut = false) {D last : Draft} {index start : Nat}
    {tail : List Token} (hSet : D.set? = none) (hOuter : D.outer ≠ [])
    (hFrame : D.frame = { opener := .capture index, start, verbose := false }) (hTail : Closing tail) :
    ¬ Steps D (tokenize pattern ++ tail) last [] := by
  intro hRun
  obtain ⟨fault, hRead, hCause⟩ := compile_eq_error h
  rw [← hCause] at hOwn
  have hNested : Nested index D.outer .start D := .start hSet hOuter hFrame
  rcases bind_eq_error_iff.mp hRead with hRead | ⟨⟨⟩, -, hRead⟩
  · rw [reachesOut_of_noDangling hRead] at hOwn
    cases hOwn
  rcases bind_eq_error_iff.mp hRead with hRead | ⟨d, hRead, hFinish⟩
  · -- Reading alone stops at a step, and reading inside the group stops at the same one.
    obtain ⟨mid, t, rest, hSteps, hFails⟩ := exists_step_of_readSteps (Nat.le_refl _) hRead
    obtain ⟨Mid, hSteps', hNested', -⟩ :=
      Nested.steps hSteps (fun hNil => by cases hNil) hNested hTail hRun
    cases hSteps'.onward hRun with
    | step hStep _ =>
      obtain ⟨e', he'⟩ := readStep_refuses hNested'.inStep fault hFails hOwn tail hTail
      cases he'.symm.trans hStep
  · rcases d.reachesOut_of_finish hFinish with hOut | ⟨hClosed, hFault⟩
    · rw [hOut] at hOwn
      cases hOwn
    · have hSteps := (readSteps_eq_ok_iff (Nat.le_refl _)).mp hRead
      obtain ⟨D', -, hNested', -⟩ := Nested.steps hSteps (fun _ => hClosed) hNested hTail hRun
      have hMem : fault.cause ∈ d.faults := by simp [Draft.faults, hFault]
      rcases hNested'.faults _ hMem with hLookbehind | hLookbehind
      · rw [hLookbehind] at hOwn
        cases hOwn
      · rw [hLookbehind] at hOwn
        cases hOwn

end UriRouting.Pattern
