import UriRouting.Proofs.Pattern.Refusals
import UriRouting.Proofs.Template.Layout

/-! # Fields whose pattern is refused

A template is refused for what is wrong with a field pattern in itself. A pattern that is not complete, or
that closes what it has not opened, is put among the patterns of the template before it is read, and
what is missing may be found there. -/

set_option autoImplicit false

namespace UriRouting.Template

open Pattern (Draft Steps)

/-- The pattern is refused alone, for a reason that what stands around it may take away. -/
def ReachesOut (pattern : String) : Prop :=
  ∃ e, Pattern.compile pattern.toList = .error e ∧
    (.dangling ∈ Pattern.tokenize pattern.toList ∨ e.cause.reachesOut = true)

theorem Laid.not_steps_of_compile_eq_error {parts : List Part} {d last : Draft} (h : Laid parts d)
    {f : Field} {e : Pattern.Error} (hCompile : Pattern.compile f.pattern.toList = .error e)
    (hOwn : ¬ ReachesOut f.pattern) (place : Nat) (rest : List Char) :
    ¬ Steps d (Pattern.tokenize (fieldPattern place f ++ rest)) last [] := by
  intro hRun
  have hNo : .dangling ∉ Pattern.tokenize f.pattern.toList :=
    fun hMem => hOwn ⟨e, hCompile, .inl hMem⟩
  have hCause : e.cause.reachesOut = false :=
    Bool.eq_false_iff.mpr fun hOut => hOwn ⟨e, hCompile, .inr hOut⟩
  rw [tokenize_fieldPattern place hNo] at hRun
  obtain ⟨mid, start, hHead, -, hSet, hOuter, hFrame, -⟩ := h.opens place hRun
  refine Pattern.not_steps_of_compile_eq_error hCompile hCause hSet ?_ hFrame ⟨_, rfl⟩
    (hHead.onward hRun)
  rw [hOuter]
  exact List.cons_ne_nil _ _

/-- The first field that cannot be read alone reaches out. -/
theorem readable_of_steps {tokens : List Token} (place : Nat) {parts : List Part} {d last : Draft}
    (h : Laid parts d) (hRun : Steps d (Pattern.tokenize (patternOfTokens place tokens)) last []) :
    (∀ f ∈ tokens.filterMap Token.field?, (Pattern.compile f.pattern.toList).isOk = true) ∨
    ∃ before f after, tokens.filterMap Token.field? = before ++ f :: after ∧
      (∀ g ∈ before, (Pattern.compile g.pattern.toList).isOk = true) ∧ ReachesOut f.pattern := by
  induction tokens generalizing place parts d with
  | nil => exact .inl (List.forall_mem_nil _)
  | cons token rest ih =>
    rw [patternOfTokens.eq_def] at hRun
    cases token with
    | literal text =>
      obtain ⟨e, hSteps, hLaid, -⟩ :=
        h.literal text.toList (ungreedy_patternOfTokens place rest) hRun
      exact ih place hLaid (hSteps.onward hRun)
    | field f =>
      cases hCompile : Pattern.compile f.pattern.toList with
      | error e =>
        right
        refine ⟨[], f, _, rfl, List.forall_mem_nil _, ?_⟩
        by_contra hOwn
        exact h.not_steps_of_compile_eq_error hCompile hOwn place _ hRun
      | ok c =>
        have hOk : (Pattern.compile f.pattern.toList).isOk = true := by
          rw [hCompile]
          rfl
        obtain ⟨e, index, body, hSteps, hLaid, -⟩ := h.field (.of_compile hCompile) place hRun
        rcases ih (place + 1) hLaid (hSteps.onward hRun) with
          hRest | ⟨before, g, after, hSplit, hBefore, hOut⟩
        · exact .inl (List.forall_mem_cons.mpr ⟨hOk, hRest⟩)
        · exact .inr ⟨f :: before, g, after, congrArg (f :: ·) hSplit,
            List.forall_mem_cons.mpr ⟨hOk, hBefore⟩, hOut⟩

/-- A template is compiled only if every field pattern can be read alone, or the first that cannot reaches
out of its group. -/
theorem readable_or_reachesOut {p : PatternSource} {source : String} {t : Template}
    (h : compile p source = .ok t) :
    (∀ f ∈ t.fields, (Pattern.compile f.pattern.toList).isOk = true) ∨
    ∃ before f after, t.fields = before ++ f :: after ∧
      (∀ g ∈ before, (Pattern.compile g.pattern.toList).isOk = true) ∧ ReachesOut f.pattern := by
  obtain ⟨-, -, hPattern, hMatcher⟩ := compile_eq_ok h
  rw [hPattern] at hMatcher
  obtain ⟨-, last, hRun, -⟩ := Pattern.compile_eq_ok_iff.mp hMatcher
  exact readable_of_steps 0 .start hRun

/-- A set that is open at the end of its field and is closed by the next one. -/
theorem readable_or_reachesOut_of_set :
    ∃ t, compile { explicit := [("x", "[a"), ("y", "b]")] } "/{x}/{y}" = .ok t ∧ ReachesOut "[a" := by
  let x : Field := ⟨"{x}", "x", "[a", false⟩
  let y : Field := ⟨"{y}", "y", "b]", false⟩
  obtain ⟨t, h, hTest⟩ := exists_ok_of_any
    (x := compile { explicit := [("x", "[a"), ("y", "b]")] } "/{x}/{y}")
    (p := fun t => t.fields = [x, y]) (by decide +kernel)
  have hFields : t.fields = [x, y] := of_decide_eq_true hTest
  have hRefused : (Pattern.compile x.pattern.toList).isOk = false := by decide +kernel
  refine ⟨t, h, ?_⟩
  rcases readable_or_reachesOut h with hReadable | ⟨before, f, after, hSplit, hBefore, hOut⟩
  · cases hRefused.symm.trans (hReadable x (hFields ▸ List.mem_cons_self))
  · rw [hFields] at hSplit
    cases before with
    | nil =>
      obtain ⟨rfl, -⟩ := List.cons.inj hSplit
      exact hOut
    | cons g before =>
      obtain ⟨rfl, -⟩ := List.cons.inj hSplit
      cases hRefused.symm.trans (hBefore x List.mem_cons_self)

/-- A pattern that breaks out of its group. What it opens and what it closes balance in the whole. -/
theorem compile_of_unbalanced :
    (Pattern.compile "a)(b".toList).isOk = false ∧
    ∃ t, compile { explicit := [("x", "a)(b")] } "/{x}" = .ok t ∧ t.accepts "/ab".toList = true ∧
      t.captures "/ab".toList = .ok [some ['a']] := by
  refine ⟨by decide +kernel, ?_⟩
  obtain ⟨t, h, hTest⟩ := exists_ok_of_any (x := compile { explicit := [("x", "a)(b")] } "/{x}")
    (p := fun t => t.accepts "/ab".toList ∧ t.captures "/ab".toList = .ok [some ['a']]) (by decide +kernel)
  exact ⟨t, h, of_decide_eq_true hTest⟩

end UriRouting.Template
