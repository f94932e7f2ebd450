import UriRouting.Proofs.Pattern.Lockstep

/-! # Reading as a sequence of steps

`Steps` is reading without fuel. Every step takes a token, so the fuel of `readSteps` never runs out,
and a pattern is accepted exactly when steps lead from the empty draft to the end of its tokens, where
the draft can be finished. -/

set_option autoImplicit false

namespace UriRouting.Pattern

inductive Steps : Draft → List Token → Draft → List Token → Prop where
  | refl (d : Draft) (ts : List Token) : Steps d ts d ts
  | step {d mid e : Draft} {t : Token} {ts rest left : List Token}
      (h : readStep d (t :: ts) = .ok (mid, rest)) (hSteps : Steps mid rest e left) :
      Steps d (t :: ts) e left

theorem readStep_leads {d next : Draft} {t : Token} {ts left : List Token}
    (h : readStep d (t :: ts) = .ok (next, left)) : noDangling ts = .ok () ∧ Leads ts left := by
  have hStep : InStep d { d with outer := d.frame :: d.outer } := 
    ⟨rfl, rfl, List.Subset.refl _, List.cons_ne_nil _ _⟩
  obtain ⟨hNo, hLeads, -⟩ := readStep_mirrors hStep h
  exact ⟨hNo, hLeads⟩

namespace Steps

variable {d e f last : Draft} {ts us vs left : List Token}

theorem single {t : Token} (h : readStep d (t :: ts) = .ok (e, us)) : Steps d (t :: ts) e us :=
  .step h (.refl e us)

theorem trans (h : Steps d ts e us) (h' : Steps e us f vs) : Steps d ts f vs := by
  induction h with
  | refl => exact h'
  | step hStep _ ih => exact .step hStep (ih h')

/-- Reading is deterministic, so that every way to the end leads through each draft on the way. -/
theorem onward (h : Steps d ts e us) (hEnd : Steps d ts last []) : Steps e us last [] := by
  induction h with
  | refl => exact hEnd
  | step hStep _ ih =>
    cases hEnd with
    | step hStep' hEnd =>
      rw [hStep] at hStep'
      cases hStep'
      exact ih hEnd

/-- Where there is an end, a step that is right if it succeeds does succeed. -/
theorem inv {t : Token} (hEnd : Steps d (t :: ts) last [])
    (h : ∀ f vs, readStep d (t :: ts) = .ok (f, vs) → f = e ∧ vs = us) :
    Steps d (t :: ts) e us := by
  cases hEnd with
  | step hStep hEnd =>
    obtain ⟨rfl, rfl⟩ := h _ _ hStep
    exact .single hStep

theorem eq_of_nil (h : Steps d [] e us) : e = d ∧ us = [] := by
  cases h
  exact ⟨rfl, rfl⟩

theorem dangling_notMem (h : Steps d ts last []) (hNo : noDangling ts = .ok ()) :
    .dangling ∉ ts := by
  generalize hNil : ([] : List Token) = left at h
  induction h with
  | refl d ts => simp [← hNil]
  | @step d mid e t ts rest left hStep _ ih =>
    obtain ⟨hNo', hLeads⟩ := readStep_leads hStep
    obtain ⟨hNoRest, used, rfl, hUsed⟩ := hLeads hNo'
    have hHead : .dangling ≠ t := by
      rw [noDangling_eq_ok_iff, List.head?_cons] at hNo
      exact fun hEq => hNo (congrArg some hEq.symm)
    simp [hHead, hUsed, ih hNoRest hNil]

end Steps

theorem length_le_of_readStep {n : Nat} {d mid : Draft} {t : Token} {ts rest : List Token}
    (h : readStep d (t :: ts) = .ok (mid, rest)) (hFuel : (t :: ts).length ≤ n + 1) :
    rest.length ≤ n := by
  obtain ⟨hNo, hLeads⟩ := readStep_leads h
  exact Nat.le_trans (hLeads.length_le hNo) (Nat.le_of_succ_le_succ hFuel)

theorem readSteps_eq_ok_iff {n : Nat} {d last : Draft} {ts : List Token} (hFuel : ts.length ≤ n) :
    readSteps n d ts = .ok last ↔ Steps d ts last [] := by
  induction n generalizing d ts with
  | zero =>
    obtain rfl := List.length_eq_zero_iff.mp (Nat.le_zero.mp hFuel)
    constructor
    · intro h
      cases h
      exact .refl last []
    · intro h
      rw [h.eq_of_nil.1]
      rfl
  | succ n ih =>
    cases ts with
    | nil =>
      constructor
      · intro h
        cases h
        exact .refl last []
      · intro h
        rw [h.eq_of_nil.1]
        rfl
    | cons t ts =>
      have hSucc : readSteps (n + 1) d (t :: ts) =
          readStep d (t :: ts) >>= fun next => readSteps n next.1 next.2 := rfl
      rw [hSucc, bind_eq_ok_iff]
      constructor
      · rintro ⟨⟨mid, rest⟩, hStep, h⟩
        exact .step hStep ((ih (length_le_of_readStep hStep hFuel)).mp h)
      · rintro (_ | ⟨hStep, h⟩)
        exact ⟨_, hStep, (ih (length_le_of_readStep hStep hFuel)).mpr h⟩

/-- Where reading fails, steps lead to the one that fails. -/
theorem exists_step_of_readSteps {n : Nat} {d : Draft} {ts : List Token} {e : Fault}
    (hFuel : ts.length ≤ n) (h : readSteps n d ts = .error e) :
    ∃ mid t rest, Steps d ts mid (t :: rest) ∧ readStep mid (t :: rest) = .error e := by
  induction n generalizing d ts with
  | zero =>
    obtain rfl := List.length_eq_zero_iff.mp (Nat.le_zero.mp hFuel)
    cases h
  | succ n ih =>
    cases ts with
    | nil => cases h
    | cons t ts =>
      rcases bind_eq_error_iff.mp h with h | ⟨⟨mid, rest⟩, hStep, h⟩
      · exact ⟨d, t, ts, .refl d _, h⟩
      · obtain ⟨f, t', rest', hSteps, hFails⟩ := ih (length_le_of_readStep hStep hFuel) h
        exact ⟨f, t', rest', .step hStep hSteps, hFails⟩

theorem readTokens_eq_ok_iff {ts : List Token} {p : Compiled} :
    readTokens ts = .ok p ↔
      noDangling ts = .ok () ∧ ∃ last, Steps .start ts last [] ∧ last.finish = .ok p := by
  simp only [readTokens, bind_eq_ok_iff, readSteps_eq_ok_iff (Nat.le_refl _)]
  constructor
  · rintro ⟨⟨⟩, hNo, last, hSteps, hFinish⟩
    exact ⟨hNo, last, hSteps, hFinish⟩
  · rintro ⟨hNo, last, hSteps, hFinish⟩
    exact ⟨(), hNo, last, hSteps, hFinish⟩

theorem compile_eq_ok_iff {pattern : List Char} {p : Compiled} :
    compile pattern = .ok p ↔ noDangling (tokenize pattern) = .ok () ∧
      ∃ last, Steps .start (tokenize pattern) last [] ∧ last.finish = .ok p := by
  rw [← readTokens_eq_ok_iff, compile]
  cases readTokens (tokenize pattern) <;> simp

/-- A complete pattern has closed every group and every set. -/
theorem Draft.closed_of_finish {d : Draft} {p : Compiled} (h : d.finish = .ok p) :
    d.set? = none ∧ d.outer = [] ∧ p = ⟨d.frame.body, Mode.change {} d.globalFlags [], d.names⟩ := by
  rw [Draft.finish] at h
  split at h
  · cases h
  · cases h
  · rename_i hSet hOuter
    refine ⟨hSet, hOuter, ?_⟩
    split at h
    · cases h
    · split at h
      · cases h
      · cases h
        rfl

theorem tokenize_append {a b : List Char} (h : .dangling ∉ tokenize a) :
    tokenize (a ++ b) = tokenize a ++ tokenize b := by
  fun_induction tokenize a with
  | case1 => rfl
  | case2 c rest ih =>
    rw [List.mem_cons, not_or] at h
    simp [tokenize, ih h.2]
  | case3 => simp at h
  | case4 c rest hEscape hEnd ih =>
    rw [List.mem_cons, not_or] at h
    have hc : c ≠ '\\' := by
      intro hc
      cases rest with
      | nil => exact hEnd hc rfl
      | cons d rest => exact hEscape d rest hc rfl
    rw [List.cons_append, List.cons_append, ← ih h.2]
    rw [tokenize.eq_def]
    split <;> simp_all

end UriRouting.Pattern
