import UriRouting.Proofs.Pattern.Lockstep

/-! # Reading on inside a group

What a reader takes of a pattern alone it takes in front of a closing parenthesis too. `Carries` states
this for one reader and is kept by the ways in which readers are put together; the readers that look at
tokens alone return the same then. -/

set_option autoImplicit false

namespace UriRouting.Pattern

/-- What is read, if it satisfies `Q`, is read in front of a closing parenthesis too, with a related
result. -/
def Carries {α β : Type} (Q : α → Prop) (P : α → β → Prop) (result : Read (α × List Token))
    (mirror : List Token → Read (β × List Token)) : Prop :=
  ∀ x rest, result = .ok (x, rest) → Q x →
    ∀ tail, Closing tail → ∃ y, mirror tail = .ok (y, rest ++ tail) ∧ P x y

/-- A closing parenthesis behind it changes nothing. -/
abbrev Stable {α : Type} (result : Read (α × List Token)) (mirror : List Token → Read (α × List Token)) :
    Prop := Carries (fun _ => True) Eq result mirror

namespace Carries

variable {α β γ : Type} {Q : α → Prop} {P : α → β → Prop} {ts : List Token}

theorem done {x : α} {y : List Token → β} (h : Q x → ∀ tail, P x (y tail)) :
    Carries Q P (Pure.pure (x, ts)) fun tail => Pure.pure (y tail, ts ++ tail) := by
  intro x' rest hRead hQ tail _
  cases hRead
  exact ⟨y tail, rfl, h hQ tail⟩

theorem pure {x : α} {y : β} (h : Q x → P x y) :
    Carries Q P (Pure.pure (x, ts)) fun tail => Pure.pure (y, ts ++ tail) := done fun hQ _ => h hQ

theorem fails {e : Fault} {mirror : List Token → Read (β × List Token)} :
    Carries Q P (.error e) mirror := by
  intro x rest hRead
  cases hRead

theorem of_error {result : Read (α × List Token)} {mirror : List Token → Read (β × List Token)}
    (h : ∃ e, result = .error e) : Carries Q P result mirror := by
  obtain ⟨e, rfl⟩ := h
  exact fails

theorem bind {first : Read (γ × List Token)} {first' : List Token → Read (γ × List Token)}
    {k : γ × List Token → Read (α × List Token)} {k' : List Token → γ × List Token → Read (β × List Token)}
    (hFirst : Stable first first')
    (hk : ∀ x rest, first = .ok (x, rest) →
      Carries Q P (k (x, rest)) fun tail => k' tail (x, rest ++ tail)) :
    Carries Q P (first >>= k) fun tail => first' tail >>= k' tail := by
  intro x rest hRead hQ tail hTail
  obtain ⟨⟨a, mid⟩, hx, hRead⟩ := bind_eq_ok_iff.mp hRead
  obtain ⟨_, hx', rfl⟩ := hFirst a mid hx trivial tail hTail
  obtain ⟨y, hRead', hP⟩ := hk a mid hx x rest hRead hQ tail hTail
  exact ⟨y, bind_eq_ok_iff.mpr ⟨_, hx', hRead'⟩, hP⟩

theorem guard {check : Read Unit} {check' : List Token → Read Unit} {k : Unit → Read (α × List Token)}
    {k' : List Token → Unit → Read (β × List Token)}
    (hCheck : check = .ok () → ∀ tail, Closing tail → check' tail = .ok ())
    (hk : check = .ok () → Carries Q P (k ()) fun tail => k' tail ()) :
    Carries Q P (check >>= k) fun tail => check' tail >>= k' tail := by
  intro x rest hRead hQ tail hTail
  obtain ⟨⟨⟩, hOk, hRead⟩ := bind_eq_ok_iff.mp hRead
  obtain ⟨y, hRead', hP⟩ := hk hOk x rest hRead hQ tail hTail
  exact ⟨y, bind_eq_ok_iff.mpr ⟨(), hCheck hOk tail hTail, hRead'⟩, hP⟩

theorem first {x : Read γ} {x' : List Token → Read γ} {g : γ → γ} {k : γ → Read (α × List Token)}
    {k' : List Token → γ → Read (β × List Token)} (hx : ∀ a, x = .ok a → ∀ tail, x' tail = .ok (g a))
    (hk : ∀ a, Carries Q P (k a) fun tail => k' tail (g a)) :
    Carries Q P (x >>= k) fun tail => x' tail >>= k' tail := by
  intro z rest hRead hQ tail hTail
  obtain ⟨a, hOk, hRead⟩ := bind_eq_ok_iff.mp hRead
  obtain ⟨y, hRead', hP⟩ := hk a z rest hRead hQ tail hTail
  exact ⟨y, bind_eq_ok_iff.mpr ⟨_, hx a hOk tail, hRead'⟩, hP⟩

theorem next {rest : List Token} {k : Unit → Read (α × List Token)}
    {k' : List Token → Unit → Read (β × List Token)} (hk : Carries Q P (k ()) fun tail => k' tail ()) :
    Carries Q P (noDangling rest >>= k) fun tail => noDangling (rest ++ tail) >>= k' tail :=
  guard (fun hNo _ hTail => hTail.noDangling_append hNo) fun _ => hk

theorem ite {p : Prop} [Decidable p] {a b : Read (α × List Token)}
    {a' b' : List Token → Read (β × List Token)} (ha : p → Carries Q P a a')
    (hb : ¬ p → Carries Q P b b') :
    Carries Q P (if p then a else b) fun tail => if p then a' tail else b' tail := by
  by_cases hp : p
  · simpa only [hp, if_true] using ha hp
  · simpa only [hp, if_false] using hb hp

theorem take {c : Char} (hc : c ≠ ')') {k : Option (List Token) → Read (α × List Token)}
    {k' : List Token → Option (List Token) → Read (β × List Token)}
    (hNone : Carries Q P (k none) fun tail => k' tail none)
    (hSome : ∀ rest, Carries Q P (k (some rest)) fun tail => k' tail (some (rest ++ tail))) :
    Carries Q P (take? c ts >>= k) fun tail => take? c (ts ++ tail) >>= k' tail := by
  intro x rest hRead hQ tail hTail
  obtain ⟨o, hTake, hRead⟩ := bind_eq_ok_iff.mp hRead
  have hTake' := (take?_append hc hTake).2 tail hTail
  have hk : Carries Q P (k o) fun tail => k' tail (o.map (· ++ tail)) := by
    cases o with
    | none => exact hNone
    | some rest => exact hSome rest
  obtain ⟨y, hRead', hP⟩ := hk x rest hRead hQ tail hTail
  exact ⟨y, bind_eq_ok_iff.mpr ⟨_, hTake', hRead'⟩, hP⟩

theorem lift {x : Read α} {x' : List Token → Read β}
    (h : ∀ a, x = .ok a → Q a → ∀ tail, ∃ b, x' tail = .ok b ∧ P a b) :
    Carries Q P (x >>= fun a => Pure.pure (a, ts))
      fun tail => x' tail >>= fun b => Pure.pure (b, ts ++ tail) := by
  intro a rest hRead hQ tail _
  obtain ⟨a, hx, hRead⟩ := bind_eq_ok_iff.mp hRead
  cases hRead
  obtain ⟨b, hx', hP⟩ := h a hx hQ tail
  exact ⟨b, bind_eq_ok_iff.mpr ⟨b, hx', rfl⟩, hP⟩

theorem liftNext {x : Read α} {x' : List Token → Read β}
    (h : ∀ a, x = .ok a → Q a → ∀ tail, ∃ b, x' tail = .ok b ∧ P a b) :
    Carries Q P (x >>= fun a => noDangling ts >>= fun _ => Pure.pure (a, ts))
      fun tail => x' tail >>= fun b => noDangling (ts ++ tail) >>= fun _ => Pure.pure (b, ts ++ tail) := by
  intro a rest hRead hQ tail hTail
  obtain ⟨a, hx, hRead⟩ := bind_eq_ok_iff.mp hRead
  obtain ⟨⟨⟩, hNo, hRead⟩ := bind_eq_ok_iff.mp hRead
  cases hRead
  obtain ⟨b, hx', hP⟩ := h a hx hQ tail
  refine ⟨b, bind_eq_ok_iff.mpr ⟨b, hx', bind_eq_ok_iff.mpr ⟨(), ?_, rfl⟩⟩, hP⟩
  exact hTail.noDangling_append hNo

end Carries

/-! ## The readers of tokens -/

namespace Stable

open Carries

variable {ts : List Token}

theorem eq_ok {α : Type} {result : Read (α × List Token)} {mirror : List Token → Read (α × List Token)}
    (h : Stable result mirror) {x : α} {rest : List Token} (hRead : result = .ok (x, rest))
    {tail : List Token} (hTail : Closing tail) : mirror tail = .ok (x, rest ++ tail) := by
  obtain ⟨_, hRead', rfl⟩ := h x rest hRead trivial tail hTail
  exact hRead'

theorem pure {α : Type} {x : α} : Stable (Pure.pure (x, ts)) fun tail => Pure.pure (x, ts ++ tail) :=
  Carries.pure fun _ => rfl

theorem readUpTo_append {test : Char → Bool} (hTest : test ')' = false) {ts rest tail : List Token}
    {n m : Nat} {cs : List Char} (hn : n = m ∨ ts.length ≤ n ∧ n ≤ m) (hTail : Closing tail)
    (h : Pattern.readUpTo test n ts = .ok (cs, rest)) :
    Pattern.readUpTo test m (ts ++ tail) = .ok (cs, rest ++ tail) := by
  induction ts generalizing n m cs rest with
  | nil =>
    obtain ⟨more, rfl⟩ := hTail
    have hNil : Pattern.readUpTo test n [] = .ok ([], []) := by cases n <;> rfl
    cases hNil.symm.trans h
    cases m with
    | zero => rfl
    | succ m => simp [Pattern.readUpTo, hTest, Pure.pure, Except.pure]
  | cons t ts ih =>
    rw [List.length_cons] at hn
    cases n with
    | zero =>
      obtain rfl : m = 0 := by omega
      cases h
      rfl
    | succ n =>
      obtain ⟨m, rfl⟩ : ∃ k, m = k + 1 := ⟨m - 1, by omega⟩
      cases t with
      | plain c =>
        simp only [Pattern.readUpTo, List.cons_append] at h ⊢
        by_cases hc : test c = true
        · simp only [hc, if_true] at h ⊢
          obtain ⟨⟨⟩, hNo, h⟩ := bind_eq_ok_iff.mp h
          obtain ⟨⟨more, mid⟩, hMore, h⟩ := bind_eq_ok_iff.mp h
          cases h
          rw [hTail.noDangling_append hNo, ih (m := m) (by omega) hMore]
          rfl
        · simp only [hc] at h ⊢
          cases h
          rfl
      | escaped c =>
        cases h
        rfl
      | dangling =>
        cases h
        rfl

theorem readUpTo {test : Char → Bool} (hTest : test ')' = false) {n : Nat} {n' : List Token → Nat}
    (hn : ∀ tail, n = n' tail ∨ ts.length ≤ n ∧ n ≤ n' tail) :
    Stable (readUpTo test n ts) fun tail => readUpTo test (n' tail) (ts ++ tail) :=
  fun _ _ hRead _ tail hTail => ⟨_, readUpTo_append hTest (hn tail) hTail hRead, rfl⟩

theorem readDigits (ts : List Token) :
    Stable (readDigits ts) fun tail => Pattern.readDigits (ts ++ tail) :=
  readUpTo rfl fun tail => .inr ⟨Nat.le_refl _, by simp⟩

theorem readName (what : String) (terminator : Char) (name : List Char) (ts : List Token) :
    Stable (readName what terminator name ts)
      fun tail => Pattern.readName what terminator name (ts ++ tail) := by
  induction ts generalizing name with
  | nil =>
    rw [Pattern.readName]
    split <;> exact fails
  | cons t rest ih =>
    simp only [Pattern.readName, List.cons_append]
    exact next (ite (fun _ => ite (fun _ => fails) fun _ => pure) fun _ => ih _)

theorem readGroupName (terminator : Char) (ts : List Token) :
    Stable (readGroupName terminator ts) fun tail => Pattern.readGroupName terminator (ts ++ tail) :=
  bind (readName _ _ _ ts) fun _ _ _ => ite (fun _ => pure) fun _ => fails

theorem readFlagsOff (off : List Flag) (flag : Flag) (ts : List Token) :
    Stable (readFlagsOff off flag ts) fun tail => Pattern.readFlagsOff off flag (ts ++ tail) := by
  induction ts generalizing off flag with
  | nil =>
    rw [Pattern.readFlagsOff]
    split <;> exact fails
  | cons t rest ih =>
    simp only [Pattern.readFlagsOff, List.cons_append]
    by_cases hFlag : flag.isRepertoire = true
    · simp only [hFlag, if_true]
      exact fails
    · simp only [hFlag, Bool.false_eq_true, if_false]
      apply next
      cases flagOf? t with
      | some flag' => exact ih _ _
      | none => exact ite (fun _ => pure) fun _ => fails

theorem checkFlagOn_eq_ok {on : List Flag} {flag : Flag} {left : Nat}
    (h : checkFlagOn on flag left = .ok ()) (left' : Nat) : checkFlagOn on flag left' = .ok () := by
  unfold checkFlagOn at h ⊢
  split at h
  · cases h
  · split at h
    · cases h
    · rename_i hLocale hRepertoire
      rw [if_neg hLocale, if_neg hRepertoire]
      rfl

theorem readFlagsOn (on : List Flag) (flag : Flag) (ts : List Token) :
    Stable (readFlagsOn on flag ts) fun tail => Pattern.readFlagsOn on flag (ts ++ tail) := by
  induction ts generalizing on flag with
  | nil => exact of_error (exists_error_bind fun _ _ => ⟨_, rfl⟩)
  | cons t rest ih =>
    simp only [Pattern.readFlagsOn, List.cons_append]
    refine guard (fun hOn _ _ => checkFlagOn_eq_ok hOn _) fun _ => next ?_
    cases flagOf? t with
    | some flag' => exact ih _ _
    | none =>
      dsimp only
      split
      · exact pure
      · exact pure
      · exact pure
      · exact fails

theorem readHexEscape (c : Char) (width : Nat) (ts : List Token) :
    Stable (readHexEscape c width ts) fun tail => Pattern.readHexEscape c width (ts ++ tail) :=
  bind (readUpTo (by decide) fun _ => .inl rfl) fun _ _ _ =>
    ite (fun _ => fails) fun _ => ite (fun _ => pure) fun _ => fails

theorem readNamedEscape (ts : List Token) :
    Stable (readNamedEscape ts) fun tail => Pattern.readNamedEscape (ts ++ tail) :=
  take (by decide) fails fun rest => bind (readName _ _ _ rest) fun _ _ _ => fails

theorem readOctalEscape (c : Char) (ts : List Token) :
    Stable (readOctalEscape c ts) fun tail => Pattern.readOctalEscape c (ts ++ tail) :=
  bind (readUpTo (by decide) fun _ => .inl rfl) fun _ _ _ => ite (fun _ => pure) fun _ => fails

theorem readPlainEscape (c : Char) (ts : List Token) :
    Stable (readPlainEscape c ts) fun tail => Pattern.readPlainEscape c (ts ++ tail) :=
  ite (fun _ => fails) fun _ => pure

theorem readSetEscape (c : Char) (ts : List Token) :
    Stable (readSetEscape c ts) fun tail => Pattern.readSetEscape c (ts ++ tail) := by
  unfold Pattern.readSetEscape
  cases controlEscape? c with
  | some n => exact pure
  | none =>
    cases categoryEscape? c with
    | some category => exact pure
    | none =>
      cases hexDigits? c with
      | some width => exact bind (readHexEscape c width ts) fun _ _ _ => pure
      | none =>
        dsimp only
        refine ite (fun _ => bind (readNamedEscape ts) fun _ _ _ => pure) fun _ => ?_
        refine ite (fun _ => bind (readOctalEscape c ts) fun _ _ _ => pure) fun _ => ?_
        exact bind (readPlainEscape c ts) fun _ _ _ => pure

theorem readDigitEscape (c : Char) (ts : List Token) :
    Stable (readDigitEscape c ts) fun tail => Pattern.readDigitEscape c (ts ++ tail) := by
  refine bind (readUpTo (by decide) fun _ => .inl rfl) fun more rest _ => ?_
  dsimp only
  refine ite (fun _ => ?_) fun _ => ?_
  · refine bind (readUpTo (by decide) fun _ => .inl rfl) fun third last _ => ?_
    exact ite (fun _ => pure) fun _ => ite (fun _ => pure) fun _ => fails
  · exact pure

theorem readEscape (c : Char) (ts : List Token) :
    Stable (readEscape c ts) fun tail => Pattern.readEscape c (ts ++ tail) := by
  unfold Pattern.readEscape
  cases anchorEscape? c with
  | some a => exact pure
  | none =>
    cases categoryEscape? c with
    | some category => exact pure
    | none =>
      cases controlEscape? c with
      | some n => exact pure
      | none =>
        cases hexDigits? c with
        | some width => exact bind (readHexEscape c width ts) fun _ _ _ => pure
        | none =>
          refine ite (fun _ => readDigitEscape c ts) fun _ => ?_
          dsimp only
          refine ite (fun _ => bind (readNamedEscape ts) fun _ _ _ => pure) fun _ => ?_
          refine ite (fun _ => bind (readOctalEscape c ts) fun _ _ _ => pure) fun _ => ?_
          exact bind (readPlainEscape c ts) fun _ _ _ => pure

theorem readSetMember (t : Token) (ts : List Token) :
    Stable (readSetMember t ts) fun tail => Pattern.readSetMember t (ts ++ tail) := by
  cases t with
  | plain c => exact pure
  | escaped c => exact readSetEscape c ts
  | dangling => exact fails

theorem readGreed (ts : List Token) :
    Stable (Mirrors.readGreed ts) fun tail => Mirrors.readGreed (ts ++ tail) :=
  take (by decide) (take (by decide) pure fun _ => pure) fun _ => pure

end Stable

theorem Carries.skipComment {α β : Type} {Q : α → Prop} {P : α → β → Prop} {x : α} {y : β}
    (h : Q x → P x y) (start : Nat) (start' : List Token → Nat) (ts : List Token) :
    Carries Q P (skipComment start ts >>= fun rest => Pure.pure (x, rest))
      fun tail => Pattern.skipComment (start' tail) (ts ++ tail) >>= fun rest => Pure.pure (y, rest) := by
  induction ts with
  | nil => exact fails
  | cons t rest ih =>
    simp only [Pattern.skipComment, List.cons_append, bind_assoc]
    apply next
    by_cases ht : t = .plain ')'
    · simp only [ht, if_true, pure_bind]
      exact pure h
    · simp only [ht, if_false]
      exact ih

/-! ## Bounds of a repetition

A brace that begins no bounds is literal, and what stands behind it is read again. -/

section Bounds

variable {ts tail : List Token}

/-- The greatest count, which is the least one if there is no comma. -/
def readHigh (low : List Char) (afterLow : List Token) : Read (List Char × List Token) := do
  match ← take? ',' afterLow with
  | none => pure (low, afterLow)
  | some afterComma => readDigits afterComma

def closeBounds (low high : List Char) (place : Nat) (afterHigh : List Token) :
    Read (Option ((Nat × Option Nat) × List Token)) := do
  match ← take? '}' afterHigh with
  | none => pure none
  | some rest => Mirrors.boundsOf low high place rest

theorem readBounds_eq (ts : List Token) :
    readBounds ts = if ts.head? = some (.plain '}') then pure none else
      readDigits ts >>= fun low => readHigh low.1 low.2 >>= fun high =>
        closeBounds low.1 high.1 (charsLeft ts) high.2 := by
  rw [readBounds]
  congr 1
  simp only [readHigh, bind_assoc]
  congr 1
  funext low
  congr 1
  funext afterComma?
  cases afterComma? <;> rfl

theorem closeBounds_append {low high : List Char} {place : Nat} {us : List Token}
    {o : Option ((Nat × Option Nat) × List Token)} (h : closeBounds low high place us = .ok o)
    (place' : Nat) (hTail : Closing tail) :
    closeBounds low high place' (us ++ tail) = .ok (o.map fun read => (read.1, read.2 ++ tail)) := by
  obtain ⟨rest?, hTake, h⟩ := bind_eq_ok_iff.mp h
  refine bind_eq_ok_iff.mpr ⟨_, (take?_append (by decide) hTake).2 tail hTail, ?_⟩
  cases rest? with
  | none =>
    cases h
    rfl
  | some rest =>
    obtain ⟨bounds, hSame⟩ | hError := Mirrors.boundsOf_cases low high
    · cases (hSame place rest).symm.trans h
      exact hSame place' (rest ++ tail)
    · obtain ⟨e, he⟩ := hError place rest
      cases he.symm.trans h

theorem readBounds_append {o : Option ((Nat × Option Nat) × List Token)} (h : readBounds ts = .ok o)
    (hTail : Closing tail) :
    readBounds (ts ++ tail) = .ok (o.map fun read => (read.1, read.2 ++ tail)) := by
  cases ts with
  | nil =>
    obtain ⟨rest, rfl⟩ := hTail
    cases h
    rfl
  | cons t ts =>
    rw [readBounds_eq] at h ⊢
    have hHead : (t :: ts ++ tail).head? = (t :: ts).head? := rfl
    rw [hHead]
    by_cases hBrace : (t :: ts).head? = some (.plain '}')
    · rw [if_pos hBrace] at h ⊢
      cases h
      rfl
    · rw [if_neg hBrace] at h ⊢
      obtain ⟨⟨low, afterLow⟩, hLow, h⟩ := bind_eq_ok_iff.mp h
      obtain ⟨⟨high, afterHigh⟩, hHigh, h⟩ := bind_eq_ok_iff.mp h
      have hStable : Stable (readHigh low afterLow) fun tail => readHigh low (afterLow ++ tail) :=
        .take (by decide) Stable.pure fun rest => Stable.readDigits rest
      have hLow' := (Stable.readDigits (t :: ts)).eq_ok hLow hTail
      refine bind_eq_ok_iff.mpr ⟨_, hLow', bind_eq_ok_iff.mpr ⟨_, hStable.eq_ok hHigh hTail, ?_⟩⟩
      exact closeBounds_append h _ hTail

theorem Carries.readBounds {α β : Type} {Q : α → Prop} {P : α → β → Prop}
    {k : Option ((Nat × Option Nat) × List Token) → Read (α × List Token)}
    {k' : List Token → Option ((Nat × Option Nat) × List Token) → Read (β × List Token)}
    (hNone : Carries Q P (k none) fun tail => k' tail none)
    (hSome : ∀ bounds rest,
      Carries Q P (k (some (bounds, rest))) fun tail => k' tail (some (bounds, rest ++ tail))) :
    Carries Q P (readBounds ts >>= k) fun tail => Pattern.readBounds (ts ++ tail) >>= k' tail := by
  intro x rest hRead hQ tail hTail
  obtain ⟨o, hBounds, hRead⟩ := bind_eq_ok_iff.mp hRead
  have hk : Carries Q P (k o) fun tail => k' tail (o.map fun read => (read.1, read.2 ++ tail)) := by
    cases o with
    | none => exact hNone
    | some read => exact hSome read.1 read.2
  obtain ⟨y, hRead', hP⟩ := hk x rest hRead hQ tail hTail
  exact ⟨y, bind_eq_ok_iff.mpr ⟨_, readBounds_append hBounds hTail, hRead'⟩, hP⟩

end Bounds

end UriRouting.Pattern
