import UriRouting.Proofs.Pattern.Reading

/-! # The readers of tokens

Each reader that looks at tokens alone reads the same in front of a closing parenthesis. -/

set_option autoImplicit false

namespace UriRouting.Pattern.Mirrors

variable {α β : Type} {P : α → β → Prop}

theorem readUpTo {test : Char → Bool} (hTest : test ')' = false) {ts : List Token} {n : Nat}
    {n' : List Token → Nat} (hn : ∀ tail, n = n' tail ∨ ts.length ≤ n ∧ n ≤ n' tail) :
    Mirrors Eq ts (readUpTo test n ts) fun tail => readUpTo test (n' tail) (ts ++ tail) := by
  induction ts generalizing n n' with
  | nil =>
    have hNil : Pattern.readUpTo test n [] = .ok ([], []) := by cases n <;> rfl
    rw [hNil]
    refine of_closing (pure rfl) fun rest => ?_
    dsimp only [List.nil_append]
    cases n' (.plain ')' :: rest) with
    | zero => rfl
    | succ m => simp [Pattern.readUpTo, hTest]
  | cons t ts ih =>
    cases n with
    | zero =>
      have hZero : n' = fun _ => 0 := by
        funext tail
        have := hn tail
        simp only [List.length_cons] at this
        omega
      subst hZero
      exact pure rfl
    | succ n =>
      obtain ⟨m, rfl⟩ : ∃ m : List Token → Nat, n' = fun tail => m tail + 1 := by
        refine ⟨fun tail => n' tail - 1, funext fun tail => ?_⟩
        have := hn tail
        simp only [List.length_cons] at this ⊢
        omega
      have hm : ∀ tail, n = m tail ∨ ts.length ≤ n ∧ n ≤ m tail := by
        intro tail
        have := hn tail
        simp only [List.length_cons] at this
        omega
      cases t with
      | plain c =>
        simp only [Pattern.readUpTo, List.cons_append]
        refine ite (fun _ => ?_) fun _ => pure rfl
        exact next (bind (ih hm) fun _ _ _ => pure rfl)
      | escaped c => exact pure rfl
      | dangling => exact pure rfl

theorem readDigits (ts : List Token) :
    Mirrors Eq ts (readDigits ts) fun tail => Pattern.readDigits (ts ++ tail) :=
  readUpTo rfl fun tail => .inr ⟨Nat.le_refl _, by simp⟩

theorem exists_error_next {rest : List Token} {k : Unit → Read α} (h : ∃ e, k () = .error e) :
    ∃ e, (noDangling rest >>= k) = .error e := exists_error_bind fun ⟨⟩ _ => h

theorem readName (what : String) (name : List Char) (ts : List Token) :
    Mirrors Eq ts (readName what ')' name ts) fun tail => Pattern.readName what ')' name (ts ++ tail) := by
  induction ts generalizing name with
  | nil =>
    rw [Pattern.readName]
    by_cases hName : name.isEmpty = true
    · rw [if_pos hName]
      refine ended fun rest => exists_error_next ?_
      rw [if_pos rfl, if_pos hName]
      exact ⟨_, rfl⟩
    · rw [if_neg hName]
      exact out rfl
  | cons t rest ih =>
    simp only [Pattern.readName, List.cons_append]
    refine next (ite (fun _ => ?_) fun _ => ih _)
    exact ite (fun _ => fails) fun _ => pure rfl

theorem mem_of_readName {what : String} {terminator : Char} {name : List Char} {ts rest : List Token}
    {result : String} (h : Pattern.readName what terminator name ts = .ok (result, rest)) {c : Char}
    (hc : c ∈ name) : c ∈ result.toList := by
  induction ts generalizing name with
  | nil =>
    rw [Pattern.readName] at h
    split at h <;> cases h
  | cons t ts ih =>
    obtain ⟨⟨⟩, -, h⟩ := bind_eq_ok_iff.mp h
    split at h
    · split at h
      · cases h
      · cases h
        rwa [String.toList_ofList]
    · exact ih h (List.mem_append_left _ hc)

theorem close_notMem_identifier {name : List Char} (h : Unicode.isIdentifier name = true) :
    ')' ∉ name := by
  have hStart : Unicode.isIdentifierStart ')' = false := by decide +kernel
  have hContinue : Unicode.isIdentifierContinue ')' = false := by decide +kernel
  cases name with
  | nil => exact List.not_mem_nil
  | cons c rest =>
    simp only [Unicode.isIdentifier, Bool.and_eq_true, List.all_eq_true] at h
    intro hMem
    rcases List.mem_cons.mp hMem with rfl | hMem
    · exact Bool.noConfusion (hStart.symm.trans h.1)
    · exact Bool.noConfusion (hContinue.symm.trans (h.2 _ hMem))

theorem readGroupName (terminator : Char) (ts : List Token) :
    Mirrors Eq ts (readGroupName terminator ts)
      fun tail => Pattern.readGroupName terminator (ts ++ tail) := by
  by_cases hClose : terminator = ')'
  · subst hClose
    exact bind (readName _ _ ts) fun _ _ _ => ite (fun _ => pure rfl) fun _ => fails
  unfold Pattern.readGroupName
  generalize ([] : List Char) = name
  induction ts generalizing name with
  | nil =>
    -- A name that goes on behind the pattern has a parenthesis in it.
    have hGoesOn (rest : List Token) : ∃ e, (Pattern.readName "group name" terminator name
        (.plain ')' :: rest) >>= fun named =>
          if Unicode.isIdentifier named.1.toList = true then Pure.pure (named.1, named.2)
          else fail (.badGroupName named.1) (charsLeft named.2 + named.1.length + 1)) = .error e := by
      refine exists_error_bind fun named hNamed => ?_
      obtain ⟨⟨⟩, -, hNamed⟩ := bind_eq_ok_iff.mp hNamed
      rw [if_neg fun hEq => hClose (Token.plain.inj hEq).symm] at hNamed
      have hMem : ')' ∈ named.1.toList :=
        mem_of_readName hNamed (List.mem_append_right _ (List.mem_singleton_self _))
      rw [if_neg fun hIdentifier => close_notMem_identifier hIdentifier hMem]
      exact ⟨_, rfl⟩
    rw [Pattern.readName]
    split <;> exact ended hGoesOn
  | cons t rest ih =>
    simp only [Pattern.readName, List.cons_append, bind_assoc]
    apply next
    by_cases ht : t = .plain terminator
    · simp only [ht, if_true]
      by_cases hName : name.isEmpty = true
      · simp only [hName, if_true]
        exact fails
      · simp only [hName, Bool.false_eq_true, if_false, pure_bind]
        exact ite (fun _ => pure rfl) fun _ => fails
    · simp only [ht, if_false]
      exact ih _

theorem skipComment {x : α} {y : β} (h : P x y) (start : Nat) (start' : List Token → Nat)
    (ts : List Token) :
    Mirrors P ts (skipComment start ts >>= fun rest => Pure.pure (x, rest))
      fun tail => Pattern.skipComment (start' tail) (ts ++ tail) >>= fun rest => Pure.pure (y, rest) := by
  induction ts with
  | nil => exact out rfl
  | cons t rest ih =>
    simp only [Pattern.skipComment, List.cons_append, bind_assoc]
    apply next
    by_cases ht : t = .plain ')'
    · simp only [ht, if_true, pure_bind]
      exact pure h
    · simp only [ht, if_false]
      exact ih

theorem readFlagsOff (off : List Flag) (flag : Flag) (ts : List Token) :
    Mirrors Eq ts (readFlagsOff off flag ts)
      fun tail => Pattern.readFlagsOff off flag (ts ++ tail) := by
  induction ts generalizing off flag with
  | nil =>
    have hEnded (rest : List Token) :
        ∃ e, Pattern.readFlagsOff off flag (.plain ')' :: rest) = .error e := by
      rw [Pattern.readFlagsOff]
      split
      · exact ⟨_, rfl⟩
      · exact exists_error_next ⟨_, rfl⟩
    rw [Pattern.readFlagsOff]
    split <;> exact ended hEnded
  | cons t rest ih =>
    simp only [Pattern.readFlagsOff, List.cons_append]
    by_cases hFlag : flag.isRepertoire = true
    · simp only [hFlag, if_true]
      exact fails
    · simp only [hFlag, Bool.false_eq_true, if_false]
      apply next
      cases flagOf? t with
      | some flag' => exact ih _ _
      | none => exact ite (fun _ => pure rfl) fun _ => fails

theorem readHexEscape (c : Char) (width : Nat) (ts : List Token) :
    Mirrors Eq ts (readHexEscape c width ts) fun tail => Pattern.readHexEscape c width (ts ++ tail) :=
  bind (readUpTo (by decide) fun _ => .inl rfl) fun _ _ _ =>
    ite (fun _ => fails) fun _ => ite (fun _ => pure rfl) fun _ => fails

theorem readNamedEscape (ts : List Token) :
    Mirrors Eq ts (readNamedEscape ts) fun tail => Pattern.readNamedEscape (ts ++ tail) :=
  take (by decide) fails fun _ => refused (exists_error_bind fun _ _ => ⟨_, rfl⟩)
    fun _ => exists_error_bind fun _ _ => ⟨_, rfl⟩

theorem readOctalEscape (c : Char) (ts : List Token) :
    Mirrors Eq ts (readOctalEscape c ts) fun tail => Pattern.readOctalEscape c (ts ++ tail) :=
  bind (readUpTo (by decide) fun _ => .inl rfl) fun _ _ _ => ite (fun _ => pure rfl) fun _ => fails

theorem readPlainEscape (c : Char) (ts : List Token) :
    Mirrors Eq ts (readPlainEscape c ts) fun tail => Pattern.readPlainEscape c (ts ++ tail) :=
  ite (fun _ => fails) fun _ => pure rfl

theorem readSetEscape (c : Char) (ts : List Token) :
    Mirrors Eq ts (readSetEscape c ts) fun tail => Pattern.readSetEscape c (ts ++ tail) := by
  unfold Pattern.readSetEscape
  cases controlEscape? c with
  | some n => exact pure rfl
  | none =>
    cases categoryEscape? c with
    | some category => exact pure rfl
    | none =>
      cases hexDigits? c with
      | some width => exact bind (readHexEscape c width ts) fun _ _ _ => pure rfl
      | none =>
        dsimp only
        refine ite (fun _ => bind (readNamedEscape ts) fun _ _ _ => pure rfl) fun _ => ?_
        refine ite (fun _ => bind (readOctalEscape c ts) fun _ _ _ => pure rfl) fun _ => ?_
        exact bind (readPlainEscape c ts) fun _ _ _ => pure rfl

theorem eq_of_readUpTo_nil {test : Char → Bool} {n : Nat} {ts rest : List Token}
    (h : Pattern.readUpTo test n ts = .ok ([], rest)) : rest = ts := by
  rw [Pattern.readUpTo.eq_def] at h
  split at h
  · split at h
    · obtain ⟨⟨⟩, -, h⟩ := bind_eq_ok_iff.mp h
      obtain ⟨⟨cs, more⟩, -, h⟩ := bind_eq_ok_iff.mp h
      cases h
    · cases h
      rfl
  · cases h
    rfl

theorem readDigitEscape (c : Char) (ts : List Token) :
    Mirrors Eq ts (readDigitEscape c ts) fun tail => Pattern.readDigitEscape c (ts ++ tail) := by
  refine bind (readUpTo (by decide) fun _ => .inl rfl) fun more rest _ => ?_
  dsimp only
  refine ite (fun _ => ?_) fun _ => ?_
  · refine bind (readUpTo (by decide) fun _ => .inl rfl) fun third last hThird => ?_
    cases third with
    | nil =>
      obtain rfl := eq_of_readUpTo_nil hThird
      exact pure rfl
    | cons d third =>
      refine ite (fun hEmpty => ?_) fun _ => ite (fun _ => pure rfl) fun _ => fails
      cases hEmpty
  · exact pure rfl

theorem readEscape (c : Char) (ts : List Token) :
    Mirrors Eq ts (readEscape c ts) fun tail => Pattern.readEscape c (ts ++ tail) := by
  unfold Pattern.readEscape
  cases anchorEscape? c with
  | some a => exact pure rfl
  | none =>
    cases categoryEscape? c with
    | some category => exact pure rfl
    | none =>
      cases controlEscape? c with
      | some n => exact pure rfl
      | none =>
        cases hexDigits? c with
        | some width => exact bind (readHexEscape c width ts) fun _ _ _ => pure rfl
        | none =>
          refine ite (fun _ => readDigitEscape c ts) fun _ => ?_
          dsimp only
          refine ite (fun _ => bind (readNamedEscape ts) fun _ _ _ => pure rfl) fun _ => ?_
          refine ite (fun _ => bind (readOctalEscape c ts) fun _ _ _ => pure rfl) fun _ => ?_
          exact bind (readPlainEscape c ts) fun _ _ _ => pure rfl

theorem readSetMember (t : Token) (ts : List Token) :
    Mirrors Eq ts (readSetMember t ts) fun tail => Pattern.readSetMember t (ts ++ tail) := by
  cases t with
  | plain c => exact pure rfl
  | escaped c => exact readSetEscape c ts
  | dangling => exact fails

/-- The bounds that digits give; `place` is for messages. -/
def boundsOf (low high : List Char) (place : Nat) (rest : List Token) :
    Read (Option ((Nat × Option Nat) × List Token)) :=
  let limit := 4294967295
  let min := Text.valueOf 10 low
  let max := Text.valueOf 10 high
  if limit ≤ min then .error ⟨.repetitionTooLarge, none⟩
  else if high.isEmpty then Pure.pure (some ((min, none), rest))
  else if limit ≤ max then .error ⟨.repetitionTooLarge, none⟩
  else if max < min then Pattern.fail .minAboveMax place
  else Pure.pure (some ((min, some max), rest))

theorem boundsOf_cases (low high : List Char) :
    (∃ bounds, ∀ place rest, boundsOf low high place rest = .ok (some (bounds, rest))) ∨
      ∀ place rest, ∃ e, boundsOf low high place rest = .error e := by
  unfold boundsOf
  by_cases hMin : 4294967295 ≤ Text.valueOf 10 low
  · exact .inr fun _ _ => ⟨_, if_pos hMin⟩
  by_cases hHigh : high.isEmpty = true
  · exact .inl ⟨(Text.valueOf 10 low, none), fun _ _ => by simp [hMin, hHigh, Pure.pure, Except.pure]⟩
  by_cases hMax : 4294967295 ≤ Text.valueOf 10 high
  · exact .inr fun _ _ => ⟨_, by simp only [hMin, hHigh, hMax, if_false, if_true]; rfl⟩
  by_cases hLess : Text.valueOf 10 high < Text.valueOf 10 low
  · exact .inr fun _ _ => ⟨_, by simp only [hMin, hHigh, hMax, hLess, if_false, if_true]; rfl⟩
  · exact .inl ⟨(Text.valueOf 10 low, some (Text.valueOf 10 high)), fun _ _ => by
      simp [hMin, hHigh, hMax, hLess, Pure.pure, Except.pure]⟩

variable {ts : List Token} {k : Option ((Nat × Option Nat) × List Token) → Read (α × List Token)}
  {k' : List Token → Option ((Nat × Option Nat) × List Token) → Read (β × List Token)}

theorem closeBounds (low high : List Char) (place : Nat) (place' : List Token → Nat)
    {us : List Token} (hLeads : Leads ts us)
    (hNone : Mirrors P ts (k none) fun tail => k' tail none)
    (hSome : ∀ bounds rest,
      Mirrors P rest (k (some (bounds, rest))) fun tail => k' tail (some (bounds, rest ++ tail))) :
    Mirrors P ts
      (take? '}' us >>= fun o => (match o with
        | none => Pure.pure none
        | some rest => boundsOf low high place rest) >>= k)
      fun tail => take? '}' (us ++ tail) >>= fun o => (match o with
        | none => Pure.pure none
        | some rest => boundsOf low high (place' tail) rest) >>= k' tail := by
  refine peekTake (by decide) ?_ fun rest hRest => ?_
  · simp only [pure_bind]
    exact hNone
  · apply of_leads (hLeads.trans hRest)
    rcases boundsOf_cases low high with ⟨bounds, hSame⟩ | hError
    · simp only [hSame]
      exact hSome bounds rest
    · have hFails {γ : Type} (place : Nat) (rest : List Token)
          (f : Option ((Nat × Option Nat) × List Token) → Read γ) :
          ∃ e, (boundsOf low high place rest >>= f) = .error e := by
        obtain ⟨e, he⟩ := hError place rest
        exact ⟨e, by rw [he]; rfl⟩
      exact refused (hFails _ _ k) fun tail => hFails _ _ (k' tail)

theorem readBounds (hNone : Mirrors P ts (k none) fun tail => k' tail none)
    (hSome : ∀ bounds rest,
      Mirrors P rest (k (some (bounds, rest))) fun tail => k' tail (some (bounds, rest ++ tail))) :
    Mirrors P ts (readBounds ts >>= k) fun tail => Pattern.readBounds (ts ++ tail) >>= k' tail := by
  cases ts with
  | nil =>
    exact of_closing hNone fun rest => rfl
  | cons t ts =>
    unfold Pattern.readBounds
    simp only [List.cons_append, List.head?_cons]
    by_cases ht : some t = some (.plain '}')
    · simp only [ht, if_true, pure_bind]
      exact hNone
    · simp only [ht, if_false, bind_assoc]
      apply peek (readDigits (t :: ts))
      intro low afterLow _ hLow
      refine peekTake (by decide) ?_ fun afterComma hComma => ?_
      · simp only [pure_bind, bind_assoc]
        exact closeBounds low low (charsLeft (t :: ts)) (fun tail => charsLeft (t :: (ts ++ tail)))
          hLow hNone hSome
      · simp only [bind_assoc]
        exact peek (readDigits afterComma) fun high afterHigh _ hHigh =>
          closeBounds low high (charsLeft (t :: ts)) (fun tail => charsLeft (t :: (ts ++ tail)))
            (hLow.trans (hComma.trans hHigh)) hNone hSome

end UriRouting.Pattern.Mirrors
