import UriRouting.Proofs.Pattern.Embedding

/-! # Reading inside a group

Each step that reads a pattern alone is made inside a group as well, up to the end of the pattern, and
keeps the two drafts together. So what is portable becomes the same node there, renumbered. -/

set_option autoImplicit false

namespace UriRouting.Pattern

/-- What is read into a draft is read into the other one too. -/
abbrev Inside (base : Draft) (result : Read (Draft × List Token))
    (mirror : List Token → Read (Draft × List Token)) : Prop :=
  Carries (FitsIn base) (Embeds base) result mirror

namespace Inside

open Carries

variable {base d D : Draft} {index : Nat} {ts : List Token}

theorem of_follows {x : Read Draft} {x' : List Token → Read Draft}
    (h : ∀ tail, Follows base x (x' tail)) :
    Inside base (x >>= fun next => Pure.pure (next, ts))
      fun tail => x' tail >>= fun next => Pure.pure (next, ts ++ tail) :=
  lift fun next hNext hFits tail => h tail next hNext hFits

theorem of_follows_next {x : Read Draft} {x' : List Token → Read Draft}
    (h : ∀ tail, Follows base x (x' tail)) :
    Inside base (x >>= fun next => noDangling ts >>= fun _ => Pure.pure (next, ts))
      fun tail => x' tail >>= fun next => noDangling (ts ++ tail) >>= fun _ =>
        Pure.pure (next, ts ++ tail) :=
  liftNext fun next hNext hFits tail => h tail next hNext hFits

theorem readSetStep (h : Embeds base d D) {set Set : OpenSet} (hContent : Set.content = set.content)
    (first : Token) (rest : List Token) :
    Inside base (readSetStep d set (first :: rest))
      fun tail => Pattern.readSetStep D Set (first :: (rest ++ tail)) := by
  obtain ⟨hNegated, hItems⟩ := Prod.mk.inj hContent
  have hSame (items : List SetItem) :
      ({ Set with items } : OpenSet).content = ({ set with items } : OpenSet).content :=
    congrArg (·, items) hNegated
  have hClose (items : List SetItem) := h.closeSet (hSame items)
  have hKeep (items : List SetItem) := h.keepSet (hSame items)
  simp only [Pattern.readSetStep, hItems]
  refine next (ite (fun _ => pure fun _ => hClose _) fun _ => ?_)
  refine bind (Stable.readSetMember first rest) fun low rest _ => ?_
  refine take (by decide) (pure fun _ => hKeep _) fun rest => ?_
  cases rest with
  | nil => exact fails
  | cons second rest =>
    refine next (ite (fun _ => pure fun _ => hClose _) fun _ => ?_)
    refine bind (Stable.readSetMember second rest) fun high rest _ => ?_
    cases low with
    | code m =>
      cases high with
      | code n => exact ite (fun _ => fails) fun _ => pure fun _ => hKeep _
      | range low high => exact fails
      | category kind negated => exact fails
    | range low high => exact fails
    | category kind negated => exact fails

theorem readQuantifier (h : Embeds base d D) (min : Nat) (max : Option Nat) (place : Nat)
    (place' : List Token → Nat) (ts : List Token) :
    Inside base (readQuantifier d min max place ts)
      fun tail => Pattern.readQuantifier D min max (place' tail) (ts ++ tail) := by
  simp only [Mirrors.readQuantifier_eq]
  refine first (fun piece hPiece tail => h.checkRepeatable_eq_ok hPiece _) fun piece => ?_
  exact bind (Stable.readGreed ts) fun greed rest _ => pure fun _ => h.repeatLast piece greed min max

theorem readGroupFlags (h : Embeds base d D) (start : Nat) (start' : List Token → Nat) (on : List Flag)
    (separator : Char) (ts : List Token) :
    Inside base (readGroupFlags d start on separator ts)
      fun tail => Pattern.readGroupFlags D (start' tail) on separator (ts ++ tail) := by
  unfold Pattern.readGroupFlags
  dsimp only
  refine ite (fun _ => fails) fun _ => ite (fun _ => ?_) fun _ => ?_
  · simp only [pure_bind]
    refine ite (fun _ => fails) fun _ => ite (fun _ => fails) fun _ => ?_
    exact done fun _ tail => h.openFlagged on [] start (start' tail)
  · cases ts with
    | nil => exact fails
    | cons t rest =>
      simp only [List.cons_append]
      apply next
      cases flagOf? t with
      | none => exact fails
      | some flag =>
        refine bind (Stable.readFlagsOff [] flag rest) fun off rest _ => ?_
        refine ite (fun _ => fails) fun _ => ite (fun _ => fails) fun _ => ?_
        exact done fun _ tail => h.openFlagged on off start (start' tail)

theorem readNamedHead (h : Embeds base d D) (hBase : JustOpened base index) (start : Nat)
    (start' : List Token → Nat) (ts : List Token) :
    Inside base (readNamedHead d start ts)
      fun tail => Pattern.readNamedHead D (start' tail) (ts ++ tail) := by
  cases ts with
  | nil => exact fails
  | cons t rest =>
    simp only [Pattern.readNamedHead, List.cons_append]
    refine next (ite (fun _ => ?_) fun _ => ite (fun _ => ?_) fun _ => fails)
    · exact bind (Stable.readGroupName _ rest) fun name rest _ =>
        of_follows fun tail => h.follows_openCapture _ _ _ _ _
    · exact bind (Stable.readGroupName _ rest) fun name rest _ =>
        of_follows fun tail => h.follows_referByName hBase _ _ _

theorem readBehindHead (h : Embeds base d D) (start : Nat) (start' : List Token → Nat)
    (ts : List Token) :
    Inside base (readBehindHead d start ts)
      fun tail => Pattern.readBehindHead D (start' tail) (ts ++ tail) := by
  cases ts with
  | nil => exact fails
  | cons t rest =>
    simp only [Pattern.readBehindHead, List.cons_append]
    refine next (ite (fun _ => done fun _ tail => h.openBehind _ _ _) fun _ => ?_)
    exact ite (fun _ => done fun _ tail => h.openBehind _ _ _) fun _ => fails

theorem readConditionHead (h : Embeds base d D) (hBase : JustOpened base index) (start : Nat)
    (start' : List Token → Nat) (ts : List Token) :
    Inside base (readConditionHead d start ts)
      fun tail => Pattern.readConditionHead D (start' tail) (ts ++ tail) := by
  refine bind (Stable.readName _ _ _ ts) fun name rest _ => ?_
  intro next left hRead hFits tail _
  obtain ⟨⟨i, e⟩, hGroup, hRead⟩ := bind_eq_ok_iff.mp hRead
  obtain ⟨⟨⟩, hCheck, hRead⟩ := bind_eq_ok_iff.mp hRead
  cases hRead
  obtain ⟨rfl, hGroup'⟩ := h.conditionGroup_eq_ok hGroup hFits.mentions (charsLeft (rest ++ tail))
  have hCheck' := h.checkBehind_eq_ok hBase hCheck (charsLeft (rest ++ tail))
  refine ⟨_, bind_eq_ok_iff.mpr ⟨_, hGroup', bind_eq_ok_iff.mpr ⟨_, hCheck', rfl⟩⟩, ?_⟩
  rw [h.verbose]
  exact h.enter (.conditional i none) (by simp) start (start' tail) _

theorem ne_nil_of_readFlagsOn {on flags : List Flag} {flag : Flag} {separator : Char}
    {ts rest : List Token} (h : readFlagsOn on flag ts = .ok ((flags, separator), rest)) :
    flags ≠ [] := by
  induction ts generalizing on flag with
  | nil =>
    obtain ⟨⟨⟩, -, h⟩ := bind_eq_ok_iff.mp h
    cases h
  | cons t ts ih =>
    obtain ⟨⟨⟩, -, h⟩ := bind_eq_ok_iff.mp h
    obtain ⟨⟨⟩, -, h⟩ := bind_eq_ok_iff.mp h
    split at h
    · exact ih h
    · split at h
      · cases h
        simp
      · cases h
        simp
      · cases h
        simp
      · cases h

theorem globalFlags_of_addGlobalFlags {next : Draft} {on : List Flag} {start : Nat}
    (h : d.addGlobalFlags on start = .ok next) : next.globalFlags = d.globalFlags ++ on := by
  rw [Draft.addGlobalFlags] at h
  split at h <;> cases h
  rfl

theorem readFlags (h : Embeds base d D) (start : Nat) (start' : List Token → Nat) (flag : Flag)
    (ts : List Token) :
    Inside base (readFlagsOn [] flag ts >>= Mirrors.endFlags d start)
      fun tail => readFlagsOn [] flag (ts ++ tail) >>= Mirrors.endFlags D (start' tail) := by
  refine bind (Stable.readFlagsOn [] flag ts) fun flags rest hFlags => ?_
  obtain ⟨on, separator⟩ := flags
  refine ite (fun _ => ?_) fun _ => readGroupFlags h start start' on separator rest
  -- Flags for the whole do not fit in.
  intro next left hRead hFits
  obtain ⟨next, hNext, hRead⟩ := bind_eq_ok_iff.mp hRead
  cases hRead
  have hNone := hFits.globalFlags
  rw [globalFlags_of_addGlobalFlags hNext] at hNone
  exact absurd (List.append_eq_nil_iff.mp hNone).2 (ne_nil_of_readFlagsOn hFlags)

theorem readExtension (h : Embeds base d D) (hBase : JustOpened base index) (start : Nat)
    (start' : List Token → Nat) (ts : List Token) :
    Inside base (readExtension d start ts)
      fun tail => Pattern.readExtension D (start' tail) (ts ++ tail) := by
  cases ts with
  | nil => exact fails
  | cons t rest =>
    simp only [Pattern.readExtension, List.cons_append]
    apply next
    have hEnter (opener : Opener) (hCapture : opener ≠ .capture 0) (tail : List Token) :
        Embeds base (d.openFrame opener start d.frame.verbose)
          (D.openFrame (opener.rename (renumber base.groups.length)) (start' tail) D.frame.verbose) := by
      rw [h.verbose]
      exact h.enter opener hCapture start (start' tail) d.frame.verbose
    split
    · exact readNamedHead h hBase start start' rest
    · exact done fun _ => hEnter .plain (by simp)
    · exact Carries.skipComment (fun _ => h) start start' rest
    · exact done fun _ => hEnter (.ahead false) (by simp)
    · exact done fun _ => hEnter (.ahead true) (by simp)
    · exact readBehindHead h start start' rest
    · exact readConditionHead h hBase start start' rest
    · exact done fun _ => hEnter .atomic (by simp)
    · exact readGroupFlags h start start' [] '-' rest
    · cases flagOf? t with
      | none => exact fails
      | some flag => exact readFlags h start start' flag rest

theorem readGroup (h : Embeds base d D) (hBase : JustOpened base index) (start : Nat)
    (start' : List Token → Nat) (ts : List Token) :
    Inside base (readGroup d start ts)
      fun tail => Pattern.readGroup D (start' tail) (ts ++ tail) := by
  refine take (by decide) ?_ fun rest => readExtension h hBase start start' rest
  exact of_follows fun tail => h.follows_openCapture _ _ _ _ _

theorem readPlain (h : Embeds base d D) (hBase : JustOpened base index) (c : Char) (ts : List Token) :
    Inside base (readPlain d c ts) fun tail => Pattern.readPlain D c (ts ++ tail) := by
  unfold Pattern.readPlain
  split
  · refine take (by decide) ?_ fun rest => ?_
    · exact done fun _ tail => h.keepSet rfl
    · exact done fun _ tail => h.keepSet rfl
  · exact readGroup h hBase _ _ ts
  · exact pure fun _ => h.push .any .ordinary
  · exact pure fun _ => h.push (.anchor .lineStart) .anchor
  · exact pure fun _ => h.push (.anchor .lineEnd) .anchor
  · exact readQuantifier h _ _ _ _ ts
  · exact readQuantifier h _ _ _ _ ts
  · exact readQuantifier h _ _ _ _ ts
  · exact Carries.readBounds (pure fun _ => h.push (.code _) .ordinary) fun bounds rest =>
      readQuantifier h _ _ _ _ rest
  · exact pure fun _ => h.push (.code _) .ordinary

end Inside

/-! ## Steps -/

/-- Whether the next step is a back reference by number. -/
def refersByNumber (d : Draft) : List Token → Bool
  | .escaped c :: rest =>
    match d.set?, readEscape c rest with
    | none, .ok (.reference .., _) => true
    | _, _ => false
  | _ => false

section Step

variable {base d D next : Draft} {index : Nat} {t : Token} {ts left tail : List Token}

/-- Two drafts that are kept together read on in the same way, but for a comment in a verbose pattern. -/
theorem inside_or_skipsLine (h : Embeds base d D) (hBase : JustOpened base index)
    (hRefers : refersByNumber d (t :: ts) = false) :
    Inside base (readStep d (t :: ts)) (fun tail => readStep D (t :: (ts ++ tail))) ∨
      d.frame.verbose = true ∧ SkipsLine d t ∧ SkipsLine D t := by
  have hSet := h.set
  cases hd : d.set? with
  | some set =>
    left
    obtain ⟨Set, hD, hContent⟩ := Option.map_eq_some_iff.mp (hSet.trans (congrArg _ hd))
    simp only [readStep, hd, hD]
    exact Inside.readSetStep h hContent t ts
  | none =>
    have hD : D.set? = none := Option.map_eq_none_iff.mp (hSet.trans (congrArg _ hd))
    cases t with
    | dangling =>
      left
      simp only [readStep, hd]
      exact .fails
    | escaped c =>
      left
      simp only [readStep_escaped hd, readStep_escaped hD]
      refine .next (.bind (Stable.readEscape c ts) fun escape rest hEscape => ?_)
      cases escape with
      | code n => exact .pure fun _ => h.push (.code n) .ordinary
      | category kind negated => exact .pure fun _ => h.push (.oneOf false [.category kind negated]) .ordinary
      | anchor a => exact .pure fun _ => h.push (.anchor a) .anchor
      | reference i length => simp [refersByNumber, hd, hEscape] at hRefers
    | plain c =>
      by_cases hBar : c = '|'
      · left
        simp only [hBar, readStep_bar hd, readStep_bar hD]
        exact Inside.of_follows_next fun tail => h.follows_endBranch hBase _ _
      by_cases hClose : c = ')'
      · left
        simp only [hClose, readStep_close hd, readStep_close hD]
        exact Inside.of_follows_next fun tail => h.follows_closeFrame hBase _ _
      simp only [SkipsLine, readStep_char hd hBar hClose, readStep_char hD hBar hClose, h.verbose]
      by_cases hBlank : (d.frame.verbose && Unicode.isAsciiBlank c) = true
      · left
        simp only [hBlank, if_true]
        exact .next (.pure fun _ => h)
      by_cases hHash : (d.frame.verbose && c == '#') = true
      · right
        simp only [hBlank, hHash, if_true]
        exact ⟨(Bool.and_eq_true_iff.mp hHash).1, fun ts => rfl, fun ts => rfl⟩
      · left
        simp only [hBlank, hHash]
        exact .next (Inside.readPlain h hBase c ts)

theorem Embeds.step (h : Embeds base d D) (hBase : JustOpened base index)
    (hRefers : refersByNumber d (t :: ts) = false) (hStep : readStep d (t :: ts) = .ok (next, left))
    (hFits : FitsIn base next) (hLeft : left = [] → next = d → d.frame.verbose = false)
    (hTail : Closing tail) :
    ∃ Next, readStep D (t :: (ts ++ tail)) = .ok (Next, left ++ tail) ∧ Embeds base next Next := by
  obtain hInside | ⟨hVerbose, hSkips, hSkips'⟩ := inside_or_skipsLine h hBase hRefers
  · exact hInside next left hStep hFits tail hTail
  · rw [hSkips] at hStep
    obtain ⟨⟨⟩, hNo, hStep⟩ := bind_eq_ok_iff.mp hStep
    obtain ⟨rest, hLine, hStep⟩ := bind_eq_ok_iff.mp hStep
    cases hStep
    -- The comment ends within the pattern.
    have hRest : left ≠ [] := fun hNil => Bool.noConfusion (hVerbose.symm.trans (hLeft hNil rfl))
    have hLine' := (skipLine_append hLine).2 hRest tail hTail
    refine ⟨D, ?_, h⟩
    rw [hSkips', hTail.noDangling_append hNo]
    exact bind_eq_ok_iff.mpr ⟨(), rfl, bind_eq_ok_iff.mpr ⟨_, hLine', rfl⟩⟩

end Step

/-- Whether what is known of a pattern stays right inside of a larger one, where some names are taken:
no group is named by number in a condition, no flag is set for the whole and no name is taken. -/
def Draft.isPortable (taken : List String) (d : Draft) : Bool :=
  d.mentions.isEmpty && d.globalFlags.isEmpty && d.names.all fun entry => !taken.contains entry.1

theorem FitsIn.of_isPortable {base d : Draft} {taken : List String}
    (hTaken : ∀ name, name ∉ taken → base.names.lookup name = none) (h : d.isPortable taken = true) :
    FitsIn base d := by
  simp only [Draft.isPortable, Bool.and_eq_true, List.isEmpty_iff, List.all_eq_true,
    Bool.not_eq_true', List.contains_eq_mem, decide_eq_false_iff_not] at h
  exact ⟨h.1.1, h.1.2, fun entry hEntry => hTaken _ (h.2 entry hEntry)⟩

def portableSteps (taken : List String) : Nat → Draft → List Token → Bool
  | _, _, [] => true
  | 0, _, _ => false
  | fuel + 1, d, ts =>
    !refersByNumber d ts &&
      match readStep d ts with
      | .ok (next, rest) => next.isPortable taken && portableSteps taken fuel next rest
      | .error _ => false

/-- Whether a pattern means the same inside of a larger one: it refers to no group by number, sets no
flags for the whole and gives no group one of the names that are taken. -/
def portable (taken : List String) (pattern : List Char) : Bool :=
  let ts := tokenize pattern
  portableSteps taken ts.length .start ts

theorem portableSteps_cons {taken : List String} {fuel : Nat} {d next : Draft} {t : Token}
    {ts rest : List Token} (h : portableSteps taken fuel d (t :: ts) = true)
    (hStep : readStep d (t :: ts) = .ok (next, rest)) :
    refersByNumber d (t :: ts) = false ∧ next.isPortable taken = true ∧
      ∃ fuel', portableSteps taken fuel' next rest = true := by
  cases fuel with
  | zero => cases h
  | succ fuel =>
    simp only [portableSteps, hStep, Bool.and_eq_true, Bool.not_eq_true'] at h
    exact ⟨h.1, h.2.1, fuel, h.2.2⟩

/-- The steps that read a pattern alone are made inside a group. -/
theorem Embeds.steps {base d D e : Draft} {index fuel : Nat} {taken : List String}
    {ts left tail : List Token} (hBase : JustOpened base index)
    (hTaken : ∀ name, name ∉ taken → base.names.lookup name = none) (hTail : Closing tail)
    (hSteps : Steps d ts e left) (hLeft : left = [] → e.outer = [])
    (hPortable : portableSteps taken fuel d ts = true) (h : Embeds base d D) :
    ∃ E, Steps D (ts ++ tail) E (left ++ tail) ∧ Embeds base e E := by
  induction hSteps generalizing D fuel with
  | refl d ts => exact ⟨D, .refl D _, h⟩
  | @step d mid e t ts rest left hStep hSteps ih =>
    obtain ⟨hRefers, hMid, fuel', hRest⟩ := portableSteps_cons hPortable hStep
    have hAlone : rest = [] → mid = d → d.frame.verbose = false := by
      rintro rfl rfl
      obtain ⟨rfl, rfl⟩ := hSteps.eq_of_nil
      obtain ⟨-, -, -, -, hVerbose⟩ | ⟨-, -, hOuter⟩ := h.stack.cons_cases
      · exact hVerbose
      · rw [hLeft rfl] at hOuter
        cases hOuter
    obtain ⟨Mid, hStep', hMid'⟩ :=
      h.step hBase hRefers hStep (.of_isPortable hTaken hMid) hAlone hTail
    obtain ⟨E, hSteps', hEnd⟩ := ih hLeft hRest hMid'
    exact ⟨E, .step hStep' hSteps', hEnd⟩

/-- A pattern is read alone, up to its last draft. -/
structure ReadAlone (pattern : List Char) (p : Compiled) (last : Draft) : Prop where
  noDangling : noDangling (tokenize pattern) = .ok ()
  steps : Steps .start (tokenize pattern) last []
  finish : last.finish = .ok p

theorem Draft.fault_of_finish {d : Draft} {p : Compiled} (h : d.finish = .ok p) : d.fault? = none := by
  rw [Draft.finish] at h
  split at h
  · cases h
  · cases h
  · split at h
    · cases h
    · split at h
      · cases h
      · assumption

namespace ReadAlone

variable {pattern : List Char} {p : Compiled} {last : Draft}

theorem exists_of_compile (h : compile pattern = .ok p) : ∃ last, ReadAlone pattern p last := by
  obtain ⟨hNo, last, hSteps, hFinish⟩ := compile_eq_ok_iff.mp h
  exact ⟨last, hNo, hSteps, hFinish⟩

theorem dangling_notMem (h : ReadAlone pattern p last) : .dangling ∉ tokenize pattern :=
  h.steps.dangling_notMem h.noDangling

/-- A portable pattern can be read inside a group that has just been opened, up to the end of the group,
and is the same node there. -/
theorem inside {base : Draft} {index : Nat} {taken : List String} {tail : List Token}
    (h : ReadAlone pattern p last) (hBase : JustOpened base index)
    (hTaken : ∀ name, name ∉ taken → base.names.lookup name = none)
    (hPortable : portable taken pattern = true) (hTail : Closing tail) :
    ∃ E, Steps base (tokenize pattern ++ tail) E tail ∧ Embeds base last E ∧ E.set? = none ∧
      E.outer = base.outer ∧ E.frame.opener = .capture index ∧
      E.frame.body = p.node.rename (renumber base.groups.length) := by
  obtain ⟨hSet, hOuter, hCompiled⟩ := Draft.closed_of_finish h.finish
  obtain ⟨E, hSteps, hEmbeds⟩ :=
    Embeds.steps hBase hTaken hTail h.steps (fun _ => hOuter) hPortable (.start hBase)
  have hSet' : E.set? = none := by
    have hContent := hEmbeds.set
    rw [hSet] at hContent
    exact Option.map_eq_none_iff.mp hContent
  obtain ⟨start, hFrame⟩ := hBase.frame
  obtain ⟨-, hOuter', -, hField, -⟩ | ⟨-, -, hStack⟩ := hEmbeds.stack.cons_cases
  · refine ⟨E, hSteps, hEmbeds, hSet', hOuter', by rw [hField, hFrame], ?_⟩
    rw [hEmbeds.stack.head.body, hCompiled]
  · rw [hOuter] at hStack
    cases hStack

end ReadAlone

end UriRouting.Pattern
