import UriRouting.Proofs.Pattern.Numbering
import UriRouting.Proofs.Pattern.Run

/-! # A pattern inside a group

A pattern that can be read alone stays inside the group that it is pasted into: whatever it opens it
closes, and the group is open when its own closing parenthesis comes. The two readings are compared
step by step; `Nested` is what they keep. -/

set_option autoImplicit false

namespace UriRouting.Pattern

/-- The frame is changed, and still stands for the same group if it captures. -/
structure Change.Changes (change : Change) (f g : Frame) : Prop where
  shape : g.shape = change.apply f.shape
  capture : ∀ index, f.opener = .capture index → g.opener = .capture index

theorem Change.Changes.verbose {change : Change} {f g : Frame} (h : change.Changes f g) :
    g.verbose = f.verbose :=
  (congrArg Shape.verbose h.shape).trans (change.verbose_apply f.shape)

/-- What a move means for the open groups and the open set. -/
def Move.Moves : Move → Draft → Draft → Prop
  | stay change, d, e => e.outer = d.outer ∧ e.set? = d.set? ∧ change.Changes d.frame e.frame
  | set isEmpty, d, e =>
    e.outer = d.outer ∧ e.set?.map (·.items.isEmpty) = some isEmpty ∧ Change.none.Changes d.frame e.frame
  | closeSet, d, e =>
    e.outer = d.outer ∧ e.set? = none ∧ (Change.push .ordinary).Changes d.frame e.frame
  | enter verbose condition? _, d, e =>
    e.outer = d.frame :: d.outer ∧ e.set? = d.set? ∧ e.frame.shape = ⟨verbose, [], condition?⟩
  | leave, d, e => ∃ parent, d.outer = parent :: e.outer ∧ e.set? = d.set? ∧
    (Change.push .ordinary).Changes parent e.frame

theorem Draft.mem_behindFault? {w : Width} {cause : Cause} (h : behindFault? w = some cause) :
    cause = .lookbehindNotFixed ∨ cause = .lookbehindTooLong := by
  unfold behindFault? at h
  split at h
  · cases h
    exact .inr rfl
  · split at h
    · cases h
    · cases h
      exact .inl rfl

theorem Draft.mem_fault_of_closeFrame {d next : Draft} {left : Nat} (h : d.closeFrame left = .ok next)
    {cause : Cause} (hCause : next.fault? = some cause) :
    d.fault? = some cause ∨ d.frame.opener.fault? = some cause ∨
      cause = .lookbehindNotFixed ∨ cause = .lookbehindTooLong := by
  unfold closeFrame at h
  split at h
  · cases h
  · dsimp only at h
    cases hOpener : d.frame.opener with
    | behind negated limit? before? =>
      simp only [hOpener] at h
      cases h
      rcases Option.or_eq_some_iff.mp hCause with hCause | ⟨-, hCause⟩
      · rcases Option.or_eq_some_iff.mp hCause with hCause | ⟨-, hCause⟩
        · exact .inr (.inl hCause)
        · exact .inr (.inr (mem_behindFault? hCause))
      · exact .inl hCause
    | conditional index yes? =>
      cases yes? <;> simp only [hOpener] at h <;> cases h <;> exact .inl hCause
    | _ =>
      simp only [hOpener] at h
      cases h
      exact .inl hCause

namespace Edit

variable {move : Move} {d next : Draft}

theorem moves (h : Edit move d next) : move.Moves d next := by
  cases h with
  | same => exact ⟨rfl, rfl, rfl, fun _ => id⟩
  | push => exact ⟨rfl, rfl, rfl, fun _ => id⟩
  | repeatLast => exact ⟨rfl, rfl, by simp [Draft.repeatLast, Frame.shape, Change.apply], fun _ => id⟩
  | endBranch h =>
    rw [Draft.endBranch] at h
    split at h
    · rename_i hOpener
      cases h
      exact ⟨rfl, rfl, by simp [Frame.shape, Change.apply, hOpener, Opener.condition?],
        fun index hIndex => by simp [hOpener] at hIndex⟩
    · cases h
    · rename_i hFirst hSecond
      cases h
      have hNone : d.frame.opener.condition? = none := by
        unfold Opener.condition?
        split
        · rename_i index yes? hOpener
          cases yes? with
          | none => exact absurd hOpener (hFirst index)
          | some yes => exact absurd hOpener (hSecond index yes)
        · rfl
      exact ⟨rfl, rfl, by simp [Frame.shape, Change.apply, hNone], fun _ => id⟩
  | keepSet => exact ⟨rfl, rfl, rfl, fun _ => id⟩
  | closeSet => exact ⟨rfl, rfl, rfl, fun _ => id⟩
  | enter => exact ⟨rfl, rfl, rfl⟩
  | @capture _ _ name? _ _ h =>
    unfold Draft.openCapture at h
    cases name? with
    | none =>
      cases h
      exact ⟨rfl, rfl, rfl⟩
    | some name =>
      dsimp only at h
      split at h
      · cases h
      · cases h
        exact ⟨rfl, rfl, rfl⟩
  | leave h =>
    obtain ⟨parent, node, hClosed⟩ := Draft.closes_of_closeFrame h
    exact ⟨parent, hClosed.outer, hClosed.set, by rw [hClosed.frame]; rfl, by simp [hClosed.frame]⟩

theorem names_eq (h : Edit move d next) :
    next.names.map Prod.fst = d.names.map Prod.fst ++ move.name?.toList := by
  cases h with
  | endBranch h =>
    have hNames : next.names = d.names := by
      rw [Draft.endBranch] at h
      split at h <;> cases h <;> rfl
    rw [hNames]
    exact (List.append_nil _).symm
  | @capture _ _ name? _ _ h =>
    unfold Draft.openCapture at h
    cases name? with
    | none =>
      cases h
      exact (List.append_nil _).symm
    | some name =>
      dsimp only at h
      split at h
      · cases h
      · cases h
        exact List.map_append
  | leave h =>
    obtain ⟨parent, node, hClosed⟩ := Draft.closes_of_closeFrame h
    rw [hClosed.names]
    exact (List.append_nil _).symm
  | _ => exact (List.append_nil _).symm

/-- Lookbehinds are all that is remembered as a fault. -/
theorem mem_faults (h : Edit move d next) {cause : Cause} (hMem : cause ∈ next.faults) :
    cause ∈ d.faults ∨ cause = .lookbehindNotFixed ∨ cause = .lookbehindTooLong := by
  cases h with
  | @endBranch _ _ left h =>
    left
    rw [Draft.endBranch] at h
    split at h <;> cases h
    · rename_i hOpener
      simpa [Draft.faults, hOpener, Opener.fault?] using hMem
    · exact hMem
  | enter _ opener _ hFault =>
    left
    simp only [Draft.faults, Draft.openFrame, List.mem_append, List.mem_filterMap, List.mem_cons,
      Option.mem_toList] at hMem ⊢
    grind
  | @capture _ _ name? start left h =>
    left
    have hSame : next.faults = d.faults := by
      unfold Draft.openCapture at h
      cases name? with
      | none =>
        cases h
        rfl
      | some name =>
        dsimp only at h
        split at h <;> cases h
        rfl
    exact hSame ▸ hMem
  | @leave _ _ left h =>
    have hFault := @Draft.mem_fault_of_closeFrame d next left h cause
    obtain ⟨parent, node, hClosed⟩ := Draft.closes_of_closeFrame h
    simp only [Draft.faults, hClosed.outer, hClosed.frame, List.mem_append, List.mem_filterMap,
      List.mem_cons, Option.mem_toList, exists_eq_or_imp] at hMem ⊢
    rcases hMem with hMem | hMem
    · rcases hFault hMem with hFault | hFault | hFault
      · exact .inl (.inl hFault)
      · exact .inl (.inr (.inl hFault))
      · exact .inr hFault
    · exact .inl (.inr (.inr hMem))
  | _ => exact .inl hMem

end Edit

/-- The draft `D` has read as much of a pattern as `d` has, inside the group `index`; `base` are the
frames around that group. -/
structure Nested (index : Nat) (base : List Frame) (d D : Draft) : Prop where
  set : d.set?.map (·.items.isEmpty) = D.set?.map (·.items.isEmpty)
  shapes : (D.frame :: D.outer).map Frame.shape =
    (d.frame :: d.outer).map Frame.shape ++ base.map Frame.shape
  field : ∃ above field, D.frame :: D.outer = above ++ field :: base ∧
    field.opener = .capture index ∧ field.verbose = false
  base : base ≠ []
  names : d.names.map Prod.fst ⊆ D.names.map Prod.fst
  faults : ∀ cause ∈ d.faults, cause = .lookbehindNotFixed ∨ cause = .lookbehindTooLong

namespace Nested

variable {index : Nat} {base : List Frame} {d D next Next e last : Draft} {ts left tail : List Token}

theorem start {start : Nat} (hSet : D.set? = none) (hOuter : D.outer ≠ [])
    (hFrame : D.frame = { opener := .capture index, start, verbose := false }) :
    Nested index D.outer .start D where
  set := by rw [hSet]; rfl
  shapes := by rw [hFrame]; rfl
  field := ⟨[], D.frame, rfl, by rw [hFrame], by rw [hFrame]⟩
  base := hOuter
  names := List.nil_subset _
  faults := List.forall_mem_nil _

/-- Where the pattern has closed its groups, the group around it is the open one. -/
theorem closed (h : Nested index base d D) (hOuter : d.outer = []) :
    D.outer = base ∧ D.frame.opener = .capture index ∧ d.frame.verbose = false := by
  obtain ⟨above, field, hStack, hOpener, hField⟩ := h.field
  have hLength := congrArg List.length h.shapes
  have hAbove : above = [] := by
    rw [hStack, hOuter] at hLength
    simpa using hLength
  subst hAbove
  obtain ⟨rfl, rfl⟩ := List.cons.inj hStack
  have hShapes := h.shapes
  rw [hOuter] at hShapes
  have hVerbose := congrArg Shape.verbose (List.cons.inj hShapes).1
  exact ⟨rfl, hOpener, hVerbose.symm.trans hField⟩

theorem inStep (h : Nested index base d D) : InStep d D where
  shape := (List.cons.inj h.shapes).1.symm
  set := h.set
  names := h.names
  outer := by
    intro hNil
    have hLength := congrArg List.length h.shapes
    have hBase := List.length_pos_iff.mpr h.base
    simp only [hNil, List.map_cons, List.map_nil, List.length_cons, List.length_append,
      List.length_map, List.length_nil] at hLength
    omega

/-- A change of the first frame does not change what the frames stand for. -/
theorem changed {change : Change} {f g : Frame} {outer : List Frame} (hChanges : change.Changes f g)
    (h : ∃ above field, f :: outer = above ++ field :: base ∧ field.opener = .capture index ∧
      field.verbose = false) :
    ∃ above field, g :: outer = above ++ field :: base ∧ field.opener = .capture index ∧
      field.verbose = false := by
  obtain ⟨above, field, hStack, hOpener, hField⟩ := h
  cases above with
  | nil =>
    obtain ⟨rfl, rfl⟩ := List.cons.inj hStack
    exact ⟨[], g, rfl, hChanges.capture index hOpener, hChanges.verbose.trans hField⟩
  | cons f' above =>
    obtain ⟨rfl, rfl⟩ := List.cons.inj hStack
    exact ⟨g :: above, field, rfl, hOpener, hField⟩

theorem shapes_of_stay {change : Change} (h : Nested index base d D) (hOuter : next.outer = d.outer)
    (hChanges : change.Changes d.frame next.frame) (hOuter' : Next.outer = D.outer)
    (hChanges' : change.Changes D.frame Next.frame) :
    (Next.frame :: Next.outer).map Frame.shape =
        (next.frame :: next.outer).map Frame.shape ++ base.map Frame.shape ∧
      ∃ above field, Next.frame :: Next.outer = above ++ field :: base ∧
        field.opener = .capture index ∧ field.verbose = false := by
  refine ⟨?_, hOuter' ▸ changed hChanges' h.field⟩
  have hShapes := h.shapes
  simp only [List.map_cons, List.cons_append, List.cons.injEq] at hShapes ⊢
  rw [hOuter, hOuter', hChanges.shape, hChanges'.shape, hShapes.1, hShapes.2]
  exact ⟨rfl, rfl⟩

theorem together (h : Nested index base d D) (hTogether : Together d D next Next) :
    Nested index base next Next := by
  obtain ⟨move, hEdit, hEdit'⟩ := hTogether
  have hNames : next.names.map Prod.fst ⊆ Next.names.map Prod.fst := by
    rw [hEdit.names_eq, hEdit'.names_eq]
    exact List.append_subset.mpr
      ⟨List.Subset.trans h.names (List.subset_append_left _ _), List.subset_append_right _ _⟩
  have hFaults : ∀ cause ∈ next.faults, cause = .lookbehindNotFixed ∨ cause = .lookbehindTooLong :=
    fun cause hMem => (hEdit.mem_faults hMem).elim (h.faults cause) id
  have hMoves := hEdit.moves
  have hMoves' := hEdit'.moves
  cases move with
  | stay change =>
    obtain ⟨hOuter, hSet, hFrame⟩ := hMoves
    obtain ⟨hOuter', hSet', hFrame'⟩ := hMoves'
    obtain ⟨hShapes, hField⟩ := h.shapes_of_stay hOuter hFrame hOuter' hFrame'
    exact ⟨by rw [hSet, hSet', h.set], hShapes, hField, h.base, hNames, hFaults⟩
  | set isEmpty =>
    obtain ⟨hOuter, hSet, hFrame⟩ := hMoves
    obtain ⟨hOuter', hSet', hFrame'⟩ := hMoves'
    obtain ⟨hShapes, hField⟩ := h.shapes_of_stay hOuter hFrame hOuter' hFrame'
    exact ⟨by rw [hSet, hSet'], hShapes, hField, h.base, hNames, hFaults⟩
  | closeSet =>
    obtain ⟨hOuter, hSet, hFrame⟩ := hMoves
    obtain ⟨hOuter', hSet', hFrame'⟩ := hMoves'
    obtain ⟨hShapes, hField⟩ := h.shapes_of_stay hOuter hFrame hOuter' hFrame'
    exact ⟨by rw [hSet, hSet'], hShapes, hField, h.base, hNames, hFaults⟩
  | enter verbose condition? name? =>
    obtain ⟨hOuter, hSet, hFrame⟩ := hMoves
    obtain ⟨hOuter', hSet', hFrame'⟩ := hMoves'
    obtain ⟨above, field, hStack, hField⟩ := h.field
    refine ⟨by rw [hSet, hSet', h.set], ?_, ⟨Next.frame :: above, field, ?_, hField⟩, h.base, hNames,
      hFaults⟩
    · rw [List.map_cons, List.map_cons, hOuter, hOuter', hFrame, hFrame', h.shapes, List.cons_append]
    · rw [hOuter', hStack, List.cons_append]
  | leave =>
    obtain ⟨parent, hOuter, hSet, hFrame⟩ := hMoves
    obtain ⟨Parent, hOuter', hSet', hFrame'⟩ := hMoves'
    obtain ⟨above, field, hStack, hField⟩ := h.field
    refine ⟨by rw [hSet, hSet', h.set], ?_, ?_, h.base, hNames, hFaults⟩
    · have hShapes := h.shapes
      rw [hOuter, hOuter'] at hShapes
      simp only [List.map_cons, List.cons_append, List.cons.injEq] at hShapes ⊢
      rw [hFrame.shape, hFrame'.shape, hShapes.2.1, hShapes.2.2]
      exact ⟨rfl, rfl⟩
    · cases above with
      | nil =>
        -- The field's own frame is the open one, but then the pattern has no group left to close.
        have hLength := congrArg List.length h.shapes
        rw [hStack, hOuter] at hLength
        simp at hLength
        omega
      | cons f above =>
        refine changed hFrame' ⟨above, field, ?_, hField⟩
        rw [← hOuter']
        exact (List.cons.inj hStack).2

/-- Reading the pattern alone tells how far reading it inside a group goes. -/
theorem steps (hSteps : Steps d ts e left) (hLeft : left = [] → e.outer = [])
    (h : Nested index base d D) (hTail : Closing tail) (hRun : Steps D (ts ++ tail) last []) :
    ∃ E, Steps D (ts ++ tail) E (left ++ tail) ∧ Nested index base e E ∧ Keeps D E := by
  induction hSteps generalizing D with
  | refl d ts => exact ⟨D, .refl D _, h, .refl D⟩
  | @step d mid e t ts rest left hStep hSteps ih =>
    obtain ⟨-, -, hSame⟩ := readStep_mirrors h.inStep hStep
    cases hRun with
    | @step _ Mid _ _ _ rest' _ hStep' hRun =>
      -- A step that only skips the end of the pattern must not skip what stands behind the pattern.
      have hClosed : rest = [] → mid = d → d.frame.verbose = false := by
        rintro rfl rfl
        obtain ⟨rfl, rfl⟩ := hSteps.eq_of_nil
        exact (h.closed (hLeft rfl)).2.2
      obtain ⟨rfl, hTogether⟩ := hSame hClosed tail Mid rest' hTail hStep'
      obtain ⟨E, hSteps', hNested, hKeeps⟩ := ih hLeft (h.together hTogether) hRun
      obtain ⟨move, -, hEdit⟩ := hTogether
      exact ⟨E, .step hStep' hSteps', hNested, hEdit.keeps.trans hKeeps⟩

end Nested

/-- How a pattern reads inside a group of its own: with its last token, the group is open again, and
its body satisfies `P`. -/
structure Reads (P : Node → Prop) (pattern : List Char) : Prop where
  dangling_notMem : .dangling ∉ tokenize pattern
  steps : ∀ {D last : Draft} {index : Nat} {tail : List Token}, D.set? = none → D.outer ≠ [] →
    (∃ start, D.frame = { opener := .capture index, start, verbose := false }) → Closing tail →
    Steps D (tokenize pattern ++ tail) last [] →
      ∃ E, Steps D (tokenize pattern ++ tail) E tail ∧ E.set? = none ∧ E.outer = D.outer ∧
        E.frame.opener = .capture index ∧ P E.frame.body ∧ Keeps D E

theorem Reads.mono {P Q : Node → Prop} {pattern : List Char} (h : Reads P pattern)
    (hPQ : ∀ node, P node → Q node) : Reads Q pattern where
  dangling_notMem := h.dangling_notMem
  steps hSet hOuter hFrame hTail hRun := by
    obtain ⟨E, hSteps, hSet', hOuter', hOpener, hBody, hKeeps⟩ :=
      h.steps hSet hOuter hFrame hTail hRun
    exact ⟨E, hSteps, hSet', hOuter', hOpener, hPQ _ hBody, hKeeps⟩

/-- A pattern that can be read alone can be read in a group. -/
theorem Reads.of_compile {pattern : List Char} {p : Compiled} (h : compile pattern = .ok p) :
    Reads (fun _ => True) pattern := by
  obtain ⟨hNo, e, hEnd, hFinish⟩ := compile_eq_ok_iff.mp h
  obtain ⟨hSet, hOuter, -⟩ := Draft.closed_of_finish hFinish
  refine ⟨hEnd.dangling_notMem hNo, ?_⟩
  intro D last index tail hNone hOut hFrame hTail hRun
  obtain ⟨start, hFrame⟩ := hFrame
  obtain ⟨E, hSteps, hNested, hKeeps⟩ :=
    Nested.steps hEnd (fun _ => hOuter) (.start hNone hOut hFrame) hTail hRun
  obtain ⟨hOuter', hOpener, -⟩ := hNested.closed hOuter
  have hSet' : E.set? = none := by
    have := hNested.set
    rw [hSet] at this
    exact Option.map_eq_none_iff.mp this.symm
  exact ⟨E, hSteps, hSet', hOuter', hOpener, trivial, hKeeps⟩

end UriRouting.Pattern
