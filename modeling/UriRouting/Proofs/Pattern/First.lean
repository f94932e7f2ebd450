import UriRouting.Proofs.Pattern.Frame

/-! # The first way to match

Alternatives are tried in order, and the first way to match may take less than a later one would. What a
node takes first is found along the node: an alternative that refuses the text at its start is passed over,
and so is a part that may be left out. In a sequence whose nodes each take a text of their own first, every
group takes its text. -/

set_option autoImplicit false

namespace UriRouting.Pattern.Node

/-- Where `u` stands in front of `v`, the first way to match takes just `u`. -/
def TakesFirst (m : Mode) (node : Node) (u v : List Char) : Prop :=
  ∀ text pos marks, ∃ after, (node.ends text m ⟨pos, u ++ v, marks⟩).head? = some ⟨pos + u.length, v, after⟩

/-- There is no way to match. -/
def Refuses (m : Mode) (node : Node) (v : List Char) : Prop :=
  ∀ text pos marks, node.ends text m ⟨pos, v, marks⟩ = []

/-- A node that is tried before it is left out. -/
def optional (body : Node) : Node := .repeated .greedy 0 (some 1) body

theorem ends_optional (text : List Char) (m : Mode) (body : Node) (s : State) :
    (optional body).ends text m s = body.ends text m s ++ [s] := by
  have hOnce : (optional body).ends text m s =
      Ends.more .greedy (body.ends text m) (s.rest.length + 2) (some 1) none s := List.flatMap_singleton _ _
  have hStop : Ends.more .greedy (body.ends text m) (s.rest.length + 1) (some 0) (some s.pos) = fun s => [s] :=
    funext fun _ => if_pos (Or.inl rfl)
  rw [hOnce, Ends.more, if_neg (by simp)]
  simp only [Option.map_some, Nat.sub_self, hStop, List.flatMap_singleton']

section Rules

variable {m : Mode} {a b body : Node} {c : Char} {u u' v w : List Char}

namespace Refuses

theorem one {test : Char → Bool} (h : ∀ c ∈ v.head?, test c = false) (pos : Nat) (marks : Marks) :
    Ends.one test ⟨pos, v, marks⟩ = [] := by
  cases v with
  | nil => rfl
  | cons c v => exact if_neg (Bool.eq_false_iff.mp (h c rfl))

theorem code {n : Nat} (h : ∀ c ∈ v.head?, m.sameCode n c = false) : Refuses m (.code n) v :=
  fun _ pos marks => one h pos marks

theorem oneOf {negated : Bool} {items : List SetItem} (h : ∀ c ∈ v.head?, m.inSet c negated items = false) :
    Refuses m (.oneOf negated items) v := fun _ pos marks => one h pos marks

theorem seq (h : Refuses m a v) : Refuses m (.seq a b) v := by
  intro text pos marks
  rw [ends, h text pos marks, List.flatMap_nil]

theorem skip (h : Refuses m a v) (h' : Refuses m b v) : Refuses m (.seq (optional a) b) v := by
  intro text pos marks
  rw [ends, ends_optional, h text pos marks, List.nil_append, List.flatMap_singleton, h' text pos marks]

end Refuses

namespace TakesFirst

theorem empty : TakesFirst m .empty [] v := fun _ _ marks => ⟨marks, rfl⟩

theorem one {test : Char → Bool} (h : test c = true) (pos : Nat) (marks : Marks) :
    (Ends.one test ⟨pos, c :: v, marks⟩).head? = some ⟨pos + 1, v, marks⟩ := by
  rw [Ends.one]
  exact congrArg List.head? (if_pos h)

theorem code {n : Nat} (h : m.sameCode n c = true) : TakesFirst m (.code n) [c] v :=
  fun _ pos marks => ⟨marks, one h pos marks⟩

theorem oneOf {negated : Bool} {items : List SetItem} (h : m.inSet c negated items = true) :
    TakesFirst m (.oneOf negated items) [c] v := fun _ pos marks => ⟨marks, one h pos marks⟩

theorem seq (h : TakesFirst m a u (u' ++ v)) (h' : TakesFirst m b u' v) :
    TakesFirst m (.seq a b) (u ++ u') v := by
  intro text pos marks
  obtain ⟨between, hFirst⟩ := h text pos marks
  obtain ⟨after, hRest⟩ := h' text (pos + u.length) between
  refine ⟨after, ?_⟩
  obtain ⟨others, hEnds⟩ := List.head?_eq_some_iff.mp hFirst
  rw [List.append_assoc, ends, hEnds, List.flatMap_cons, List.head?_append, hRest, List.length_append,
    ← Nat.add_assoc]
  rfl

theorem cons (h : TakesFirst m a [c] (u ++ v)) (h' : TakesFirst m b u v) : TakesFirst m (.seq a b) (c :: u) v :=
  seq h h'

theorem last (h : TakesFirst m a u v) : TakesFirst m (.seq a .empty) u v := by
  have hSeq : TakesFirst m (.seq a .empty) (u ++ []) v := seq h empty
  rwa [List.append_nil] at hSeq

theorem left (h : TakesFirst m a u v) : TakesFirst m (.alt a b) u v := by
  intro text pos marks
  obtain ⟨after, hHead⟩ := h text pos marks
  exact ⟨after, by rw [ends, List.head?_append, hHead]; rfl⟩

theorem right (h : Refuses m a (u ++ v)) (h' : TakesFirst m b u v) : TakesFirst m (.alt a b) u v := by
  intro text pos marks
  rw [ends, h text pos marks, List.nil_append]
  exact h' text pos marks

theorem optional (h : TakesFirst m body u v) : TakesFirst m (Node.optional body) u v := by
  intro text pos marks
  obtain ⟨after, hHead⟩ := h text pos marks
  exact ⟨after, by rw [ends_optional, List.head?_append, hHead]; rfl⟩

theorem skipped (h : Refuses m body v) : TakesFirst m (Node.optional body) [] v := by
  intro text pos marks
  rw [ends_optional, List.nil_append, h text pos marks]
  exact ⟨marks, rfl⟩

theorem skip (h : Refuses m a (u ++ v)) (h' : TakesFirst m b u v) :
    TakesFirst m (.seq (Node.optional a) b) u v := seq (skipped h) h'

theorem group (h : TakesFirst m body u v) (index : Nat) : TakesFirst m (.group index body) u v := by
  intro text pos marks
  obtain ⟨after, hHead⟩ := h text pos (marks.enter index pos)
  exact ⟨after.leave index (pos + u.length), by rw [ends, List.head?_map, hHead]; rfl⟩

end TakesFirst

end Rules

/-! ## Nodes and their texts in a row -/

/-- Each node takes its text first in front of the texts of the others. -/
def TakesEach (m : Mode) : List (Node × List Char) → Prop
  | [] => True
  | (node, u) :: rest => TakesFirst m node u (rest.flatMap Prod.snd) ∧ TakesEach m rest

section Parts

variable {m : Mode} {parts : List (Node × List Char)}

theorem TakesEach.exists_end (h : TakesEach m parts)
    (hNodup : (ofSequence (parts.map Prod.fst)).indices.Nodup) {text : List Char} {pos : Nat} {marks : Marks}
    (hs : Located text ⟨pos, parts.flatMap Prod.snd, marks⟩) :
    ∃ e, ((ofSequence (parts.map Prod.fst)).ends text m ⟨pos, parts.flatMap Prod.snd, marks⟩).head? = some e ∧
      e.rest = [] ∧ ∀ index body u, (.group index body, u) ∈ parts → e.marks.captured? text index = some u := by
  induction parts generalizing pos marks with
  | nil => exact ⟨_, rfl, rfl, fun _ _ _ hMem => absurd hMem List.not_mem_nil⟩
  | cons part rest ih =>
    obtain ⟨node, u⟩ := part
    obtain ⟨hFirst, hEach⟩ := h
    obtain ⟨between, hHead⟩ := hFirst text pos marks
    obtain ⟨others, hEnds⟩ := List.head?_eq_some_iff.mp hHead
    have hTaken : ⟨pos + u.length, rest.flatMap Prod.snd, between⟩ ∈
        node.ends text m ⟨pos, u ++ rest.flatMap Prod.snd, marks⟩ := hEnds ▸ List.mem_cons_self
    have hReached := extends_of_mem_ends hTaken hs
    obtain ⟨hOwn, hOthers, hApart⟩ := List.nodup_append.mp hNodup
    obtain ⟨e, hRest, hDone, hCaptured⟩ := ih hEach hOthers hReached.located
    have hAfter := extends_of_mem_ends (List.mem_of_mem_head? hRest) hReached.located
    refine ⟨e, ?_, hDone, fun index body w hMem => ?_⟩
    · rw [List.map_cons, ends_ofSequence_cons, List.flatMap_cons, hEnds, List.flatMap_cons, List.head?_append,
        hRest]
      rfl
    · rcases List.mem_cons.mp hMem with hSelf | hMem
      · -- The nodes behind a group do not touch what it has taken.
        obtain ⟨rfl, rfl⟩ := Prod.mk.inj hSelf
        have hInner : index ∉ body.indices := (List.nodup_cons.mp hOwn).1
        have hOuter : index ∉ (ofSequence (rest.map Prod.fst)).indices := fun hIndex =>
          hApart index List.mem_cons_self index hIndex rfl
        have hText := captured?_of_mem_ends_group hTaken hs hInner
        rw [← hs, Nat.add_sub_cancel_left] at hText
        rw [Marks.captured?, hAfter.kept index hOuter, ← Marks.captured?, hText]
        exact congrArg some List.take_left
      · exact hCaptured index body w hMem

/-- The first match takes all of the texts, and each group its own. -/
theorem TakesEach.firstMatch? (h : TakesEach m parts)
    (hNodup : (ofSequence (parts.map Prod.fst)).indices.Nodup) (names : List (String × Nat)) :
    ∃ marks, Compiled.firstMatch? ⟨ofSequence (parts.map Prod.fst), m, names⟩ (parts.flatMap Prod.snd) =
        some marks ∧ ∀ index body u, (.group index body, u) ∈ parts →
          marks.captured? (parts.flatMap Prod.snd) index = some u := by
  have hStart : Located (parts.flatMap Prod.snd) ⟨0, parts.flatMap Prod.snd, []⟩ := rfl
  obtain ⟨e, hHead, hDone, hCaptured⟩ := h.exists_end hNodup hStart
  refine ⟨e.marks, ?_, hCaptured⟩
  rw [Compiled.firstMatch?, (tracks _ _ _).apply_some, hHead, Option.bind_some, hDone]
  rfl

end Parts

end UriRouting.Pattern.Node
