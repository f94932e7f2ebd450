import UriRouting.Proofs.Pattern.Language

/-! # Longest first

A greedy repetition is tried with as many characters as it can take, then with one less, and so on. So
what it takes in a match is the longest of its texts behind which the rest can still be matched. -/

set_option autoImplicit false

namespace UriRouting.Pattern

/-- Ends behind longer texts come before those behind shorter ones. -/
def LongestFirst (ends : State → List State) : Prop :=
  ∀ s, (ends s).Pairwise fun e e' => e.rest.length < e'.rest.length

theorem Ends.one_eq (test : Char → Bool) (s : State) :
    Ends.one test s = [] ∨ ∃ e, Ends.one test s = [e] ∧ e.rest.length < s.rest.length := by
  unfold Ends.one
  split
  · rename_i c rest hRest
    split
    · refine Or.inr ⟨_, rfl, ?_⟩
      rw [hRest]
      exact Nat.lt_succ_self _
    · exact Or.inl rfl
  · exact Or.inl rfl

namespace LongestFirst

theorem one (test : Char → Bool) : LongestFirst (Ends.one test) := by
  intro s
  rcases Ends.one_eq test s with hOne | ⟨e, hOne, -⟩ <;> rw [hOne]
  · exact .nil
  · exact List.pairwise_singleton _ _

theorem more (test : Char → Bool) (fuel : Nat) (left last : Option Nat) (s : State) :
    (Ends.more .greedy (Ends.one test) fuel left last s).Pairwise
        (fun e e' => e.rest.length < e'.rest.length) ∧
      ∀ e ∈ Ends.more .greedy (Ends.one test) fuel left last s, e.rest.length ≤ s.rest.length := by
  have hStop (s : State) : [s].Pairwise (fun e e' => e.rest.length < e'.rest.length) ∧
      ∀ e ∈ [s], e.rest.length ≤ s.rest.length :=
    ⟨List.pairwise_singleton _ _, List.forall_mem_singleton.mpr (Nat.le_refl _)⟩
  induction fuel generalizing left last s with
  | zero => exact hStop s
  | succ fuel ih =>
    rw [Ends.more]
    split
    · exact hStop s
    · rcases Ends.one_eq test s with hOne | ⟨t, hOne, hLess⟩ <;> simp only [hOne]
      · exact hStop s
      · -- To stop here comes last and leaves more than to take another character.
        rw [List.flatMap_singleton]
        obtain ⟨hPairwise, hLe⟩ := ih (left.map (· - 1)) (some s.pos) t
        have hBack := fun e he => Nat.lt_of_le_of_lt (hLe e he) hLess
        constructor
        · refine List.pairwise_append.mpr ⟨hPairwise, List.pairwise_singleton _ _, fun e he => ?_⟩
          exact List.forall_mem_singleton.mpr (hBack e he)
        · refine List.forall_mem_append.mpr ⟨fun e he => Nat.le_of_lt (hBack e he), ?_⟩
          exact List.forall_mem_singleton.mpr (Nat.le_refl _)

theorem repeated (test : Char → Bool) : LongestFirst (Ends.repeated .greedy (Ends.one test) 0 none) := by
  intro s
  have hEnds : Ends.repeated .greedy (Ends.one test) 0 none s =
      Ends.more .greedy (Ends.one test) (s.rest.length + 2) none none s := List.flatMap_singleton _ _
  rw [hEnds]
  exact (more test _ _ _ s).1

theorem group {ends : State → List State} (h : LongestFirst ends) (index : Nat) :
    LongestFirst fun s => (ends { s with marks := s.marks.enter index s.pos }).map fun e =>
      { e with marks := e.marks.leave index e.pos } :=
  fun _ => List.pairwise_map.mpr (h _)

end LongestFirst

namespace Node

/-- Longer texts are tried before shorter ones, in the mode that no flag has changed. -/
def Greedy (node : Node) : Prop := ∀ text, LongestFirst (node.ends text {})

theorem Greedy.group {body : Node} (h : body.Greedy) (index : Nat) : (Node.group index body).Greedy :=
  fun text => (h text).group index

theorem Greedy.ofSequence_single {node : Node} (h : node.Greedy) : (Node.ofSequence [node]).Greedy := by
  intro text s
  have hEnds : (Node.ofSequence [node]).ends text {} s = node.ends text {} s := List.flatMap_singleton' _
  rw [hEnds]
  exact h text s

/-- Of the texts behind which the rest can be matched to the end the longest is taken. -/
theorem Greedy.exists_longest {node rest : Node} {L M : Language Char} (hGreedy : node.Greedy)
    (hNode : node.Denotes L) (hRest : rest.Denotes M) {text : List Char} {s e : State}
    (hs : Located text s)
    (he : ((Node.seq node rest).ends text {} s).find? (·.rest.isEmpty) = some e) :
    ∃ t ∈ node.ends text {} s, ∃ v ∈ L, s.rest = v ++ t.rest ∧
      (rest.ends text {} t).find? (·.rest.isEmpty) = some e ∧
      ∀ u ∈ L, ∀ w ∈ M, s.rest = u ++ w → u.length ≤ v.length := by
  have hFound : (node.ends text {} s).findSome? (fun t =>
      (rest.ends text {} t).find? (·.rest.isEmpty)) = some e := by
    rw [← List.find?_flatMap]
    exact he
  obtain ⟨front, t, back, hEnds, hTail, hFront⟩ := List.findSome?_eq_some_iff.mp hFound
  have ht : t ∈ node.ends text {} s := hEnds ▸ List.mem_append_right front List.mem_cons_self
  obtain ⟨v, hv, hSplit⟩ := hNode.within text s hs t ht
  refine ⟨t, ht, v, hv, hSplit, hTail, fun u hu w hw hOther => ?_⟩
  obtain ⟨t', ht', rfl⟩ := ((hNode text).exists_end_iff s w hs).mpr ⟨u, hu, hOther⟩
  -- The end behind the other text does not come before the one taken, since the rest matches behind it.
  have hNotFront : t' ∉ front := by
    intro hMem
    obtain ⟨e', he', hEnd⟩ := ((hRest text).exists_end_iff t' []
      ((hNode text).located s t' hs ht')).mpr ⟨t'.rest, hw, (List.append_nil _).symm⟩
    have hNone := List.find?_eq_none.mp (hFront t' hMem) e' he'
    rw [hEnd] at hNone
    exact hNone rfl
  have hLess : t.rest.length ≤ t'.rest.length := by
    have hPairwise := hGreedy text s
    rw [hEnds] at hPairwise ht'
    obtain ⟨hLater, -⟩ := List.pairwise_cons.mp (List.pairwise_append.mp hPairwise).2.1
    rcases List.mem_cons.mp ((List.mem_append.mp ht').resolve_left hNotFront) with rfl | hBack
    · exact Nat.le_refl _
    · exact Nat.le_of_lt (hLater t' hBack)
  have hLength := congrArg List.length (hOther.symm.trans hSplit)
  rw [List.length_append, List.length_append] at hLength
  omega

end Node

end UriRouting.Pattern
