import UriRouting.Proofs.Pattern.Ends
import UriRouting.Proofs.Pattern.Edit

/-! # What matching changes

A node only moves forward in the text, and it only touches the marks of its own groups. So a group
that stands for itself in a pattern keeps what it took, whatever is matched behind it. -/

set_option autoImplicit false

namespace UriRouting.Pattern

/-- What is left to match is the text from the position on. -/
def Located (text : List Char) (s : State) : Prop := s.rest = text.drop s.pos

structure Extends (text : List Char) (indices : List Nat) (s e : State) : Prop where
  pos_le : s.pos ≤ e.pos
  located : Located text e
  kept : ∀ i, i ∉ indices → e.marks.get i = s.marks.get i

namespace Extends

variable {text : List Char} {indices more : List Nat} {s t u : State}

theorem refl (hs : Located text s) : Extends text indices s s := ⟨Nat.le_refl _, hs, fun _ _ => rfl⟩

theorem trans (h : Extends text indices s t) (h' : Extends text indices t u) :
    Extends text indices s u where
  pos_le := Nat.le_trans h.pos_le h'.pos_le
  located := h'.located
  kept i hi := (h'.kept i hi).trans (h.kept i hi)

theorem mono (h : Extends text indices s t) (hSub : indices ⊆ more) : Extends text more s t where
  pos_le := h.pos_le
  located := h.located
  kept i hi := h.kept i fun hMem => hi (hSub hMem)

theorem rest_eq (h : Extends text indices s t) (hs : Located text s) :
    s.rest = (text.drop s.pos).take (t.pos - s.pos) ++ t.rest := by
  have hDrop : t.rest = (text.drop s.pos).drop (t.pos - s.pos) := by
    rw [h.located, List.drop_drop, Nat.add_sub_cancel' h.pos_le]
  rw [hDrop, List.take_append_drop, hs]

end Extends

/-- A relation between where a matcher starts and where it ends. -/
def Relates (R : State → State → Prop) (ends : State → List State) : Prop :=
  ∀ s, ∀ e ∈ ends s, R s e

namespace Relates

variable {R : State → State → Prop} {body : State → List State}

theorem take_one (h : Relates R body) : Relates R fun s => (body s).take 1 :=
  fun s e he => h s e (List.mem_of_mem_take he)

variable (hRefl : ∀ s, R s s) (hTrans : ∀ s t u, R s t → R t u → R s u)

include hRefl hTrans

theorem times (h : Relates R body) (n : Nat) : Relates R (Ends.times body n) := by
  induction n with
  | zero =>
    intro s e he
    rw [Ends.times, List.mem_singleton] at he
    exact he ▸ hRefl s
  | succ n ih =>
    intro s e he
    rw [Ends.times, List.mem_flatMap] at he
    obtain ⟨t, ht, he⟩ := he
    exact hTrans s t e (h s t ht) (ih t e he)

theorem more (h : Relates R body) (greed : Greed) (fuel : Nat) (left last : Option Nat) :
    Relates R (Ends.more greed body fuel left last) := by
  induction fuel generalizing left last with
  | zero =>
    intro s e he
    rw [Ends.more, List.mem_singleton] at he
    exact he ▸ hRefl s
  | succ fuel ih =>
    intro s e he
    have hOnward : ∀ t ∈ body s,
        e ∈ Ends.more greed body fuel (left.map (· - 1)) (some s.pos) t → R s e :=
      fun t ht he => hTrans s t e (h s t ht) (ih _ _ t e he)
    rw [Ends.more] at he
    split at he
    · exact List.mem_singleton.mp he ▸ hRefl s
    · cases greed with
      | greedy =>
        rcases List.mem_append.mp he with he | he
        · obtain ⟨t, ht, he⟩ := List.mem_flatMap.mp he
          exact hOnward t ht he
        · exact List.mem_singleton.mp he ▸ hRefl s
      | «lazy» =>
        rcases List.mem_cons.mp he with rfl | he
        · exact hRefl e
        · obtain ⟨t, ht, he⟩ := List.mem_flatMap.mp he
          exact hOnward t ht he
      | possessive =>
        cases hHead : (body s).head? with
        | none =>
          simp only [hHead, Option.map_none, Option.getD_none, List.mem_singleton] at he
          exact he ▸ hRefl s
        | some t =>
          simp only [hHead, Option.map_some, Option.getD_some] at he
          exact hOnward t (List.mem_of_mem_head? hHead) he

theorem repeated (h : Relates R body) (greed : Greed) (min : Nat) (max : Option Nat) :
    Relates R (Ends.repeated greed body min max) := by
  intro s e he
  cases greed with
  | greedy =>
    obtain ⟨t, ht, he⟩ := List.mem_flatMap.mp he
    exact hTrans s t e (h.times hRefl hTrans min s t ht) (h.more hRefl hTrans _ _ _ _ t e he)
  | «lazy» =>
    obtain ⟨t, ht, he⟩ := List.mem_flatMap.mp he
    exact hTrans s t e (h.times hRefl hTrans min s t ht) (h.more hRefl hTrans _ _ _ _ t e he)
  | possessive =>
    obtain ⟨t, ht, he⟩ := List.mem_flatMap.mp he
    exact hTrans s t e (h.take_one.times hRefl hTrans min s t ht)
      (h.more hRefl hTrans _ _ _ _ t e he)

end Relates

theorem Ends.eq_of_mem_one {test : Char → Bool} {s e : State} (he : e ∈ Ends.one test s) :
    ∃ c rest, test c = true ∧ s.rest = c :: rest ∧ e = { s with pos := s.pos + 1, rest } := by
  rw [Ends.one] at he
  split at he
  · rename_i c rest hRest
    split at he
    · rename_i hTest
      exact ⟨c, rest, hTest, hRest, List.mem_singleton.mp he⟩
    · cases he
  · cases he

/-- Steps of a matcher from a located state, as a relation that can be repeated. -/
def Reaches (text : List Char) (indices : List Nat) (s e : State) : Prop :=
  Located text s → Extends text indices s e

namespace Reaches

variable {text : List Char} {indices : List Nat}

theorem refl (s : State) : Reaches text indices s s := Extends.refl

theorem trans (s t u : State) (h : Reaches text indices s t) (h' : Reaches text indices t u) :
    Reaches text indices s u := fun hs => (h hs).trans (h' (h hs).located)

theorem one (test : Char → Bool) : Relates (Reaches text indices) (Ends.one test) := by
  intro s e he hs
  obtain ⟨c, rest, -, hRest, rfl⟩ := Ends.eq_of_mem_one he
  refine ⟨Nat.le_succ _, ?_, fun _ _ => rfl⟩
  have hDrop : text.drop (s.pos + 1) = (text.drop s.pos).tail := by simp
  rw [Located, hDrop, ← hs, hRest, List.tail_cons]

theorem all (same : Char → Char → Bool) (taken : List Char) :
    Relates (Reaches text indices) (Ends.all same taken) := by
  induction taken with
  | nil =>
    intro s e he
    obtain rfl := List.mem_singleton.mp he
    exact refl e
  | cons c rest ih =>
    intro s e he
    obtain ⟨t, ht, he⟩ := List.mem_flatMap.mp he
    exact trans s t e (one _ s t ht) (ih t e he)

end Reaches

theorem Ends.extends_of_mem_assertion {text : List Char} {indices : List Nat} {negated : Bool}
    {found? : Option State} {s e : State} (hs : Located text s)
    (hFound : ∀ found ∈ found?, ∀ i, i ∉ indices → found.marks.get i = s.marks.get i)
    (he : e ∈ Ends.assertion negated found? s) : Extends text indices s e := by
  cases found? with
  | none =>
    cases negated with
    | false => cases he
    | true =>
      obtain rfl := List.mem_singleton.mp he
      exact Extends.refl hs
  | some found =>
    cases negated with
    | false =>
      obtain rfl := List.mem_singleton.mp he
      exact ⟨Nat.le_refl _, hs, hFound found rfl⟩
    | true => cases he

namespace Node

theorem extends_of_mem_ends {text : List Char} {m : Mode} {node : Node} {s e : State}
    (he : e ∈ ends text m node s) (hs : Located text s) : Extends text node.indices s e := by
  induction node generalizing m s e with
  | empty =>
    obtain rfl := List.mem_singleton.mp he
    exact Extends.refl hs
  | code n => exact Reaches.one _ s e he hs
  | notCode n => exact Reaches.one _ s e he hs
  | any => exact Reaches.one _ s e he hs
  | oneOf negated items => exact Reaches.one _ s e he hs
  | anchor a =>
    rw [ends] at he
    split at he
    · obtain rfl := List.mem_singleton.mp he
      exact Extends.refl hs
    · cases he
  | seq first rest ihFirst ihRest =>
    obtain ⟨t, ht, he⟩ := List.mem_flatMap.mp he
    have hFirst := ihFirst ht hs
    exact (hFirst.mono (List.subset_append_left _ _)).trans
      ((ihRest he hFirst.located).mono (List.subset_append_right _ _))
  | alt left right ihLeft ihRight =>
    rcases List.mem_append.mp he with he | he
    · exact (ihLeft he hs).mono (List.subset_append_left _ _)
    · exact (ihRight he hs).mono (List.subset_append_right _ _)
  | group index body ih =>
    obtain ⟨t, ht, rfl⟩ := List.mem_map.mp he
    have hBody := ih ht hs
    refine ⟨hBody.pos_le, hBody.located, fun i hi => ?_⟩
    obtain ⟨hIndex, hInner⟩ := not_or.mp (mt List.mem_cons.mpr hi)
    -- Entering and leaving the group touch no mark but its own.
    calc
      (t.marks.leave index t.pos).get i = t.marks.get i := Marks.get_set_of_ne _ _ hIndex
      _ = (s.marks.enter index s.pos).get i := hBody.kept i hInner
      _ = s.marks.get i := Marks.get_set_of_ne _ _ hIndex
  | flagged on off body ih => exact ih (m := m.change on off) he hs
  | atomic body ih => exact ih (List.mem_of_mem_take he) hs
  | repeated greed min max body ih =>
    have hBody : Relates (Reaches text body.indices) (ends text m body) := fun _ _ he hs => ih he hs
    exact hBody.repeated Reaches.refl Reaches.trans greed min max s e he hs
  | backref index =>
    rw [ends] at he
    split at he
    · exact Reaches.all _ _ s e he hs
    · cases he
  | lookahead negated body ih =>
    refine Ends.extends_of_mem_assertion hs (fun found hFound => ?_) he
    exact (ih (List.mem_of_mem_head? hFound) hs).kept
  | lookbehind negated width body ih =>
    refine Ends.extends_of_mem_assertion hs (fun found hFound => ?_) he
    -- The state that it looks from is located again, though it lies behind.
    split at hFound
    · exact (ih (List.mem_of_mem_head? hFound) rfl).kept
    · cases hFound
  | conditional index yes no ihYes ihNo =>
    rw [ends] at he
    split at he
    · exact (ihYes he hs).mono (List.subset_append_left _ _)
    · exact (ihNo he hs).mono (List.subset_append_right _ _)

/-- A group takes the text between where it is entered and where it is left. -/
theorem captured?_of_mem_ends_group {text : List Char} {m : Mode} {index : Nat} {body : Node}
    {s e : State} (he : e ∈ ends text m (group index body) s) (hs : Located text s)
    (hIndex : index ∉ body.indices) :
    e.marks.captured? text index = some ((text.drop s.pos).take (e.pos - s.pos)) := by
  obtain ⟨t, ht, rfl⟩ := List.mem_map.mp he
  have hBody := extends_of_mem_ends ht hs
  have hEntered : (t.marks.get index).entered = some s.pos := by
    rw [hBody.kept index hIndex]
    exact congrArg Mark.entered (Marks.get_set_self _ _ _)
  have hMark : ((t.marks.leave index t.pos).get index).span? = some (s.pos, t.pos) := by
    rw [Marks.leave, Marks.get_set_self, Mark.span?]
    simp only [hEntered]
    exact if_pos hBody.pos_le
  rw [Marks.captured?, hMark]
  rfl

end Node

end UriRouting.Pattern
