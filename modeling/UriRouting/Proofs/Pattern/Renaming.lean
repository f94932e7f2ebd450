import Mathlib.Data.List.Forall2
import UriRouting.Proofs.Pattern.Ends

/-! # Groups under other numbers

What a node takes depends neither on the numbers of its groups nor, unless it looks back, on what
stands in front: renumbered and moved along a text it can be left in the same ways, one by one. -/

set_option autoImplicit false

namespace UriRouting.Pattern

/-- Whether the condition depends on the text in front of the position. -/
def Anchor.looksBack : Anchor → Bool
  | lineStart | textStart | wordBoundary | noWordBoundary => true
  | lineEnd | textEnd => false

namespace Node

/-- The node with its groups, and what refers to them, under other numbers. -/
def rename (f : Nat → Nat) : Node → Node
  | empty => empty
  | code n => code n
  | notCode n => notCode n
  | any => any
  | oneOf negated items => oneOf negated items
  | anchor a => anchor a
  | seq first rest => seq (first.rename f) (rest.rename f)
  | alt left right => alt (left.rename f) (right.rename f)
  | group index body => group (f index) (body.rename f)
  | flagged on off body => flagged on off (body.rename f)
  | atomic body => atomic (body.rename f)
  | repeated greed min max body => repeated greed min max (body.rename f)
  | backref index => backref (f index)
  | lookahead negated body => lookahead negated (body.rename f)
  | lookbehind negated width body => lookbehind negated width (body.rename f)
  | conditional index yes no => conditional (f index) (yes.rename f) (no.rename f)

/-- Whether what the node takes depends on the text in front of it. -/
def looksBack : Node → Bool
  | empty | code _ | notCode _ | any | oneOf .. | backref _ => false
  | anchor a => a.looksBack
  | seq a b | alt a b | conditional _ a b => a.looksBack || b.looksBack
  | group _ body | flagged _ _ body | atomic body | repeated _ _ _ body | lookahead _ body =>
    body.looksBack
  | lookbehind .. => true

end Node

def Mark.move (m : Mark) (n : Nat) : Mark := ⟨m.entered.map (· + n), m.left.map (· + n)⟩

theorem Mark.span?_move (m : Mark) (n : Nat) :
    (m.move n).span? = m.span?.map fun (start, stop) => (start + n, stop + n) := by
  obtain ⟨_ | start, _ | stop⟩ := m <;> simp only [move, span?, Option.map_none, Option.map_some]
  by_cases h : start ≤ stop
  · rw [if_pos h, if_pos (Nat.add_le_add_right h n), Option.map_some]
  · rw [if_neg h, if_neg (mt Nat.le_of_add_le_add_right h), Option.map_none]

/-- The same state `n` characters further on, where the groups have other numbers. -/
structure Moved (f : Nat → Nat) (n : Nat) (s S : State) : Prop where
  pos : S.pos = s.pos + n
  rest : S.rest = s.rest
  marks : ∀ i, S.marks.get (f i) = (s.marks.get i).move n

namespace Moved

variable {f : Nat → Nat} {n : Nat} {s S found Found : State}

theorem set (hf : f.Injective) (h : Moved f n s S) (i : Nat) (m : Mark) :
    Moved f n { s with marks := s.marks.set i m } { S with marks := S.marks.set (f i) (m.move n) } where
  pos := h.pos
  rest := h.rest
  marks j := by
    by_cases hj : j = i
    · rw [hj, Marks.get_set_self, Marks.get_set_self]
    · rw [Marks.get_set_of_ne _ _ hj, Marks.get_set_of_ne _ _ (hf.ne hj), h.marks]

theorem enter (hf : f.Injective) (h : Moved f n s S) (i : Nat) :
    Moved f n { s with marks := s.marks.enter i s.pos }
      { S with marks := S.marks.enter (f i) S.pos } := by
  have hMark : { S.marks.get (f i) with entered := some S.pos } =
      ({ s.marks.get i with entered := some s.pos } : Mark).move n := by
    rw [h.marks, h.pos]
    rfl
  rw [Marks.enter, Marks.enter, hMark]
  exact h.set hf i _

theorem leave (hf : f.Injective) (h : Moved f n s S) (i : Nat) :
    Moved f n { s with marks := s.marks.leave i s.pos }
      { S with marks := S.marks.leave (f i) S.pos } := by
  have hMark : { S.marks.get (f i) with left := some S.pos } =
      ({ s.marks.get i with left := some s.pos } : Mark).move n := by
    rw [h.marks, h.pos]
    rfl
  rw [Marks.leave, Marks.leave, hMark]
  exact h.set hf i _

theorem withMarks (h : Moved f n s S) (hFound : Moved f n found Found) :
    Moved f n { s with marks := found.marks } { S with marks := Found.marks } :=
  ⟨h.pos, h.rest, hFound.marks⟩

theorem captured?_eq {text whole : List Char} (hText : whole.drop n = text) (h : Moved f n s S)
    (i : Nat) : S.marks.captured? whole (f i) = s.marks.captured? text i := by
  rw [Marks.captured?, Marks.captured?, h.marks, Mark.span?_move, Option.map_map]
  congr 1
  funext ⟨start, stop⟩
  simp only [Function.comp_apply]
  rw [← hText, List.drop_drop, Nat.add_comm n start, Nat.add_sub_add_right]

theorem span?_isSome (h : Moved f n s S) (i : Nat) :
    ((S.marks.get (f i)).span?).isSome = ((s.marks.get i).span?).isSome := by
  rw [h.marks, Mark.span?_move, Option.isSome_map]

theorem holds_eq {m : Mode} {whole : List Char} {a : Anchor} (h : Moved f n s S) (text : List Char)
    (hAnchor : a.looksBack = false) : a.holds m whole S = a.holds m text s := by
  cases a with
  | lineEnd => rw [Anchor.holds, Anchor.holds, h.rest]
  | textEnd => rw [Anchor.holds, Anchor.holds, h.rest]
  | _ => cases hAnchor

end Moved

/-- From related states the ends are related one by one. -/
def Alike (R : State → State → Prop) (body Body : State → List State) : Prop :=
  ∀ s S, R s S → List.Forall₂ R (body s) (Body S)

namespace Alike

variable {f : Nat → Nat} {n : Nat} {R : State → State → Prop} {body Body next Next : State → List State}

theorem stay : Alike R (fun s => [s]) fun S => [S] := fun _ _ h => .cons h .nil

theorem bind (h : Alike R body Body) (h' : Alike R next Next) :
    Alike R (fun s => (body s).flatMap next) fun S => (Body S).flatMap Next :=
  fun s S hs => List.rel_flatMap (h s S hs) fun _ _ => h' _ _

theorem append (h : Alike R body Body) (h' : Alike R next Next) :
    Alike R (fun s => body s ++ next s) fun S => Body S ++ Next S :=
  fun s S hs => List.rel_append (h s S hs) (h' s S hs)

theorem take_one (h : Alike R body Body) : Alike R (fun s => (body s).take 1) fun S => (Body S).take 1 :=
  fun s S hs => List.forall₂_take 1 (h s S hs)

theorem one (test : Char → Bool) : Alike (Moved f n) (Ends.one test) (Ends.one test) := by
  intro s S h
  rw [Ends.one, Ends.one, h.rest]
  cases s.rest with
  | nil => exact .nil
  | cons c rest =>
    dsimp only
    split
    · refine .cons ⟨?_, rfl, h.marks⟩ .nil
      rw [h.pos]
      exact Nat.add_right_comm s.pos n 1
    · exact .nil

theorem all (same : Char → Char → Bool) (taken : List Char) :
    Alike (Moved f n) (Ends.all same taken) (Ends.all same taken) := by
  induction taken with
  | nil => exact stay
  | cons c rest ih => exact (one (same c)).bind ih

theorem times (h : Alike R body Body) (count : Nat) :
    Alike R (Ends.times body count) (Ends.times Body count) := by
  induction count with
  | zero => exact stay
  | succ count ih => exact h.bind ih

/-- Positions are only compared with each other. -/
theorem more (h : Alike (Moved f n) body Body) (greed : Greed) (fuel : Nat) (left last : Option Nat) :
    Alike (Moved f n) (Ends.more greed body fuel left last)
      (Ends.more greed Body fuel left (last.map (· + n))) := by
  induction fuel generalizing left last with
  | zero => exact stay
  | succ fuel ih =>
    intro s S hs
    have hStops : (left = some 0 ∨ last.map (· + n) = some S.pos) ↔
        (left = some 0 ∨ last = some s.pos) := by
      rw [hs.pos]
      cases last <;> simp
    have hLast : some S.pos = (some s.pos).map (· + n) := by rw [hs.pos, Option.map_some]
    rw [Ends.more, Ends.more]
    by_cases hStop : left = some 0 ∨ last = some s.pos
    · rw [if_pos hStop, if_pos (hStops.mpr hStop)]
      exact stay s S hs
    rw [if_neg hStop, if_neg (mt hStops.mp hStop), hLast]
    have hOnward := h.bind (ih (left.map (· - 1)) (some s.pos))
    cases greed with
    | greedy => exact List.rel_append (hOnward s S hs) (stay s S hs)
    | «lazy» => exact .cons hs (hOnward s S hs)
    | possessive =>
      have hEnds := h s S hs
      dsimp only
      generalize body s = l at hEnds
      generalize Body S = L at hEnds
      cases hEnds with
      | nil => exact stay s S hs
      | cons hFirst _ => exact ih _ _ _ _ hFirst

theorem repeated (h : Alike (Moved f n) body Body) (greed : Greed) (min : Nat) (max : Option Nat) :
    Alike (Moved f n) (Ends.repeated greed body min max) (Ends.repeated greed Body min max) := by
  have hMore : Alike (Moved f n)
      (fun s => Ends.more greed body (s.rest.length + 2) (max.map (· - min)) none s)
      fun S => Ends.more greed Body (S.rest.length + 2) (max.map (· - min)) none S := by
    intro s S hs
    dsimp only
    rw [hs.rest]
    exact h.more greed _ _ none s S hs
  cases greed with
  | greedy => exact (h.times min).bind hMore
  | «lazy» => exact (h.times min).bind hMore
  | possessive => exact (h.take_one.times min).bind hMore

theorem lookahead (h : Alike (Moved f n) body Body) (negated : Bool) :
    Alike (Moved f n) (fun s => Ends.assertion negated (body s).head? s)
      fun S => Ends.assertion negated (Body S).head? S := by
  intro s S hs
  have hEnds := h s S hs
  dsimp only
  generalize body s = l at hEnds
  generalize Body S = L at hEnds
  cases hEnds with
  | nil =>
    cases negated with
    | false => exact .nil
    | true => exact stay s S hs
  | cons hFirst _ =>
    cases negated with
    | false => exact .cons (hs.withMarks hFirst) .nil
    | true => exact .nil

theorem exists_rest_iff (h : Alike (Moved f n) body Body) {s S : State} (hs : Moved f n s S)
    (v : List Char) : (∃ e ∈ body s, e.rest = v) ↔ ∃ e ∈ Body S, e.rest = v := by
  have hEnds := h s S hs
  generalize body s = l at hEnds
  generalize Body S = L at hEnds
  induction hEnds with
  | nil => rfl
  | cons hFirst _ ih =>
    rw [List.exists_mem_cons_iff, List.exists_mem_cons_iff, hFirst.rest]
    exact or_congr_right ih

end Alike

/-- A node that does not look back can be left in the same ways wherever its text stands, and whatever
the numbers of its groups are. -/
theorem Node.ends_rename {f : Nat → Nat} (hf : f.Injective) {n : Nat} {text whole : List Char}
    (hText : whole.drop n = text) {node : Node} (hNode : node.looksBack = false) (m : Mode) :
    Alike (Moved f n) (node.ends text m) ((node.rename f).ends whole m) := by
  induction node generalizing m with
  | empty => exact .stay
  | code c => exact .one _
  | notCode c => exact .one _
  | any => exact .one _
  | oneOf negated items => exact .one _
  | anchor a =>
    intro s S hs
    rw [ends, rename, ends, hs.holds_eq text hNode]
    split
    · exact .cons hs .nil
    · exact .nil
  | seq first rest ihFirst ihRest =>
    obtain ⟨hFirst, hRest⟩ := Bool.or_eq_false_iff.mp hNode
    exact (ihFirst hFirst m).bind (ihRest hRest m)
  | alt left right ihLeft ihRight =>
    obtain ⟨hLeft, hRight⟩ := Bool.or_eq_false_iff.mp hNode
    exact (ihLeft hLeft m).append (ihRight hRight m)
  | group index body ih =>
    intro s S hs
    exact List.rel_map (fun _ _ h => h.leave hf index) (ih hNode m _ _ (hs.enter hf index))
  | flagged on off body ih => exact ih hNode (m.change on off)
  | atomic body ih => exact (ih hNode m).take_one
  | repeated greed min max body ih => exact (ih hNode m).repeated greed min max
  | backref index =>
    intro s S hs
    rw [ends, rename, ends, hs.captured?_eq hText]
    cases s.marks.captured? text index with
    | none => exact .nil
    | some taken => exact Alike.all _ taken s S hs
  | lookahead negated body ih => exact (ih hNode m).lookahead negated
  | lookbehind negated width body => cases hNode
  | conditional index yes no ihYes ihNo =>
    obtain ⟨hYes, hNo⟩ := Bool.or_eq_false_iff.mp hNode
    intro s S hs
    rw [ends, rename, ends, hs.span?_isSome]
    split
    · exact ihYes hYes m s S hs
    · exact ihNo hNo m s S hs

end UriRouting.Pattern
