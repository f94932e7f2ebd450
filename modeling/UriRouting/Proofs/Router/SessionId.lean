import UriRouting.Pattern.Reader
import UriRouting.Proofs.Outcome
import UriRouting.Proofs.Pattern.Ends
import UriRouting.Router.Path

/-! # Session ids in one scan

The pattern of a session id is searched for at every place of a text. The search comes to one scan, which
at each place reads a marker and then looks whether the line that goes on there is the last one. -/

set_option autoImplicit false

namespace UriRouting.Router

open Pattern (Mode Node State Marks)

example : Pattern.compile "(?i);jsessionid=.*$".toList = .ok sessionPattern := by decide +kernel

/-- The text behind a marker in any case at the beginning. -/
def afterMarker? : List Char → List Char → Option (List Char)
  | [], s => some s
  | _ :: _, [] => none
  | m :: marker, c :: s =>
    if Unicode.equalUpToCase m.toNat c.toNat then afterMarker? marker s else none

/-- What is left of a session id that reaches to the end of the text, or to a line break there. -/
def sessionEnd? (s : List Char) : Option (List Char) :=
  match s.dropWhile (· ≠ '\n') with
  | [] => some []
  | ['\n'] => some ['\n']
  | _ => none

def scanSession : List Char → List Char
  | [] => []
  | c :: rest =>
    match (afterMarker? sessionMarker (c :: rest)).bind sessionEnd? with
    | some left => left
    | none => c :: scanSession rest

theorem ends_marker (text marker s : List Char) (pos : Nat) (marks : Marks) :
    (Node.ofSequence (marker.map fun c => .code c.toNat)).ends text { ignoreCase := true } ⟨pos, s, marks⟩ =
      ((afterMarker? marker s).map fun rest => (⟨pos + marker.length, rest, marks⟩ : State)).toList := by
  induction marker generalizing s pos with
  | nil => rfl
  | cons c marker ih =>
    rw [List.map_cons, Node.ends_ofSequence_cons, Node.ends]
    cases s with
    | nil => rfl
    | cons d s =>
      have hTest : Mode.sameCode { ignoreCase := true } c.toNat d =
          Unicode.equalUpToCase c.toNat d.toNat := rfl
      rw [Pattern.Ends.one, afterMarker?]
      dsimp only
      rw [hTest]
      split
      · rw [List.flatMap_singleton, ih, List.length_cons, Nat.add_right_comm, Nat.add_assoc]
      · rfl

/-- The text itself if it is empty or a last line break. -/
def atLineEnd? (s : List Char) : Option (List Char) := if s = [] ∨ s = ['\n'] then some s else none

theorem sessionEnd?_cons {c : Char} (h : c ≠ '\n') (s : List Char) : sessionEnd? (c :: s) = sessionEnd? s := by
  have hDrop : (c :: s).dropWhile (· ≠ '\n') = s.dropWhile (· ≠ '\n') :=
    List.dropWhile_cons_of_pos (p := fun d => decide (d ≠ '\n')) (decide_eq_true h)
  rw [sessionEnd?, hDrop, ← sessionEnd?]

theorem sessionEnd?_newline (s : List Char) : sessionEnd? ('\n' :: s) = atLineEnd? ('\n' :: s) := by
  cases s <;> simp [sessionEnd?, atLineEnd?]

theorem head?_ends_lineEnd (text : List Char) (e : State) :
    ((Node.ofSequence [.anchor .lineEnd]).ends text { ignoreCase := true } e).head?.map State.rest =
      atLineEnd? e.rest := by
  have hHolds : Pattern.Anchor.holds { ignoreCase := true } text e .lineEnd =
      decide (e.rest = [] ∨ e.rest = ['\n']) := by
    rw [Pattern.Anchor.holds, Bool.false_and, Bool.or_false, Bool.decide_or, beq_eq_decide]
    cases e.rest <;> rfl
  rw [Node.ends_ofSequence_cons, Node.ends, hHolds, atLineEnd?]
  by_cases h : e.rest = [] ∨ e.rest = ['\n']
  · rw [if_pos (decide_eq_true h), if_pos h]
    rfl
  · rw [if_neg (by simpa using h), if_neg h]
    rfl

theorem findSome?_line (text s : List Char) (pos fuel : Nat) (last : Option Nat) (marks : Marks)
    (hFuel : s.length < fuel) (hLast : ∀ n ∈ last, n < pos) :
    (Pattern.Ends.more .greedy (Node.any.ends text { ignoreCase := true }) fuel none last
        ⟨pos, s, marks⟩).findSome? (fun e => atLineEnd? e.rest) = sessionEnd? s := by
  -- In front of a line break the line cannot go on, and at any other character it cannot end.
  induction s generalizing pos fuel last with
  | nil =>
    obtain ⟨fuel, rfl⟩ := Nat.exists_eq_add_one_of_ne_zero (Nat.ne_of_gt hFuel)
    rw [Pattern.Ends.more]
    split <;> rfl
  | cons c s ih =>
    obtain ⟨fuel, rfl⟩ := Nat.exists_eq_add_one_of_ne_zero (Nat.ne_of_gt (Nat.zero_lt_of_lt hFuel))
    have hOnward : ¬ ((none : Option Nat) = some 0 ∨ last = some pos) := by
      rintro (h | h)
      · cases h
      · exact Nat.lt_irrefl pos (hLast pos h)
    rw [Pattern.Ends.more, if_neg hOnward]
    dsimp only
    rw [List.findSome?_append, List.findSome?_singleton]
    by_cases hc : c = '\n'
    · subst hc
      exact (sessionEnd?_newline s).symm
    · have hOne : Node.any.ends text { ignoreCase := true } ⟨pos, c :: s, marks⟩ = [⟨pos + 1, s, marks⟩] :=
        if_pos (by simpa using hc)
      have hHere : atLineEnd? (c :: s) = none := if_neg (by simp [hc])
      have hNext : ∀ n ∈ some pos, n < pos + 1 := by
        rintro n ⟨⟩
        exact Nat.lt_succ_self pos
      rw [hOne, List.flatMap_singleton, hHere, Option.or_none, Option.map_none,
        ih (pos + 1) fuel (some pos) (Nat.lt_of_succ_lt_succ hFuel) hNext, sessionEnd?_cons hc]

theorem run_sessionPattern (text s : List Char) (pos : Nat) (marks : Marks) :
    (sessionPattern.node.run text sessionPattern.mode some ⟨pos, s, marks⟩).map State.rest =
      (afterMarker? sessionMarker s).bind sessionEnd? := by
  rw [(Node.tracks _ _ _).apply_some, sessionPattern, Node.ends_ofSequence_append, ends_marker]
  cases afterMarker? sessionMarker s with
  | none => rfl
  | some rest =>
    have hEnds : (Node.repeated .greedy 0 none .any).ends text { ignoreCase := true }
          ⟨pos + sessionMarker.length, rest, marks⟩ =
        Pattern.Ends.more .greedy (Node.any.ends text { ignoreCase := true }) (rest.length + 2) none none
          ⟨pos + sessionMarker.length, rest, marks⟩ := List.flatMap_singleton _ _
    have hLine := findSome?_line text rest (pos + sessionMarker.length) (rest.length + 2) none marks (by omega)
      fun n hn => by cases hn
    rw [Option.map_some, Option.toList_some, List.flatMap_singleton, Option.bind_some,
      Node.ends_ofSequence_cons, List.head?_flatMap, List.map_findSome?, hEnds, ← hLine]
    exact congrArg (List.findSome? · _) (funext (head?_ends_lineEnd text))

theorem append_scanSession (front back : List Char) :
    front ++ scanSession back = ((List.range' front.length back.length).findSome?
      (withoutSession? (front ++ back))).getD (front ++ back) := by
  induction back generalizing front with
  | nil => rfl
  | cons c rest ih =>
    have hHere : withoutSession? (front ++ c :: rest) front.length =
        ((afterMarker? sessionMarker (c :: rest)).bind sessionEnd?).map (front ++ ·) := by
      rw [withoutSession?, List.drop_left, List.take_left, ← run_sessionPattern (front ++ c :: rest) _ front.length [],
        Option.map_map]
      rfl
    rw [List.length_cons, List.range'_succ, List.findSome?_cons, hHere, scanSession]
    cases (afterMarker? sessionMarker (c :: rest)).bind sessionEnd? with
    | some left => rfl
    | none =>
      have hNext := ih (front ++ [c])
      rw [List.append_assoc, List.append_assoc, List.length_append] at hNext
      exact hNext

theorem dropSession_eq_scanSession (text : List Char) : dropSession text = scanSession text := by
  rw [dropSession, List.range_eq_range']
  exact (append_scanSession [] text).symm

end UriRouting.Router
