import UriRouting.Pattern.Match

/-! # The ends of a match

Matching is a depth-first search. `Node.ends` lists the states in which a node can be left, in the
order in which matching tries them; `Node.run_eq_findSome?` says that matching answers with the first
of them from which the rest succeeds. What a node may change of a state is read off the same list:
`Node.extends_of_mem_ends`. -/

set_option autoImplicit false

namespace UriRouting.Pattern

/-- A matcher hands the given states to its continuation, one after the other. -/
def Tracks (matcher : Matcher) (ends : State → List State) : Prop :=
  ∀ k s, matcher k s = (ends s).findSome? k

namespace Ends

def one (test : Char → Bool) (s : State) : List State :=
  match s.rest with
  | c :: rest => if test c then [{ s with pos := s.pos + 1, rest }] else []
  | [] => []

def all (same : Char → Char → Bool) : List Char → State → List State
  | [], s => [s]
  | c :: rest, s => (one (same c) s).flatMap (all same rest)

def times (body : State → List State) : Nat → State → List State
  | 0, s => [s]
  | n + 1, s => (body s).flatMap (times body n)

def more (greed : Greed) (body : State → List State) :
    Nat → Option Nat → Option Nat → State → List State
  | 0, _, _, s => [s]
  | fuel + 1, left, last, s =>
    if left = some 0 ∨ last = some s.pos then [s]
    else
      let onward := more greed body fuel (left.map (· - 1)) (some s.pos)
      match greed with
      | .greedy => (body s).flatMap onward ++ [s]
      | .lazy => s :: (body s).flatMap onward
      | .possessive => ((body s).head?.map onward).getD [s]

def repeated (greed : Greed) (body : State → List State) (min : Nat) (max : Option Nat) (s : State) :
    List State :=
  let required := match greed with
    | .possessive => fun s => (body s).take 1
    | _ => body
  (times required min s).flatMap fun s =>
    more greed body (s.rest.length + 2) (max.map (· - min)) none s

/-- An assertion keeps the position and, where it has found something, what the groups took. -/
def assertion (negated : Bool) (found? : Option State) (s : State) : List State :=
  match found?, negated with
  | some found, false => [{ s with marks := found.marks }]
  | none, true => [s]
  | _, _ => []

end Ends

namespace Node

def ends (text : List Char) : Mode → Node → State → List State
  | _, empty, s => [s]
  | m, code n, s => Ends.one (m.sameCode n) s
  | m, notCode n, s => Ends.one (fun c => !m.sameCode n c) s
  | m, any, s => Ends.one (fun c => m.dotAll || c != '\n') s
  | m, oneOf negated items, s => Ends.one (fun c => m.inSet c negated items) s
  | m, anchor a, s => if a.holds m text s then [s] else []
  | m, seq first rest, s => (ends text m first s).flatMap (ends text m rest)
  | m, alt left right, s => ends text m left s ++ ends text m right s
  | m, group index body, s =>
    (ends text m body { s with marks := s.marks.enter index s.pos }).map fun s =>
      { s with marks := s.marks.leave index s.pos }
  | m, flagged on off body, s => ends text (m.change on off) body s
  | m, atomic body, s => (ends text m body s).take 1
  | m, repeated greed min max body, s => Ends.repeated greed (ends text m body) min max s
  | m, backref index, s =>
    match s.marks.captured? text index with
    | some taken => Ends.all m.sameChar taken s
    | none => []
  | m, lookahead negated body, s => Ends.assertion negated (ends text m body s).head? s
  | m, lookbehind negated width body, s =>
    let found? :=
      if width ≤ s.pos then
        (ends text m body { s with pos := s.pos - width, rest := text.drop (s.pos - width) }).head?
      else none
    Ends.assertion negated found? s
  | m, conditional index yes no, s =>
    if ((s.marks.get index).span?).isSome then ends text m yes s else ends text m no s

end Node

/-! ## Matching takes the first end from which the rest succeeds -/

theorem findSome?_flatMap {α β γ : Type} (l : List α) (f : α → List β) (k : β → Option γ) :
    (l.flatMap f).findSome? k = l.findSome? fun a => (f a).findSome? k := by
  induction l with
  | nil => rfl
  | cons a l ih =>
    rw [List.flatMap_cons, List.findSome?_append, ih, List.findSome?_cons]
    cases (f a).findSome? k <;> rfl

theorem findSome?_take_one {α β : Type} (l : List α) (k : α → Option β) :
    (l.take 1).findSome? k = l.head?.bind k := by
  cases l with
  | nil => rfl
  | cons a l => simp

theorem Tracks.apply_some {matcher : Matcher} {ends : State → List State} (h : Tracks matcher ends)
    (s : State) : matcher some s = (ends s).head? := by
  rw [h]
  cases ends s <;> rfl

theorem Tracks.one (test : Char → Bool) : Tracks (Matcher.one test) (Ends.one test) := by
  intro k s
  obtain ⟨pos, rest, marks⟩ := s
  cases rest with
  | nil => rfl
  | cons c rest =>
    by_cases hc : test c = true <;> simp [Matcher.one, Ends.one, hc]

theorem Tracks.all (same : Char → Char → Bool) (taken : List Char) :
    Tracks (Matcher.all same taken) (Ends.all same taken) := by
  induction taken with
  | nil => intro k s; simp [Matcher.all, Ends.all]
  | cons c rest ih =>
    intro k s
    rw [Matcher.all, Tracks.one, Ends.all, findSome?_flatMap]
    exact congrArg ((Ends.one (same c) s).findSome? ·) (funext fun s => ih k s)

theorem Tracks.committed {body : Matcher} {ends : State → List State} (h : Tracks body ends) :
    Tracks body.committed fun s => (ends s).take 1 := by
  intro k s
  rw [Matcher.committed, h.apply_some, findSome?_take_one]

theorem Tracks.times {body : Matcher} {ends : State → List State} (h : Tracks body ends) (n : Nat) :
    Tracks (Matcher.times body n) (Ends.times ends n) := by
  induction n with
  | zero => intro k s; simp [Matcher.times, Ends.times]
  | succ n ih =>
    intro k s
    rw [Matcher.times, h, Ends.times, findSome?_flatMap]
    exact congrArg ((ends s).findSome? ·) (funext fun s => ih k s)

theorem Tracks.more {body : Matcher} {ends : State → List State} (h : Tracks body ends)
    (greed : Greed) (fuel : Nat) (left last : Option Nat) :
    Tracks (Matcher.more greed body fuel left last) (Ends.more greed ends fuel left last) := by
  induction fuel generalizing left last with
  | zero => intro k s; simp [Matcher.more, Ends.more]
  | succ fuel ih =>
    intro k s
    rw [Matcher.more, Ends.more]
    split
    · simp
    · have hOnward : body (Matcher.more greed body fuel (left.map (· - 1)) (some s.pos) k) s =
          ((ends s).flatMap (Ends.more greed ends fuel (left.map (· - 1)) (some s.pos))).findSome? k := by
        rw [h, findSome?_flatMap]
        exact congrArg ((ends s).findSome? ·) (funext fun s => ih _ _ k s)
      cases greed with
      | greedy => simp only [hOnward, List.findSome?_append, List.findSome?_singleton]
      | «lazy» =>
        simp only [hOnward, List.findSome?_cons]
        cases k s <;> rfl
      | possessive =>
        -- Only the first end of each repetition is kept, so no list of ends is gone through.
        simp only [h.apply_some]
        cases (ends s).head? with
        | none => simp
        | some next => exact ih _ _ k next

theorem Tracks.repeated {body : Matcher} {ends : State → List State} (h : Tracks body ends)
    (greed : Greed) (min : Nat) (max : Option Nat) :
    Tracks (Matcher.repeated greed body min max) (Ends.repeated greed ends min max) := by
  intro k s
  have hMore : (fun s : State =>
        Matcher.more greed body (s.rest.length + 2) (max.map (· - min)) none k s) =
      fun s => (Ends.more greed ends (s.rest.length + 2) (max.map (· - min)) none s).findSome? k :=
    funext fun s => h.more greed _ _ _ k s
  cases greed with
  | greedy =>
    simp only [Matcher.repeated, Ends.repeated, findSome?_flatMap, hMore]
    exact h.times min _ s
  | «lazy» =>
    simp only [Matcher.repeated, Ends.repeated, findSome?_flatMap, hMore]
    exact h.times min _ s
  | possessive =>
    simp only [Matcher.repeated, Ends.repeated, findSome?_flatMap, hMore]
    exact h.committed.times min _ s

theorem Ends.findSome?_assertion (negated : Bool) (found? : Option State) (s : State)
    (k : State → Option State) :
    (Ends.assertion negated found? s).findSome? k =
      match found?, negated with
      | some found, false => k { s with marks := found.marks }
      | none, true => k s
      | _, _ => none := by
  cases found? <;> cases negated <;> simp [Ends.assertion]

namespace Node

theorem tracks (text : List Char) (m : Mode) (node : Node) :
    Tracks (run text m node) (ends text m node) := by
  induction node generalizing m with
  | empty => intro k s; simp [run, ends]
  | code n => intro k s; rw [run, ends, Tracks.one]
  | notCode n => intro k s; rw [run, ends, Tracks.one]
  | any => intro k s; rw [run, ends, Tracks.one]
  | oneOf negated items => intro k s; rw [run, ends, Tracks.one]
  | anchor a =>
    intro k s
    rw [run, ends]
    split <;> simp
  | seq first rest ihFirst ihRest =>
    intro k s
    rw [run, ihFirst, ends, findSome?_flatMap]
    exact congrArg ((ends text m first s).findSome? ·) (funext fun s => ihRest m k s)
  | alt left right ihLeft ihRight =>
    intro k s
    rw [run, ihLeft, ihRight, ends, List.findSome?_append]
  | group index body ih =>
    intro k s
    rw [run, ih, ends, List.findSome?_map]
    rfl
  | flagged on off body ih => intro k s; rw [run, ih, ends]
  | atomic body ih => intro k s; rw [run, (ih m).committed, ends]
  | repeated greed min max body ih => intro k s; rw [run, (ih m).repeated, ends]
  | backref index =>
    intro k s
    rw [ends]
    cases hTaken : s.marks.captured? text index with
    | none => simp [run, hTaken]
    | some taken => simp only [run, hTaken, Tracks.all m.sameChar taken k s]
  | lookahead negated body ih =>
    intro k s
    rw [ends, Ends.findSome?_assertion, ← (ih m).apply_some]
    cases negated <;> cases hFound : run text m body some s <;> simp [run, hFound]
  | lookbehind negated width body ih =>
    intro k s
    simp only [ends, Ends.findSome?_assertion, ← (ih m).apply_some]
    cases negated <;> rfl
  | conditional index yes no ihYes ihNo =>
    intro k s
    rw [run, ends]
    split
    · exact ihYes m k s
    · exact ihNo m k s

/-- Backtracking is a search through the ends of a node. -/
theorem run_eq_findSome? (text : List Char) (m : Mode) (node : Node) (k : State → Option State)
    (s : State) : run text m node k s = (ends text m node s).findSome? k := tracks text m node k s

theorem ends_ofSequence_cons (text : List Char) (m : Mode) (node : Node) (nodes : List Node) (s : State) :
    (ofSequence (node :: nodes)).ends text m s =
      (node.ends text m s).flatMap ((ofSequence nodes).ends text m) := rfl

theorem ends_ofSequence_append (text : List Char) (m : Mode) (nodes more : List Node) (s : State) :
    (ofSequence (nodes ++ more)).ends text m s =
      ((ofSequence nodes).ends text m s).flatMap ((ofSequence more).ends text m) := by
  induction nodes generalizing s with
  | nil => exact (List.flatMap_singleton _ _).symm
  | cons node nodes ih =>
    have hRest : (ofSequence (nodes ++ more)).ends text m = fun s =>
        ((ofSequence nodes).ends text m s).flatMap ((ofSequence more).ends text m) := funext ih
    rw [List.cons_append, ends_ofSequence_cons, ends_ofSequence_cons, hRest, List.flatMap_assoc]

end Node

end UriRouting.Pattern
