import UriRouting.Pattern.CharClass

/-! # Matching

Matching tries the ways in which a node can take text in a fixed order and hands each end state to a
continuation; the first success is the answer. A group remembers where it was last entered and last
left, and what it remembers survives a later failure only along the successful way. -/

set_option autoImplicit false

namespace UriRouting.Pattern

structure Mark where
  entered : Option Nat := none
  left : Option Nat := none
deriving DecidableEq, Repr

namespace Mark

/-- A group has taken part once it was entered and, not before that, left. -/
def span? (m : Mark) : Option (Nat × Nat) :=
  match m.entered, m.left with
  | some start, some stop => if start ≤ stop then some (start, stop) else none
  | _, _ => none

end Mark

abbrev Marks := List (Nat × Mark)

namespace Marks

def get (ms : Marks) (index : Nat) : Mark := (ms.lookup index).getD {}

def set (ms : Marks) (index : Nat) (m : Mark) : Marks :=
  (index, m) :: ms.filter fun entry => entry.1 != index

def enter (ms : Marks) (index pos : Nat) : Marks :=
  ms.set index { ms.get index with entered := some pos }

def leave (ms : Marks) (index pos : Nat) : Marks :=
  ms.set index { ms.get index with left := some pos }

def captured? (ms : Marks) (text : List Char) (index : Nat) : Option (List Char) :=
  (ms.get index).span?.map fun (start, stop) => (text.drop start).take (stop - start)

theorem get_set_self (ms : Marks) (index : Nat) (m : Mark) : (ms.set index m).get index = m := by
  simp [get, set]

theorem lookup_filter_ne {ms : Marks} {i j : Nat} (h : j ≠ i) :
    (ms.filter fun entry => entry.1 != i).lookup j = ms.lookup j := by
  induction ms with
  | nil => rfl
  | cons entry rest ih =>
    obtain ⟨k, m⟩ := entry
    by_cases hk : k = i
    · simp [List.lookup_cons, ih, hk, beq_false_of_ne h]
    · simp [List.lookup_cons, ih, hk]

theorem get_set_of_ne (ms : Marks) {i j : Nat} (m : Mark) (h : j ≠ i) :
    (ms.set i m).get j = ms.get j := by
  simp [get, set, List.lookup_cons, beq_false_of_ne h, lookup_filter_ne h]

end Marks

structure State where
  pos : Nat
  rest : List Char
  marks : Marks
deriving Repr

/-- A way of matching: it is given what has to follow. -/
abbrev Matcher := (State → Option State) → State → Option State

namespace Matcher

def one (test : Char → Bool) : Matcher := fun k s =>
  match s.rest with
  | c :: rest => if test c then k { s with pos := s.pos + 1, rest } else none
  | [] => none

def all (same : Char → Char → Bool) : List Char → Matcher
  | [], k => k
  | c :: rest, k => one (same c) (all same rest k)

def committed (body : Matcher) : Matcher := fun k s => (body some s).bind k

def times (body : Matcher) : Nat → Matcher
  | 0, k => k
  | n + 1, k => body (times body n k)

/-- Further repetitions up to `left`, each begun at another position than the one before. The fuel
bounds their number: positions only grow, so that one more than the characters left suffices. -/
def more (greed : Greed) (body : Matcher) : Nat → Option Nat → Option Nat → Matcher
  | 0, _, _, k, s => k s
  | fuel + 1, left, last, k, s =>
    if left = some 0 ∨ last = some s.pos then k s
    else
      let onward := more greed body fuel (left.map (· - 1)) (some s.pos) k
      match greed with
      | .greedy => (body onward s).or (k s)
      | .lazy => (k s).or (body onward s)
      | .possessive =>
        match body some s with
        | some next => onward next
        | none => k s

def repeated (greed : Greed) (body : Matcher) (min : Nat) (max : Option Nat) : Matcher := fun k s =>
  let required := match greed with
    | .possessive => body.committed
    | _ => body
  times required min
    (fun s => more greed body (s.rest.length + 2) (max.map (· - min)) none k s) s

end Matcher

namespace Anchor

def holds (m : Mode) (text : List Char) (s : State) : Anchor → Bool
  | textStart => s.pos == 0
  | lineStart => s.pos == 0 || (m.multiline && text[s.pos - 1]? == some '\n')
  | textEnd => s.rest.isEmpty
  | lineEnd => s.rest.isEmpty || s.rest == ['\n'] || (m.multiline && s.rest.head? == some '\n')
  | wordBoundary => !text.isEmpty && wordBefore != wordAfter
  | noWordBoundary => !text.isEmpty && wordBefore == wordAfter
where
  wordBefore : Bool := s.pos != 0 && text[s.pos - 1]?.any m.isWord
  wordAfter : Bool := s.rest.head?.any m.isWord

end Anchor

namespace Node

def run (text : List Char) : Mode → Node → Matcher
  | _, empty, k, s => k s
  | m, code n, k, s => Matcher.one (m.sameCode n) k s
  | m, notCode n, k, s => Matcher.one (fun c => !m.sameCode n c) k s
  | m, any, k, s => Matcher.one (fun c => m.dotAll || c != '\n') k s
  | m, oneOf negated items, k, s => Matcher.one (fun c => m.inSet c negated items) k s
  | m, anchor a, k, s => if a.holds m text s then k s else none
  | m, seq first rest, k, s => run text m first (run text m rest k) s
  | m, alt left right, k, s => (run text m left k s).or (run text m right k s)
  | m, group index body, k, s =>
    run text m body (fun s => k { s with marks := s.marks.leave index s.pos })
      { s with marks := s.marks.enter index s.pos }
  | m, flagged on off body, k, s => run text (m.change on off) body k s
  | m, atomic body, k, s => Matcher.committed (run text m body) k s
  | m, repeated greed min max body, k, s => Matcher.repeated greed (run text m body) min max k s
  | m, backref index, k, s =>
    match s.marks.captured? text index with
    | some taken => Matcher.all m.sameChar taken k s
    | none => none
  | m, lookahead negated body, k, s =>
    match run text m body some s, negated with
    | some found, false => k { s with marks := found.marks }
    | none, true => k s
    | _, _ => none
  | m, lookbehind negated width body, k, s =>
    let found? :=
      if width ≤ s.pos then
        run text m body some { s with pos := s.pos - width, rest := text.drop (s.pos - width) }
      else none
    match found?, negated with
    | some found, false => k { s with marks := found.marks }
    | none, true => k s
    | _, _ => none
  | m, conditional index yes no, k, s =>
    if ((s.marks.get index).span?).isSome then run text m yes k s else run text m no k s

end Node

namespace Compiled

def fullMatch? (p : Compiled) (text : List Char) : Option Marks :=
  (p.node.run text p.mode (fun s => if s.rest.isEmpty then some s else none) ⟨0, text, []⟩).map (·.marks)

/-- What the groups took in the first match from the start, provided that it takes all of the text. -/
def firstMatch? (p : Compiled) (text : List Char) : Option Marks :=
  (p.node.run text p.mode some ⟨0, text, []⟩).bind fun s =>
    if s.rest.isEmpty then some s.marks else none

def fullyMatches (p : Compiled) (text : List Char) : Bool := (p.fullMatch? text).isSome

end Compiled

end UriRouting.Pattern
