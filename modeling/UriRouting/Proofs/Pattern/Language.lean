import Mathlib.Computability.Language
import UriRouting.Proofs.Pattern.Frame

/-! # The language of a node

What a node takes, wherever it stands, is a language if the node does not look around and does not
refer to groups. Sequences, alternatives, groups and greedy repetitions of such nodes have the
languages that one expects: backtracking misses nothing. -/

set_option autoImplicit false

namespace UriRouting.Pattern

open Language

/-- From located states the ends are those behind a text of the language. -/
structure Spells (text : List Char) (ends : State → List State) (L : Language Char) : Prop where
  located : ∀ s e, Located text s → e ∈ ends s → Located text e
  exists_end_iff : ∀ s v, Located text s →
    ((∃ e ∈ ends s, e.rest = v) ↔ ∃ u ∈ L, s.rest = u ++ v)

namespace Spells

variable {text : List Char} {ends ends' : State → List State} {L M : Language Char}

theorem stay : Spells text (fun s => [s]) 1 where
  located s e hs he := by
    obtain rfl := List.mem_singleton.mp he
    exact hs
  exists_end_iff s v _ := by simp

theorem one (test : Char → Bool) : Spells text (Ends.one test) {u | ∃ c, test c = true ∧ u = [c]} where
  located s e hs he := (@Reaches.one text [] test s e he hs).located
  exists_end_iff s v _ := by
    constructor
    · rintro ⟨e, he, rfl⟩
      obtain ⟨c, rest, hTest, hRest, rfl⟩ := Ends.eq_of_mem_one he
      exact ⟨[c], ⟨c, hTest, rfl⟩, hRest⟩
    · rintro ⟨u, ⟨c, hTest, rfl⟩, hRest⟩
      refine ⟨{ s with pos := s.pos + 1, rest := v }, ?_, rfl⟩
      simp [Ends.one, hRest, hTest]

theorem bind (h : Spells text ends L) (h' : Spells text ends' M) :
    Spells text (fun s => (ends s).flatMap ends') (L * M) where
  located s e hs he := by
    obtain ⟨t, ht, he⟩ := List.mem_flatMap.mp he
    exact h'.located t e (h.located s t hs ht) he
  exists_end_iff s v hs := by
    constructor
    · rintro ⟨e, he, hv⟩
      obtain ⟨t, ht, he⟩ := List.mem_flatMap.mp he
      obtain ⟨u, hu, hRest⟩ := (h.exists_end_iff s t.rest hs).mp ⟨t, ht, rfl⟩
      obtain ⟨w, hw, hRest'⟩ := (h'.exists_end_iff t v (h.located s t hs ht)).mp ⟨e, he, hv⟩
      exact ⟨u ++ w, Set.mem_image2_of_mem hu hw, by rw [hRest, hRest', List.append_assoc]⟩
    · rintro ⟨_, ⟨u, hu, w, hw, rfl⟩, hRest⟩
      obtain ⟨t, ht, hRest'⟩ := (h.exists_end_iff s (w ++ v) hs).mpr
        ⟨u, hu, hRest.trans (List.append_assoc _ _ _)⟩
      obtain ⟨e, he, hv⟩ := (h'.exists_end_iff t v (h.located s t hs ht)).mpr ⟨w, hw, hRest'⟩
      exact ⟨e, List.mem_flatMap.mpr ⟨t, ht, he⟩, hv⟩

theorem append (h : Spells text ends L) (h' : Spells text ends' M) :
    Spells text (fun s => ends s ++ ends' s) (L + M) where
  located s e hs he := by
    rcases List.mem_append.mp he with he | he
    · exact h.located s e hs he
    · exact h'.located s e hs he
  exists_end_iff s v hs := by
    have hSplit : (∃ e ∈ ends s ++ ends' s, e.rest = v) ↔
        (∃ e ∈ ends s, e.rest = v) ∨ ∃ e ∈ ends' s, e.rest = v := by
      simp only [List.mem_append, or_and_right, exists_or]
    rw [hSplit, h.exists_end_iff s v hs, h'.exists_end_iff s v hs]
    simp only [Language.mem_add, or_and_right, exists_or]

theorem times (h : Spells text ends L) (n : Nat) : Spells text (Ends.times ends n) (L ^ n) := by
  induction n with
  | zero =>
    rw [pow_zero]
    exact stay
  | succ n ih =>
    rw [pow_succ']
    exact h.bind ih

/-- The number of repetitions that are still allowed. -/
def Allows (left : Option Nat) (n : Nat) : Prop := ∀ m ∈ left, n ≤ m

theorem allows_succ_iff {left : Option Nat} {n : Nat} (h : left ≠ some 0) :
    Allows left (n + 1) ↔ Allows (left.map (· - 1)) n := by
  cases left with
  | none => simp [Allows]
  | some m =>
    have hm : m ≠ 0 := fun h0 => h (h0 ▸ rfl)
    simp only [Allows, Option.mem_def, Option.some.injEq, forall_eq', Option.map_some]
    omega

/-- As many texts of a language as are allowed. -/
def upTo (L : Language Char) (left : Option Nat) : Language Char :=
  {u | ∃ n, Allows left n ∧ u ∈ L ^ n}

theorem advances (h : Spells text ends L) (hNil : [] ∉ L) {s t : State} (hs : Located text s)
    (ht : t ∈ ends s) :
    ∃ u ∈ L, s.rest = u ++ t.rest ∧ t.rest.length < s.rest.length ∧ some s.pos ≠ some t.pos := by
  obtain ⟨u, hu, hRest⟩ := (h.exists_end_iff s t.rest hs).mp ⟨t, ht, rfl⟩
  have hLength : 0 < u.length := by
    apply List.length_pos_iff.mpr
    rintro rfl
    exact hNil hu
  have hShorter : t.rest.length < s.rest.length := by
    rw [hRest, List.length_append]
    omega
  refine ⟨u, hu, hRest, hShorter, fun hPos => ?_⟩
  have hSame : t.rest = s.rest := by
    rw [h.located s t hs ht, hs, Option.some.inj hPos]
  rw [hSame] at hShorter
  omega

theorem more (h : Spells text ends L) (hNil : [] ∉ L) (fuel : Nat) (left last : Option Nat) (s : State)
    (hs : Located text s) (hFuel : s.rest.length < fuel) (hLast : last ≠ some s.pos) :
    (∀ e ∈ Ends.more .greedy ends fuel left last s, Located text e) ∧
      ∀ v, (∃ e ∈ Ends.more .greedy ends fuel left last s, e.rest = v) ↔
        ∃ n, Allows left n ∧ ∃ u ∈ L ^ n, s.rest = u ++ v := by
  induction fuel generalizing left last s with
  | zero => omega
  | succ fuel ih =>
    rw [Ends.more]
    by_cases hZero : left = some 0
    · subst hZero
      rw [if_pos (Or.inl rfl)]
      refine ⟨fun e he => List.mem_singleton.mp he ▸ hs, fun v => ?_⟩
      constructor
      · rintro ⟨e, he, rfl⟩
        obtain rfl := List.mem_singleton.mp he
        exact ⟨0, by simp [Allows], [], rfl, rfl⟩
      · rintro ⟨n, hn, u, hu, hRest⟩
        obtain rfl : n = 0 := Nat.le_zero.mp (hn 0 rfl)
        rw [pow_zero, Language.mem_one] at hu
        exact ⟨s, List.mem_singleton_self s, by rw [hRest, hu, List.nil_append]⟩
    · rw [if_neg (not_or.mpr ⟨hZero, hLast⟩)]
      -- The check for a standstill never fires, and the fuel is never used up.
      have hStep : ∀ t ∈ ends s, ∃ u ∈ L, s.rest = u ++ t.rest ∧
          t.rest.length < fuel ∧ some s.pos ≠ some t.pos := by
        intro t ht
        obtain ⟨u, hu, hRest, hShorter, hPos⟩ := h.advances hNil hs ht
        exact ⟨u, hu, hRest, by omega, hPos⟩
      refine ⟨fun e he => ?_, fun v => ?_⟩
      · rcases List.mem_append.mp he with he | he
        · obtain ⟨t, ht, he⟩ := List.mem_flatMap.mp he
          obtain ⟨-, -, -, hFuel', hPos⟩ := hStep t ht
          exact (ih _ _ t (h.located s t hs ht) hFuel' hPos).1 e he
        · exact List.mem_singleton.mp he ▸ hs
      · constructor
        · rintro ⟨e, he, hv⟩
          rcases List.mem_append.mp he with he | he
          · obtain ⟨t, ht, he⟩ := List.mem_flatMap.mp he
            obtain ⟨u, hu, hRest, hFuel', hPos⟩ := hStep t ht
            obtain ⟨n, hn, w, hw, hRest'⟩ :=
              ((ih _ _ t (h.located s t hs ht) hFuel' hPos).2 v).mp ⟨e, he, hv⟩
            refine ⟨n + 1, (allows_succ_iff hZero).mpr hn, u ++ w, ?_, ?_⟩
            · rw [pow_succ']
              exact Set.mem_image2_of_mem hu hw
            · rw [hRest, hRest', List.append_assoc]
          · obtain rfl := List.mem_singleton.mp he
            exact ⟨0, fun m _ => Nat.zero_le m, [], rfl, hv⟩
        · rintro ⟨n, hn, u, hu, hRest⟩
          cases n with
          | zero =>
            rw [pow_zero, Language.mem_one] at hu
            exact ⟨s, List.mem_append_right _ (List.mem_singleton_self s), by
              rw [hRest, hu, List.nil_append]⟩
          | succ n =>
            rw [pow_succ'] at hu
            obtain ⟨a, ha, w, hw, rfl⟩ := hu
            obtain ⟨t, ht, hRest'⟩ := (h.exists_end_iff s (w ++ v) hs).mpr
              ⟨a, ha, hRest.trans (List.append_assoc _ _ _)⟩
            obtain ⟨-, -, -, hFuel', hPos⟩ := hStep t ht
            obtain ⟨e, he, hv⟩ := ((ih _ _ t (h.located s t hs ht) hFuel' hPos).2 v).mpr
              ⟨n, (allows_succ_iff hZero).mp hn, w, hw, hRest'⟩
            exact ⟨e, List.mem_append_left _ (List.mem_flatMap.mpr ⟨t, ht, he⟩), hv⟩

theorem repeated (h : Spells text ends L) (hNil : [] ∉ L) (min : Nat) (max : Option Nat) :
    Spells text (Ends.repeated .greedy ends min max)
      (L ^ min * upTo L (max.map (· - min))) := by
  refine (h.times min).bind ⟨fun s e hs he => ?_, fun s v hs => ?_⟩
  · exact (h.more hNil _ _ _ s hs (by omega) (by simp)).1 e he
  · rw [(h.more hNil _ _ _ s hs (by omega) (by simp)).2 v]
    constructor
    · rintro ⟨n, hn, u, hu, hRest⟩
      exact ⟨u, ⟨n, hn, hu⟩, hRest⟩
    · rintro ⟨u, ⟨n, hn, hu⟩, hRest⟩
      exact ⟨n, hn, u, hu, hRest⟩

end Spells

/-- The texts of one character that passes a test. -/
def charsOf (test : Char → Bool) : Language Char := {u | ∃ c, test c = true ∧ u = [c]}

theorem nil_notMem_charsOf (test : Char → Bool) : [] ∉ charsOf test := by
  rintro ⟨c, -, h⟩
  cases h

theorem mem_charsOf_pow {test : Char → Bool} {n : Nat} {u : List Char} :
    u ∈ charsOf test ^ n ↔ u.length = n ∧ ∀ c ∈ u, test c = true := by
  induction n generalizing u with
  | zero => simp +contextual
  | succ n ih =>
    rw [pow_succ', Language.mem_mul]
    constructor
    · rintro ⟨_, ⟨c, hc, rfl⟩, w, hw, rfl⟩
      obtain ⟨hLength, hAll⟩ := ih.mp hw
      simpa [hLength, hc] using hAll
    · rintro ⟨hLength, hAll⟩
      cases u with
      | nil => cases hLength
      | cons c w =>
        refine ⟨[c], ⟨c, hAll c List.mem_cons_self, rfl⟩, w, ih.mpr ⟨?_, ?_⟩, rfl⟩
        · simpa using hLength
        · exact fun d hd => hAll d (List.mem_cons_of_mem c hd)

/-- What a node takes, in the mode that no flag has changed. -/
def Node.Denotes (node : Node) (L : Language Char) : Prop :=
  ∀ text, Spells text (node.ends text {}) L

namespace Node.Denotes

variable {a b : Node} {nodes more : List Node} {L M : Language Char}

theorem of_eq (h : a.Denotes L) (hEq : L = M) : a.Denotes M := hEq ▸ h

theorem empty : Denotes .empty 1 := fun _ => Spells.stay

theorem code (n : Nat) : Denotes (.code n) (charsOf fun c => n == c.toNat) := fun _ => Spells.one _

theorem char (c : Char) : Denotes (.code c.toNat) {[c]} := by
  apply (code c.toNat).of_eq
  apply Language.ext
  intro u
  constructor
  · rintro ⟨d, hd, rfl⟩
    exact congrArg (fun c => [c]) (Char.toNat_inj.mp (beq_iff_eq.mp hd)).symm
  · rintro rfl
    exact ⟨c, beq_self_eq_true _, rfl⟩

theorem notCode (n : Nat) : Denotes (.notCode n) (charsOf fun c => !(n == c.toNat)) :=
  fun _ => Spells.one _

theorem any : Denotes .any (charsOf fun c => c != '\n') := fun _ => Spells.one _

theorem oneOf (negated : Bool) (items : List SetItem) :
    Denotes (.oneOf negated items) (charsOf fun c => Mode.inSet {} c negated items) :=
  fun _ => Spells.one _

theorem seq (ha : a.Denotes L) (hb : b.Denotes M) : Denotes (.seq a b) (L * M) :=
  fun text => (ha text).bind (hb text)

theorem alt (ha : a.Denotes L) (hb : b.Denotes M) : Denotes (.alt a b) (L + M) :=
  fun text => (ha text).append (hb text)

theorem group (ha : a.Denotes L) (index : Nat) : Denotes (.group index a) L := by
  intro text
  refine ⟨fun s e hs he => ?_, fun s v hs => ?_⟩
  · obtain ⟨t, ht, rfl⟩ := List.mem_map.mp he
    exact (ha text).located { s with marks := s.marks.enter index s.pos } t hs ht
  · rw [← (ha text).exists_end_iff { s with marks := s.marks.enter index s.pos } v hs]
    simp only [ends, List.mem_map, exists_exists_and_eq_and]

theorem repeated {test : Char → Bool} (ha : a.Denotes (charsOf test)) (min : Nat) (max : Option Nat)
    (hMax : ∀ m ∈ max, min ≤ m) :
    Denotes (.repeated .greedy min max a)
      {u | min ≤ u.length ∧ (∀ m ∈ max, u.length ≤ m) ∧ ∀ c ∈ u, test c = true} := by
  intro text
  have hRepeated := (ha text).repeated (nil_notMem_charsOf test) min max
  refine (congrArg (Spells text _) (Language.ext fun u => ?_)).mp hRepeated
  rw [Language.mem_mul]
  constructor
  · rintro ⟨v, hv, w, ⟨n, hn, hw⟩, rfl⟩
    obtain ⟨hLength, hAll⟩ := mem_charsOf_pow.mp hv
    obtain ⟨hLength', hAll'⟩ := mem_charsOf_pow.mp hw
    refine ⟨by simp [hLength], fun m hm => ?_, fun c hc => ?_⟩
    · have hBound := hn (m - min) (by rw [Option.mem_def.mp hm]; rfl)
      have hMin := hMax m hm
      rw [List.length_append]
      omega
    · exact (List.mem_append.mp hc).elim (hAll c) (hAll' c)
  · rintro ⟨hMin, hBound, hAll⟩
    refine ⟨u.take min, ?_, u.drop min, ⟨u.length - min, ?_, ?_⟩, List.take_append_drop min u⟩
    · exact mem_charsOf_pow.mpr ⟨List.length_take_of_le hMin, fun c hc => hAll c (List.mem_of_mem_take hc)⟩
    · intro m hm
      obtain ⟨m', hm', rfl⟩ := Option.map_eq_some_iff.mp hm
      have := hBound m' hm'
      omega
    · exact mem_charsOf_pow.mpr ⟨List.length_drop, fun c hc => hAll c (List.mem_of_mem_drop hc)⟩

/-- The texts whose characters pass a test, as many as there may be. -/
theorem unbounded {test : Char → Bool} (ha : a.Denotes (charsOf test)) (least : Nat) :
    Denotes (.repeated .greedy least none a) {u | least ≤ u.length ∧ ∀ c ∈ u, test c = true} := by
  have hMax : ∀ m ∈ (none : Option Nat), least ≤ m := by
    intro m hm
    cases hm
  apply (ha.repeated least none hMax).of_eq
  apply Language.ext
  intro u
  constructor
  · rintro ⟨hMin, -, hAll⟩
    exact ⟨hMin, hAll⟩
  · rintro ⟨hMin, hAll⟩
    refine ⟨hMin, ?_, hAll⟩
    intro m hm
    cases hm

theorem ofSequence_append (ha : Denotes (.ofSequence nodes) L) (hb : Denotes (.ofSequence more) M) :
    Denotes (.ofSequence (nodes ++ more)) (L * M) := by
  intro text
  have hEnds : (ofSequence (nodes ++ more)).ends text {} = fun s =>
      ((ofSequence nodes).ends text {} s).flatMap ((ofSequence more).ends text {}) :=
    funext (ends_ofSequence_append text {} nodes more)
  rw [hEnds]
  exact (ha text).bind (hb text)

end Node.Denotes

/-- A node takes nothing but texts of a language. -/
def Node.Within (node : Node) (L : Language Char) : Prop :=
  ∀ text s, Located text s → ∀ e ∈ node.ends text {} s, ∃ u ∈ L, s.rest = u ++ e.rest

theorem Node.Denotes.within {node : Node} {L : Language Char} (h : node.Denotes L) : node.Within L :=
  fun text s hs e he => ((h text).exists_end_iff s e.rest hs).mp ⟨e, he, rfl⟩

theorem Node.within_univ (node : Node) : node.Within Set.univ :=
  fun _ _ hs _ he => ⟨_, Set.mem_univ _, (extends_of_mem_ends he hs).rest_eq hs⟩

end UriRouting.Pattern
