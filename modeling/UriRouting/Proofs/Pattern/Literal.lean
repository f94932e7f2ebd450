import UriRouting.Proofs.Pattern.Run

/-! # Literal text in patterns

Text written with `literally` reads as its characters, one piece each, wherever it stands outside of
sets and verbose groups. -/

set_option autoImplicit false

namespace UriRouting.Pattern

def literalToken (c : Char) : Token := if isSpecial c then .escaped c else .plain c

theorem tokenize_escaped (c : Char) (rest : List Char) :
    tokenize ('\\' :: c :: rest) = .escaped c :: tokenize rest := by
  rw [tokenize]

theorem tokenize_plain {c : Char} (hc : c ≠ '\\') (rest : List Char) :
    tokenize (c :: rest) = .plain c :: tokenize rest := by
  rw [tokenize.eq_def]
  split <;> simp_all

theorem tokenize_plain_append {cs : List Char} (h : '\\' ∉ cs) (rest : List Char) :
    tokenize (cs ++ rest) = cs.map .plain ++ tokenize rest := by
  induction cs with
  | nil => rfl
  | cons c cs ih =>
    rw [List.mem_cons, not_or] at h
    rw [List.cons_append, tokenize_plain (Ne.symm h.1), ih h.2]
    rfl

theorem tokenize_literally_append (text rest : List Char) :
    tokenize (literally text ++ rest) = text.map literalToken ++ tokenize rest := by
  induction text with
  | nil => rfl
  | cons c text ih =>
    have hCons : literally (c :: text) ++ rest =
        (if isSpecial c then ['\\', c] else [c]) ++ (literally text ++ rest) := by
      simp [literally]
    rw [hCons]
    by_cases hc : isSpecial c = true
    · simp [hc, tokenize_escaped, ih, literalToken]
    · have hPlain : c ≠ '\\' := by
        rintro rfl
        exact hc rfl
      simp [hc, tokenize_plain hPlain, ih, literalToken]

theorem readEscape_special {c : Char} (hc : isSpecial c = true) (ts : List Token) :
    readEscape c ts = .ok (.code c.toNat, ts) := by
  have hMem : c ∈ "()[]\x7b\x7d?*+-|^$\\.&~# \t\n\r\x0b\x0c".toList := List.contains_iff_mem.mp hc
  simp only [String.reduceToList, List.mem_cons, List.not_mem_nil, or_false] at hMem
  rcases hMem with rfl | rfl | rfl | rfl | rfl | rfl | rfl | rfl | rfl | rfl | rfl | rfl | rfl | rfl |
    rfl | rfl | rfl | rfl | rfl | rfl | rfl | rfl | rfl | rfl
  all_goals rfl

theorem readStep_plain {d : Draft} (hSet : d.set? = none) (hVerbose : d.frame.verbose = false)
    {c : Char} (hBar : c ≠ '|') (hClose : c ≠ ')') (ts : List Token) :
    readStep d (.plain c :: ts) = noDangling ts >>= fun _ => readPlain d c ts := by
  simp only [readStep_char hSet hBar hClose, hVerbose, Bool.false_and, Bool.false_eq_true, if_false]

theorem readStep_literalToken {d : Draft} (hSet : d.set? = none) (hVerbose : d.frame.verbose = false)
    (c : Char) (ts : List Token) :
    readStep d (literalToken c :: ts) =
      noDangling ts >>= fun _ => pure (d.push (.code c.toNat), ts) := by
  by_cases hc : isSpecial c = true
  · simp only [literalToken, hc, if_true, readStep, hSet, readEscape_special hc, pushEscape]
    rfl
  · have hPlain : ∀ s, isSpecial s = true → c ≠ s := by
      rintro s hs rfl
      exact hc hs
    rw [literalToken, if_neg hc, readStep_plain hSet hVerbose (hPlain '|' rfl) (hPlain ')' rfl)]
    congr 1
    funext _
    rw [readPlain.eq_def]
    split
    all_goals first | rfl | exact absurd rfl (hPlain _ rfl)

section Steps

variable {d e last : Draft} {ts us : List Token}

theorem Steps.plain (hSet : d.set? = none) (hVerbose : d.frame.verbose = false) {c : Char}
    (hBar : c ≠ '|') (hClose : c ≠ ')') (h : readPlain d c ts = .ok (e, us))
    (hRun : Steps d (.plain c :: ts) last []) : Steps d (.plain c :: ts) e us := by
  apply hRun.inv
  intro f vs hStep
  rw [readStep_plain hSet hVerbose hBar hClose] at hStep
  obtain ⟨⟨⟩, -, hStep⟩ := bind_eq_ok_iff.mp hStep
  rw [h] at hStep
  cases hStep
  exact ⟨rfl, rfl⟩

theorem Steps.literal (hSet : d.set? = none) (hVerbose : d.frame.verbose = false) (c : Char)
    (hRun : Steps d (literalToken c :: ts) last []) :
    Steps d (literalToken c :: ts) (d.push (.code c.toNat)) ts := by
  apply hRun.inv
  intro f vs hStep
  rw [readStep_literalToken hSet hVerbose] at hStep
  obtain ⟨⟨⟩, -, hStep⟩ := bind_eq_ok_iff.mp hStep
  cases hStep
  exact ⟨rfl, rfl⟩

end Steps

/-- What follows says nothing about the order in which the counts of a repetition are tried. -/
def Ungreedy (ts : List Token) : Prop := ∀ c rest, ts = .plain c :: rest → c ≠ '?' ∧ c ≠ '+'

namespace Ungreedy

theorem nil : Ungreedy [] := by
  intro c rest hEq
  cases hEq

theorem plain {c : Char} (h : c ≠ '?' ∧ c ≠ '+') (ts : List Token) : Ungreedy (.plain c :: ts) := by
  rintro d rest hEq
  cases hEq
  exact h

theorem escaped (c : Char) (ts : List Token) : Ungreedy (.escaped c :: ts) := by
  intro d rest hEq
  cases hEq

theorem literalToken (c : Char) (ts : List Token) : Ungreedy (literalToken c :: ts) := by
  rw [Pattern.literalToken]
  split
  · exact escaped c ts
  · rename_i hc
    refine plain ⟨?_, ?_⟩ ts
    · rintro rfl
      exact hc rfl
    · rintro rfl
      exact hc rfl

theorem closing {ts : List Token} (h : Closing ts) : Ungreedy ts := by
  obtain ⟨rest, rfl⟩ := h
  exact plain (by decide) rest

theorem take? {ts : List Token} (h : Ungreedy ts) :
    Pattern.take? '?' ts = .ok none ∧ Pattern.take? '+' ts = .ok none :=
  ⟨take?_of_ne fun rest hEq => (h '?' rest hEq).1 rfl,
    take?_of_ne fun rest hEq => (h '+' rest hEq).2 rfl⟩

end Ungreedy

/-- The counts that a single character asks for. -/
def counts? : Char → Option (Nat × Option Nat)
  | '?' => some (0, some 1)
  | '*' => some (0, none)
  | '+' => some (1, none)
  | _ => none

theorem readPlain_counts (d : Draft) {c : Char} {min : Nat} {max : Option Nat}
    (hc : counts? c = some (min, max)) (ts : List Token) :
    readPlain d c ts = readQuantifier d min max (charsLeft ts + 1) ts := by
  unfold counts? at hc
  split at hc <;> cases hc <;> rfl

theorem Steps.greedy {d last : Draft} {ts : List Token} (hSet : d.set? = none)
    (hVerbose : d.frame.verbose = false) {piece : Piece} {pieces : List Piece}
    (hPieces : d.frame.pieces = piece :: pieces) (hKind : piece.kind = .ordinary) {c : Char}
    {min : Nat} {max : Option Nat} (hc : counts? c = some (min, max)) (hUngreedy : Ungreedy ts)
    (hRun : Steps d (.plain c :: ts) last []) :
    Steps d (.plain c :: ts) (d.repeatLast piece .greedy min max) ts := by
  have hOther : c ≠ '|' ∧ c ≠ ')' := by
    constructor
    · rintro rfl
      cases hc
    · rintro rfl
      cases hc
  have hCheck : ∀ place, d.checkRepeatable place = .ok piece := fun place => by
    simp [Draft.checkRepeatable, hPieces, hKind, pure, Except.pure]
  apply hRun.plain hSet hVerbose hOther.1 hOther.2
  rw [readPlain_counts d hc]
  simp [readQuantifier, hCheck, hUngreedy.take?, bind, Except.bind, pure, Except.pure]

theorem readName_plain {what : String} {terminator : Char} {cs name : List Char} {ts rest : List Token}
    {result : String} (hNone : terminator ∉ cs)
    (h : readName what terminator name (cs.map .plain ++ .plain terminator :: ts) = .ok (result, rest)) :
    result = String.ofList (name ++ cs) ∧ rest = ts := by
  induction cs generalizing name with
  | nil =>
    obtain ⟨⟨⟩, -, h⟩ := bind_eq_ok_iff.mp h
    rw [if_pos rfl] at h
    split at h
    · cases h
    · cases h
      exact ⟨by rw [List.append_nil], rfl⟩
  | cons c cs ih =>
    rw [List.mem_cons, not_or] at hNone
    obtain ⟨⟨⟩, -, h⟩ := bind_eq_ok_iff.mp h
    rw [if_neg fun hc => hNone.1 (Token.plain.inj hc).symm] at h
    obtain ⟨rfl, rfl⟩ := ih hNone.2 h
    exact ⟨by simp [Token.chars], rfl⟩

theorem readStep_namedHead {d e : Draft} (hSet : d.set? = none) (hVerbose : d.frame.verbose = false)
    {name : List Char} (hName : '>' ∉ name) {ts us : List Token}
    (h : readStep d (.plain '(' :: .plain '?' :: .plain 'P' :: .plain '<' ::
      (name.map .plain ++ .plain '>' :: ts)) = .ok (e, us)) :
    us = ts ∧ ∃ start left, d.openCapture (some (String.ofList name)) start left = .ok e := by
  rw [readStep_plain hSet hVerbose (by decide) (by decide)] at h
  obtain ⟨⟨⟩, -, h⟩ := bind_eq_ok_iff.mp h
  rw [readPlain, readGroup, take?_cons] at h
  obtain ⟨o, hTake, h⟩ := bind_eq_ok_iff.mp h
  obtain ⟨⟨⟩, -, hTake⟩ := bind_eq_ok_iff.mp hTake
  cases hTake
  obtain ⟨⟨⟩, -, h⟩ := bind_eq_ok_iff.mp h
  obtain ⟨⟨⟩, -, h⟩ := bind_eq_ok_iff.mp h
  rw [if_pos rfl] at h
  obtain ⟨⟨name', rest⟩, hGroup, h⟩ := bind_eq_ok_iff.mp h
  obtain ⟨⟨name'', rest'⟩, hRead, hCheck⟩ := bind_eq_ok_iff.mp hGroup
  obtain ⟨rfl, rfl⟩ := readName_plain hName hRead
  simp only [List.nil_append] at hCheck
  split at hCheck
  · cases hCheck
    obtain ⟨next, hOpen, h⟩ := bind_eq_ok_iff.mp h
    cases h
    exact ⟨rfl, _, _, hOpen⟩
  · cases hCheck

theorem closeFrame_of_readStep {d e : Draft} (hSet : d.set? = none) {ts us : List Token}
    (h : readStep d (.plain ')' :: ts) = .ok (e, us)) :
    us = ts ∧ ∃ left, d.closeFrame left = .ok e := by
  rw [readStep_close hSet] at h
  obtain ⟨next, hClose, h⟩ := bind_eq_ok_iff.mp h
  obtain ⟨⟨⟩, -, h⟩ := bind_eq_ok_iff.mp h
  cases h
  exact ⟨rfl, _, hClose⟩

theorem Draft.opened_of_openCapture {d e : Draft} {name : String} {start left : Nat}
    (h : d.openCapture (some name) start left = .ok e) :
    e.set? = d.set? ∧ e.outer = d.frame :: d.outer ∧
      e.frame = { opener := .capture d.groups.length, start, verbose := d.frame.verbose } ∧
      e.names.lookup name = some d.groups.length := by
  unfold openCapture at h
  dsimp only at h
  split at h
  · cases h
  · rename_i hName
    cases h
    refine ⟨rfl, rfl, rfl, ?_⟩
    simp [List.lookup_append, hName]

end UriRouting.Pattern
