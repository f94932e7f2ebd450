import UriRouting.Pattern.Reader
import UriRouting.Proofs.Outcome

/-! # Reading with something behind

The readers of a pattern take tokens from the left and stop where they have what they need. So a
pattern that stands in parentheses is taken apart in the same way as the pattern alone: what a reader
leaves is what it left before, with the closing parenthesis behind it, and what it refuses for a reason
of the pattern's own it refuses again. `Mirrors` states this for one reader and is kept by the ways in
which readers are put together. -/

set_option autoImplicit false

namespace UriRouting.Pattern

/-! ## What readers leave -/

theorem noDangling_eq_ok_iff {ts : List Token} : noDangling ts = .ok () ↔ ts.head? ≠ some .dangling := by
  cases ts with
  | nil => simp [noDangling, pure, Except.pure]
  | cons t rest => cases t <;> simp [noDangling, fail, pure, Except.pure]

/-- `rest` stands at the end of `ts`, and no dangling backslash stands in front of it or begins it,
unless one begins `ts`. -/
def Leads (ts rest : List Token) : Prop :=
  noDangling ts = .ok () → noDangling rest = .ok () ∧ ∃ used, ts = used ++ rest ∧ .dangling ∉ used

namespace Leads

variable {ts us vs : List Token}

theorem refl (ts : List Token) : Leads ts ts := fun h => ⟨h, [], rfl, List.not_mem_nil⟩

theorem trans (h : Leads ts us) (h' : Leads us vs) : Leads ts vs := by
  intro hNo
  obtain ⟨hNo', used, rfl, hUsed⟩ := h hNo
  obtain ⟨hNo'', used', rfl, hUsed'⟩ := h' hNo'
  exact ⟨hNo'', used ++ used', (List.append_assoc _ _ _).symm, by simp [hUsed, hUsed']⟩

theorem next {t : Token} {rest : List Token} (h : noDangling rest = .ok ()) : Leads (t :: rest) rest := by
  intro hNo
  refine ⟨h, [t], rfl, fun hMem => ?_⟩
  rw [noDangling_eq_ok_iff, List.head?_cons] at hNo
  exact hNo (congrArg some (List.mem_singleton.mp hMem).symm)

theorem length_le (h : Leads ts us) (hNo : noDangling ts = .ok ()) : us.length ≤ ts.length := by
  obtain ⟨-, used, rfl, -⟩ := h hNo
  simp

end Leads

/-- Tokens with a closing parenthesis in front. -/
def Closing (tail : List Token) : Prop := ∃ rest, tail = .plain ')' :: rest

theorem Closing.noDangling_append {tail ts : List Token} (h : Closing tail)
    (hNo : noDangling ts = .ok ()) : noDangling (ts ++ tail) = .ok () := by
  obtain ⟨rest, rfl⟩ := h
  cases ts with
  | nil => rfl
  | cons t ts => simpa [noDangling_eq_ok_iff] using hNo

theorem take?_cons (c : Char) (rest : List Token) :
    take? c (.plain c :: rest) = (noDangling rest >>= fun _ => pure (some rest)) := by
  simp [take?]

theorem take?_of_ne {c : Char} {ts : List Token} (h : ∀ rest, ts ≠ .plain c :: rest) :
    take? c ts = .ok none := by
  cases ts with
  | nil => rfl
  | cons t rest =>
    cases t with
    | plain d =>
      have hd : (c == d) = false := beq_false_of_ne fun hEq => h rest (hEq ▸ rfl)
      simp [take?, hd, pure, Except.pure]
    | escaped d => rfl
    | dangling => rfl

/-- A token that may be there or not, and is no closing parenthesis. -/
theorem take?_append {c : Char} (hc : c ≠ ')') {ts : List Token} {o : Option (List Token)}
    (h : take? c ts = .ok o) :
    (∀ rest ∈ o, Leads ts rest) ∧
      ∀ tail, Closing tail → take? c (ts ++ tail) = .ok (o.map (· ++ tail)) := by
  by_cases hts : ∃ rest, ts = .plain c :: rest
  · obtain ⟨rest, rfl⟩ := hts
    rw [take?_cons] at h
    obtain ⟨⟨⟩, hNo, h⟩ := bind_eq_ok_iff.mp h
    cases h
    refine ⟨fun rest' hMem => ?_, fun tail hTail => ?_⟩
    · obtain rfl := Option.mem_some.mp hMem
      exact .next hNo
    · rw [List.cons_append, take?_cons, hTail.noDangling_append hNo]
      rfl
  · have hNone : ∀ rest, ts ≠ .plain c :: rest := fun rest hEq => hts ⟨rest, hEq⟩
    rw [take?_of_ne hNone] at h
    cases h
    refine ⟨fun rest hMem => (by cases hMem), fun tail hTail => take?_of_ne fun more hMore => ?_⟩
    obtain ⟨behind, rfl⟩ := hTail
    cases ts with
    | nil => exact hc (Token.plain.inj (List.cons.inj hMore).1).symm
    | cons t ts => exact hNone ts (congrArg (· :: ts) (List.cons.inj hMore).1)

/-- Whether something around the pattern may be what is missing: the pattern stops halfway, it closes
what it has not opened, or it refers to groups and depends on their widths. -/
def Cause.reachesOut : Cause → Bool
  | danglingBackslash | unterminatedName ')' | unterminatedSet | unterminatedComment
  | unterminatedGroup | unbalancedParenthesis | unknownGroupName _ | invalidGroupReference _
  | openGroupReference | lookbehindGroupReference | lookbehindNotFixed | lookbehindTooLong => true
  | _ => false

theorem reachesOut_of_noDangling {ts : List Token} {e : Fault} (h : noDangling ts = .error e) :
    e.cause.reachesOut = true := by
  unfold noDangling at h
  split at h <;> cases h
  rfl

/-- What is refused is refused in front of a closing parenthesis too, unless the cause reaches out. -/
def Refuses {α β : Type} (result : Read α) (mirror : List Token → Read β) : Prop :=
  ∀ e, result = .error e → e.cause.reachesOut = false →
    ∀ tail, Closing tail → ∃ e', mirror tail = .error e'

namespace Refuses

variable {α β γ δ : Type} {result : Read α} {mirror : List Token → Read β}

theorem ok {x : α} : Refuses (.ok x) mirror := by
  intro e hError
  cases hError

theorem fails {e : Fault} {e' : List Token → Fault} :
    Refuses (.error e : Read α) fun tail => (.error (e' tail) : Read β) :=
  fun _ _ _ tail _ => ⟨e' tail, rfl⟩

theorem of_reachesOut (h : ∀ e, result = .error e → e.cause.reachesOut = true) :
    Refuses result mirror := by
  intro e hError hOwn
  rw [h e hError] at hOwn
  cases hOwn

theorem out {cause : Cause} {left : Nat} (h : cause.reachesOut = true) :
    Refuses (fail cause left : Read α) mirror := by
  apply of_reachesOut
  rintro _ ⟨⟩
  exact h

theorem of_fails (h : ∀ tail, Closing tail → ∃ e', mirror tail = .error e') : Refuses result mirror :=
  fun _ _ _ => h

theorem bind {first : Read γ} {first' : List Token → Read δ} {k : γ → Read α}
    {k' : List Token → δ → Read β} (hFirst : Refuses first first')
    (hk : ∀ x, first = .ok x → ∀ e, k x = .error e → e.cause.reachesOut = false →
      ∀ tail, Closing tail → ∀ y, first' tail = .ok y → ∃ e', k' tail y = .error e') :
    Refuses (first >>= k) fun tail => first' tail >>= k' tail := by
  intro e hError hOwn tail hTail
  apply exists_error_bind
  intro y hy
  rcases bind_eq_error_iff.mp hError with hError | ⟨x, hx, hError⟩
  · obtain ⟨e', he'⟩ := hFirst e hError hOwn tail hTail
    rw [he'] at hy
    cases hy
  · exact hk x hx e hError hOwn tail hTail y hy

theorem noDangling {ts : List Token} : Refuses (noDangling ts) mirror :=
  of_reachesOut fun _ => reachesOut_of_noDangling

theorem take? {c : Char} {ts : List Token} : Refuses (take? c ts) mirror := by
  unfold Pattern.take?
  split
  · split
    · intro e hError
      rcases bind_eq_error_iff.mp hError with hError | ⟨_, -, hError⟩
      · exact noDangling e hError
      · cases hError
    · exact ok
  · exact ok

theorem ite {p : Prop} [Decidable p] {a b : Read α} {a' b' : List Token → Read β}
    (ha : p → Refuses a a') (hb : ¬ p → Refuses b b') :
    Refuses (if p then a else b) fun tail => if p then a' tail else b' tail := by
  by_cases hp : p
  · simpa only [hp, if_true] using ha hp
  · simpa only [hp, if_false] using hb hp

end Refuses

/-- What is read in front of a closing parenthesis: if reading succeeds with it as well as without,
then it stops at the same place, with related results; and what is refused without it is refused with
it. -/
structure Mirrors {α β : Type} (P : α → β → Prop) (ts : List Token) (result : Read (α × List Token))
    (mirror : List Token → Read (β × List Token)) : Prop where
  reads : ∀ x rest, result = .ok (x, rest) → Leads ts rest ∧
    ∀ tail y rest', Closing tail → mirror tail = .ok (y, rest') → rest' = rest ++ tail ∧ P x y
  refuses : Refuses result mirror

namespace Mirrors

variable {α β γ : Type} {P : α → β → Prop} {ts : List Token}

theorem done {x : α} {y : List Token → β} (h : ∀ tail, P x (y tail)) :
    Mirrors P ts (Pure.pure (x, ts)) fun tail => Pure.pure (y tail, ts ++ tail) where
  reads x' rest hRead := by
    cases hRead
    refine ⟨.refl _, fun tail y' rest' _ hMirror => ?_⟩
    cases hMirror
    exact ⟨rfl, h tail⟩
  refuses := .ok

theorem pure {x : α} {y : β} (h : P x y) :
    Mirrors P ts (Pure.pure (x, ts)) fun tail => Pure.pure (y, ts ++ tail) :=
  done fun _ => h

theorem of_refuses {e : Fault} {mirror : List Token → Read (β × List Token)}
    (h : Refuses (.error e : Read (α × List Token)) mirror) : Mirrors P ts (.error e) mirror where
  reads x rest hRead := by cases hRead
  refuses := h

theorem fails {e : Fault} {e' : List Token → Fault} :
    Mirrors P ts (.error e) fun tail => .error (e' tail) := of_refuses .fails

theorem out {cause : Cause} {left : Nat} {mirror : List Token → Read (β × List Token)}
    (h : cause.reachesOut = true) : Mirrors P ts (fail cause left) mirror := of_refuses (.out h)

/-- Where the pattern ends, the closing parenthesis is not what should follow. -/
theorem ended {e : Fault} {mirror : List Token → Read (β × List Token)}
    (h : ∀ rest, ∃ e', mirror (.plain ')' :: rest) = .error e') : Mirrors P ts (.error e) mirror := by
  refine of_refuses (.of_fails fun tail hTail => ?_)
  obtain ⟨rest, rfl⟩ := hTail
  exact h rest

theorem refused {result : Read (α × List Token)} {mirror : List Token → Read (β × List Token)}
    (h : ∃ e, result = .error e) (h' : ∀ tail, ∃ e, mirror tail = .error e) :
    Mirrors P ts result mirror := by
  obtain ⟨e, rfl⟩ := h
  exact of_refuses (.of_fails fun tail _ => h' tail)

theorem of_closing {result : Read (α × List Token)} {mirror mirror' : List Token → Read (β × List Token)}
    (h : Mirrors P ts result mirror)
    (hSame : ∀ rest, mirror' (.plain ')' :: rest) = mirror (.plain ')' :: rest)) :
    Mirrors P ts result mirror' := by
  have hMirror : ∀ tail, Closing tail → mirror' tail = mirror tail := by
    rintro _ ⟨rest, rfl⟩
    exact hSame rest
  constructor
  · intro x rest hRead
    refine ⟨(h.reads x rest hRead).1, fun tail y rest' hTail hRead' => ?_⟩
    exact (h.reads x rest hRead).2 tail y rest' hTail (hMirror tail hTail ▸ hRead')
  · intro e hError hOwn tail hTail
    rw [hMirror tail hTail]
    exact h.refuses e hError hOwn tail hTail

theorem of_leads {us : List Token} {result : Read (α × List Token)}
    {mirror : List Token → Read (β × List Token)} (hLeads : Leads ts us)
    (h : Mirrors P us result mirror) : Mirrors P ts result mirror where
  reads x rest hRead := by
    obtain ⟨hLeads', hSame⟩ := h.reads x rest hRead
    exact ⟨hLeads.trans hLeads', hSame⟩
  refuses := h.refuses

theorem peek {us : List Token} {first : Read (γ × List Token)}
    {first' : List Token → Read (γ × List Token)} {k : γ × List Token → Read (α × List Token)}
    {k' : List Token → γ × List Token → Read (β × List Token)} (h : Mirrors Eq us first first')
    (hk : ∀ x rest, first = .ok (x, rest) → Leads us rest →
      Mirrors P ts (k (x, rest)) fun tail => k' tail (x, rest ++ tail)) :
    Mirrors P ts (first >>= k) fun tail => first' tail >>= k' tail where
  reads z rest hRead := by
    obtain ⟨⟨x, mid⟩, hFirst, hRead⟩ := bind_eq_ok_iff.mp hRead
    obtain ⟨hLeads, hSame⟩ := h.reads x mid hFirst
    obtain ⟨hLeads', hSame'⟩ := (hk x mid hFirst hLeads).reads z rest hRead
    refine ⟨hLeads', fun tail w rest' hTail hMirror => ?_⟩
    obtain ⟨⟨x', mid'⟩, hFirst', hMirror⟩ := bind_eq_ok_iff.mp hMirror
    obtain ⟨rfl, rfl⟩ := hSame tail x' mid' hTail hFirst'
    exact hSame' tail w rest' hTail hMirror
  refuses := by
    refine h.refuses.bind ?_
    rintro ⟨x, mid⟩ hFirst e hError hOwn tail hTail ⟨x', mid'⟩ hFirst'
    obtain ⟨hLeads, hSame⟩ := h.reads x mid hFirst
    obtain ⟨rfl, rfl⟩ := hSame tail x' mid' hTail hFirst'
    exact (hk x mid hFirst hLeads).refuses e hError hOwn tail hTail

theorem bind {first : Read (γ × List Token)} {first' : List Token → Read (γ × List Token)}
    {k : γ × List Token → Read (α × List Token)}
    {k' : List Token → γ × List Token → Read (β × List Token)}
    (h : Mirrors Eq ts first first')
    (hk : ∀ x rest, first = .ok (x, rest) →
      Mirrors P rest (k (x, rest)) fun tail => k' tail (x, rest ++ tail)) :
    Mirrors P ts (first >>= k) fun tail => first' tail >>= k' tail :=
  peek h fun x rest hFirst hLeads => of_leads hLeads (hk x rest hFirst)

theorem guard {check : Read Unit} {check' : List Token → Read Unit}
    {k : Unit → Read (α × List Token)} {k' : List Token → Unit → Read (β × List Token)}
    (hCheck : Refuses check check') (hk : check = .ok () → Mirrors P ts (k ()) fun tail => k' tail ()) :
    Mirrors P ts (check >>= k) fun tail => check' tail >>= k' tail where
  reads z rest hRead := by
    obtain ⟨⟨⟩, hOk, hRead⟩ := bind_eq_ok_iff.mp hRead
    obtain ⟨hLeads, hSame⟩ := (hk hOk).reads z rest hRead
    refine ⟨hLeads, fun tail w rest' hTail hMirror => ?_⟩
    obtain ⟨⟨⟩, -, hMirror⟩ := bind_eq_ok_iff.mp hMirror
    exact hSame tail w rest' hTail hMirror
  refuses := hCheck.bind fun ⟨⟩ hOk e hError hOwn tail hTail ⟨⟩ _ =>
    (hk hOk).refuses e hError hOwn tail hTail

theorem next {t : Token} {rest : List Token} {k : Unit → Read (α × List Token)}
    {k' : List Token → Unit → Read (β × List Token)}
    (hk : Mirrors P rest (k ()) fun tail => k' tail ()) :
    Mirrors P (t :: rest) (noDangling rest >>= k)
      fun tail => noDangling (rest ++ tail) >>= k' tail :=
  guard .noDangling fun hNo => of_leads (.next hNo) hk

theorem ite {p : Prop} [Decidable p] {a b : Read (α × List Token)}
    {a' b' : List Token → Read (β × List Token)} (ha : p → Mirrors P ts a a')
    (hb : ¬ p → Mirrors P ts b b') :
    Mirrors P ts (if p then a else b) fun tail => if p then a' tail else b' tail := by
  by_cases hp : p
  · simpa only [hp, if_true] using ha hp
  · simpa only [hp, if_false] using hb hp

theorem lift {x : Read α} {x' : List Token → Read β}
    (h : ∀ a b tail, x = .ok a → x' tail = .ok b → P a b) (hRefuses : Refuses x x') :
    Mirrors P ts (x >>= fun a => Pure.pure (a, ts))
      fun tail => x' tail >>= fun b => Pure.pure (b, ts ++ tail) where
  reads a rest hRead := by
    obtain ⟨a, hx, hRead⟩ := bind_eq_ok_iff.mp hRead
    cases hRead
    refine ⟨.refl _, fun tail b rest' _ hMirror => ?_⟩
    obtain ⟨b, hx', hMirror⟩ := bind_eq_ok_iff.mp hMirror
    cases hMirror
    exact ⟨rfl, h a b tail hx hx'⟩
  refuses := hRefuses.bind fun a _ e hError => by cases hError

theorem liftNext {x : Read α} {x' : List Token → Read β}
    (h : ∀ a b tail, x = .ok a → x' tail = .ok b → P a b) (hRefuses : Refuses x x') :
    Mirrors P ts (x >>= fun a => noDangling ts >>= fun _ => Pure.pure (a, ts))
      fun tail => x' tail >>= fun b => noDangling (ts ++ tail) >>= fun _ => Pure.pure (b, ts ++ tail) where
  reads a rest hRead := by
    obtain ⟨a, hx, hRead⟩ := bind_eq_ok_iff.mp hRead
    obtain ⟨⟨⟩, -, hRead⟩ := bind_eq_ok_iff.mp hRead
    cases hRead
    refine ⟨.refl _, fun tail b rest' _ hMirror => ?_⟩
    obtain ⟨b, hx', hMirror⟩ := bind_eq_ok_iff.mp hMirror
    obtain ⟨⟨⟩, -, hMirror⟩ := bind_eq_ok_iff.mp hMirror
    cases hMirror
    exact ⟨rfl, h a b tail hx hx'⟩
  refuses := by
    refine hRefuses.bind fun a _ e hError hOwn => ?_
    rcases bind_eq_error_iff.mp hError with hError | ⟨_, -, hError⟩
    · rw [reachesOut_of_noDangling hError] at hOwn
      cases hOwn
    · cases hError

theorem peekTake {c : Char} (hc : c ≠ ')') {us : List Token}
    {k : Option (List Token) → Read (α × List Token)}
    {k' : List Token → Option (List Token) → Read (β × List Token)}
    (hNone : Mirrors P ts (k none) fun tail => k' tail none)
    (hSome : ∀ rest, Leads us rest →
      Mirrors P ts (k (some rest)) fun tail => k' tail (some (rest ++ tail))) :
    Mirrors P ts (take? c us >>= k) fun tail => take? c (us ++ tail) >>= k' tail := by
  have hk (o : Option (List Token)) (hTake : take? c us = .ok o) :
      Mirrors P ts (k o) fun tail => k' tail (o.map (· ++ tail)) := by
    cases o with
    | none => exact hNone
    | some rest => exact hSome rest ((take?_append hc hTake).1 rest rfl)
  constructor
  · intro x left hRead
    obtain ⟨o, hTake, hRead⟩ := bind_eq_ok_iff.mp hRead
    obtain ⟨hLeads, hSame⟩ := (hk o hTake).reads x left hRead
    refine ⟨hLeads, fun tail y rest' hTail hMirror => ?_⟩
    simp only [(take?_append hc hTake).2 tail hTail] at hMirror
    exact hSame tail y rest' hTail hMirror
  · refine Refuses.bind .take? fun o hTake e hError hOwn tail hTail o' hTake' => ?_
    rw [(take?_append hc hTake).2 tail hTail] at hTake'
    cases hTake'
    exact (hk o hTake).refuses e hError hOwn tail hTail

theorem take {c : Char} (hc : c ≠ ')') {k : Option (List Token) → Read (α × List Token)}
    {k' : List Token → Option (List Token) → Read (β × List Token)}
    (hNone : Mirrors P ts (k none) fun tail => k' tail none)
    (hSome : ∀ rest, Mirrors P rest (k (some rest)) fun tail => k' tail (some (rest ++ tail))) :
    Mirrors P ts (take? c ts >>= k) fun tail => take? c (ts ++ tail) >>= k' tail :=
  peekTake hc hNone fun rest hLeads => of_leads hLeads (hSome rest)

end Mirrors

end UriRouting.Pattern
