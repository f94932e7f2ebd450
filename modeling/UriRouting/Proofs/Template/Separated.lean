import UriRouting.Proofs.Template.FieldForm
import UriRouting.Proofs.Template.Substitution

/-! # Templates with separators behind their fields

Where each field is followed by literal text that begins with a separator, or by nothing, and the texts
put in for the fields hold no separators, there is no other way to split the path: the separators of the
path are those of the template. -/

set_option autoImplicit false

namespace UriRouting.Template

/-- Whether what stands behind a field keeps it apart. -/
def beginsWith (separates : Char → Bool) : List Token → Bool
  | [] => true
  | .literal text :: _ => text.toList.head?.any separates
  | .field _ :: _ => false

/-- Each field stands at the end or in front of literal text that begins with a separator. -/
def separated (separates : Char → Bool) : List Token → Bool
  | [] => true
  | .literal _ :: rest => separated separates rest
  | .field _ :: rest => beginsWith separates rest && separated separates rest

/-- The separators in literal text. -/
def separatorCount (separates : Char → Bool) : List Token → Nat
  | [] => 0
  | .literal text :: rest => text.toList.countP separates + separatorCount separates rest
  | .field _ :: rest => separatorCount separates rest

/-- What stands in front of the first separator is the same in equal texts. -/
theorem eq_of_append_eq_append {separates : Char → Bool} {l l' m m' : List Char}
    (hEq : l ++ m = l' ++ m') (hl : ∀ c ∈ l, separates c = false) (hl' : ∀ c ∈ l', separates c = false)
    (hm : ∀ c, m.head? = some c → separates c = true)
    (hm' : ∀ c, m'.head? = some c → separates c = true) : l = l' := by
  have hFront {l m : List Char} (hl : ∀ c ∈ l, separates c = false)
      (hm : ∀ c, m.head? = some c → separates c = true) :
      (l ++ m).takeWhile (fun c => !separates c) = l := by
    have hAll : ∀ c ∈ l, (!separates c) = true := fun c hc => by rw [hl c hc, Bool.not_false]
    rw [List.takeWhile_append_of_pos hAll]
    cases m with
    | nil => exact List.append_nil l
    | cons c m => rw [List.takeWhile_cons_of_neg (by simp [hm c rfl]), List.append_nil]
  rw [← hFront hl hm, ← hFront hl' hm', hEq]

section Splits

variable {separates : Char → Bool} {sets sets' : Field → Language Char} {tokens : List Token}
  {raws texts : List (List Char)} {path : List Char}

theorem Splits.head_separates (h : Splits sets tokens raws path) (hGapless : Gapless tokens)
    (hBegins : beginsWith separates tokens = true) :
    ∀ c, path.head? = some c → separates c = true := by
  intro c hc
  cases h with
  | nil => cases hc
  | @literal text u rest raws path hText h =>
    obtain rfl := hGapless.eq_of_literalText hText
    obtain ⟨d, hd, hSeparates⟩ := (Option.any_eq_true _ _).mp hBegins
    have hHead : (text.toList ++ path).head? = some d := by
      rw [List.head?_append, hd, Option.some_or]
    cases hc.symm.trans hHead
    exact hSeparates
  | field hRaw h => cases hBegins

theorem Splits.countP_eq (h : Splits sets tokens raws path) (hGapless : Gapless tokens) :
    path.countP separates = separatorCount separates tokens + raws.flatten.countP separates := by
  induction h with
  | nil => rfl
  | @literal text u rest raws path hText h ih =>
    obtain rfl := hGapless.eq_of_literalText hText
    rw [List.countP_append, ih hGapless.tail, separatorCount, Nat.add_assoc]
  | field hRaw h ih =>
    rw [List.countP_append, ih hGapless.tail, separatorCount, List.flatten_cons, List.countP_append,
      Nat.add_left_comm]

/-- All separators of the path are taken by the literal text. -/
theorem Splits.not_separates (h : Splits sets tokens raws path) (h' : Splits sets' tokens texts path)
    (hGapless : Gapless tokens) (hTexts : ∀ text ∈ texts, ∀ c ∈ text, separates c = false) :
    ∀ raw ∈ raws, ∀ c ∈ raw, separates c = false := by
  -- Both splits leave the same number of separators to the fields, and one of them leaves none.
  have hNone : texts.flatten.countP separates = 0 := by
    apply List.countP_eq_zero.mpr
    intro c hc
    obtain ⟨text, hText, hc⟩ := List.mem_flatten.mp hc
    exact Bool.eq_false_iff.mp (hTexts text hText c hc)
  have hCount : path.countP separates = _ := h.countP_eq hGapless
  rw [h'.countP_eq hGapless, hNone] at hCount
  have hZero : raws.flatten.countP separates = 0 := by omega
  intro raw hRaw c hc
  exact Bool.eq_false_iff.mpr (List.countP_eq_zero.mp hZero c (List.mem_flatten.mpr ⟨raw, hRaw, hc⟩))

theorem Splits.eq_of_separated (h : Splits sets tokens raws path) (h' : Splits sets' tokens texts path)
    (hGapless : Gapless tokens) (hSeparated : separated separates tokens = true)
    (hRaws : ∀ raw ∈ raws, ∀ c ∈ raw, separates c = false)
    (hTexts : ∀ text ∈ texts, ∀ c ∈ text, separates c = false) : raws = texts := by
  induction h generalizing texts with
  | nil =>
    cases h'
    rfl
  | @literal text u rest raws path hText h ih =>
    generalize hPath : u ++ path = whole at h'
    cases h' with
    | @literal _ u' _ _ path' hText' h' =>
      obtain rfl := hGapless.eq_of_literalText hText
      obtain rfl := hGapless.eq_of_literalText hText'
      obtain rfl := List.append_cancel_left hPath
      exact ih h' hGapless.tail hSeparated hRaws hTexts
  | @field f raw rest raws path hRaw h ih =>
    generalize hPath : raw ++ path = whole at h'
    cases h' with
    | @field _ text _ texts path' hText h' =>
      obtain ⟨hBegins, hSeparated⟩ := Bool.and_eq_true_iff.mp hSeparated
      obtain ⟨hRaw, hRaws'⟩ := List.forall_mem_cons.mp hRaws
      obtain ⟨hText, hTexts'⟩ := List.forall_mem_cons.mp hTexts
      obtain rfl := eq_of_append_eq_append hPath hRaw hText (h.head_separates hGapless.tail hBegins)
        (h'.head_separates hGapless.tail hBegins)
      obtain rfl := List.append_cancel_left hPath
      rw [ih h' hGapless.tail hSeparated hRaws' hTexts']

/-- Along a separated template a path splits into texts without separators in one way only. -/
theorem Splits.unique (h : Splits sets tokens raws path) (h' : Splits sets' tokens texts path)
    (hGapless : Gapless tokens) (hSeparated : separated separates tokens = true)
    (hTexts : ∀ text ∈ texts, ∀ c ∈ text, separates c = false) : raws = texts :=
  h.eq_of_separated h' hGapless hSeparated (h.not_separates h' hGapless hTexts) hTexts

end Splits

/-- A path put together from texts without separators gives these texts back. -/
theorem captures_of_separated {p : PatternSource} {source : String} {t : Template}
    (h : compile p source = .ok t) {form : Field → FieldForm}
    (hForm : ∀ f ∈ t.fields, f.pattern = (form f).pattern)
    (hGapless : Gapless t.tokens) {separates : Char → Bool}
    (hSeparated : separated separates t.tokens = true)
    {texts : List (List Char)} {path : List Char}
    (hSplits : Splits (fun f => (form f).texts) t.tokens texts path)
    (hTexts : ∀ text ∈ texts, ∀ c ∈ text, separates c = false) :
    t.accepts path = true ∧ t.captures path = .ok (texts.map some) := by
  have hAccepts : t.accepts path = true :=
    (accepts_iff_splits h form hForm path).mpr ⟨texts, hSplits⟩
  obtain ⟨parts, hLayout⟩ := exists_layout (P := fun f body => body.Within (form f).texts) h
    fun f hf => hForm f hf ▸ (form f).reads.mono fun body hBody => hBody.within
  obtain ⟨raws, hCaptures, hSplits'⟩ := hLayout.captures_eq_ok hAccepts
  obtain rfl := hSplits'.unique hSplits hGapless hSeparated hTexts
  exact ⟨hAccepts, hCaptures⟩

end UriRouting.Template
