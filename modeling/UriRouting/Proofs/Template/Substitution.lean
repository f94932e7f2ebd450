import UriRouting.Generation
import UriRouting.Proofs.Template.Splitting

/-! # Putting captures back

What the fields of a template capture of a path is what the path has in their places, so that putting
it back in order gives the path again. Nothing is asked of the field patterns but that each of them
can be read alone: they may hold groups, references and conditions of their own. -/

set_option autoImplicit false

namespace UriRouting.Template

theorem LiteralText.eq_of_not_infix {text u : List Char} (h : LiteralText text u)
    (hPair : ¬ ['/', '*'] <:+: text) : u = text := by
  induction h with
  | nil => rfl
  | gap hLine h ih => exact absurd ⟨[], _, rfl⟩ hPair
  | char hHead h ih => rw [ih fun hInfix => hPair (List.infix_cons hInfix)]

/-- No literal text leaves room for more than itself. -/
def Gapless (tokens : List Token) : Prop :=
  ∀ text, .literal text ∈ tokens → ¬ ['/', '*'] <:+: text.toList

theorem Gapless.tail {token : Token} {rest : List Token} (h : Gapless (token :: rest)) :
    Gapless rest := fun text hMem => h text (List.mem_cons_of_mem token hMem)

theorem Gapless.eq_of_literalText {text : String} {rest : List Token}
    (h : Gapless (.literal text :: rest)) {u : List Char} (hText : LiteralText text.toList u) :
    u = text.toList := hText.eq_of_not_infix (h text List.mem_cons_self)

theorem Splits.tokensInOrder_eq {sets : Field → Language Char} {tokens : List Token}
    {raws : List (List Char)} {path : List Char} (h : Splits sets tokens raws path)
    (hGapless : Gapless tokens) :
    Generation.tokensInOrder tokens (raws.map fun raw => .str (String.ofList raw)) = path := by
  induction h with
  | nil => rfl
  | literal hText h ih =>
    rw [Generation.tokensInOrder, ih hGapless.tail, hGapless.eq_of_literalText hText]
  | field hRaw h ih =>
    rw [List.map_cons, Generation.tokensInOrder, ih hGapless.tail, Value.text, String.toList_ofList]

theorem Splits.length_eq {sets : Field → Language Char} {tokens : List Token}
    {raws : List (List Char)} {path : List Char} (h : Splits sets tokens raws path) :
    raws.length = (tokens.filterMap Token.field?).length := by
  induction h with
  | nil => rfl
  | literal hText h ih => exact ih
  | field hRaw h ih => exact congrArg (· + 1) ih

theorem Splits.length_eq_names {sets : Field → Language Char} {t : Template}
    {raws : List (List Char)} {path : List Char} (h : Splits sets t.tokens raws path) :
    raws.length = t.names.length := by
  rw [h.length_eq, names, List.length_map]
  rfl

/-- A field pattern that can be read alone confines its field to a group of its own. -/
theorem exists_layout_of_compile {p : PatternSource} {source : String} {t : Template}
    (h : compile p source = .ok t)
    (hFields : ∀ f ∈ t.fields, (Pattern.compile f.pattern.toList).isOk = true) :
    ∃ parts, Layout (fun _ body => body.Within Set.univ) t parts := by
  apply exists_layout h
  intro f hf
  obtain ⟨c, hc⟩ := exists_ok_of_isOk (hFields f hf)
  refine (Pattern.Reads.of_compile hc).mono fun body _ => body.within_univ

/-- The captures are aligned with the names and lose nothing of the path. -/
theorem inOrder_captures {p : PatternSource} {source : String} {t : Template}
    (h : compile p source = .ok t)
    (hFields : ∀ f ∈ t.fields, (Pattern.compile f.pattern.toList).isOk = true)
    (hPair : ∀ text, .literal text ∈ t.tokens → ¬ ['/', '*'] <:+: text.toList)
    {path : List Char} (hAccepts : t.accepts path = true) :
    ∃ raws : List (List Char), t.captures path = .ok (raws.map some) ∧
      raws.length = t.names.length ∧
      Generation.inOrder t (raws.map fun raw => .str (String.ofList raw)) = path := by
  obtain ⟨parts, hLayout⟩ := exists_layout_of_compile h hFields
  obtain ⟨raws, hCaptures, hSplits⟩ := hLayout.captures_eq_ok hAccepts
  exact ⟨raws, hCaptures, hSplits.length_eq_names, hSplits.tokensInOrder_eq hPair⟩

/-- Two fields of one name, whose pattern has a group of its own. -/
theorem inOrder_captures_of_groups : ∃ (t : Template) (raws : List (List Char)),
    compile { explicit := [("a", "(x|y)+")] } "/p/{a}-{a}" = .ok t ∧
      t.captures "/p/xy-y".toList = .ok (raws.map some) ∧ raws.length = t.names.length ∧
      Generation.inOrder t (raws.map fun raw => .str (String.ofList raw)) = "/p/xy-y".toList := by
  let f : Field := ⟨"{a}", "a", "(x|y)+", false⟩
  let tokens : List Token := [.literal "/p/", .field f, .literal "-", .field f]
  obtain ⟨t, h, hTest⟩ := exists_ok_of_any
    (x := compile { explicit := [("a", "(x|y)+")] } "/p/{a}-{a}")
    (p := fun t => t.tokens = tokens ∧ t.accepts "/p/xy-y".toList) (by decide +kernel)
  obtain ⟨hTokens, hAccepts⟩ := of_decide_eq_true hTest
  have hFields : ∀ f ∈ t.fields, (Pattern.compile f.pattern.toList).isOk = true := by
    rw [fields, hTokens]
    decide +kernel
  have hPair : ∀ text, .literal text ∈ t.tokens → ¬ ['/', '*'] <:+: text.toList := by
    simp only [hTokens, tokens, List.mem_cons, Token.literal.injEq, reduceCtorEq, false_or,
      List.not_mem_nil, or_false, forall_eq_or_imp, forall_eq]
    decide +kernel
  exact ⟨t, _, h, (inOrder_captures h hFields hPair hAccepts).choose_spec⟩

end UriRouting.Template
