import UriRouting.Proofs.Log
import UriRouting.Proofs.PercentEncoding
import UriRouting.Proofs.Template.Substitution

/-! # What generated paths are made of

A path that is generated without a warning is the literal text of the template, with the encoded form
of a value in the place of each field. -/

set_option autoImplicit false

namespace UriRouting.Generation

open Template (Field LiteralText Splits Token)

/-! ## Components of names -/

def firstComponent (field : String) : String := String.ofList (Text.partition '.' field.toList).1

/-- What stands behind the first point, if there is one. -/
def otherComponents (field : String) : List Char := (Text.partition '.' field.toList).2.getD []

theorem drop_firstComponent (field : String) :
    field.toList.drop ((firstComponent field).length + 1) = otherComponents field := by
  rw [firstComponent, otherComponents, ← String.length_toList, String.toList_ofList]
  cases hCut : Text.partition '.' field.toList with
  | mk before behind? =>
    cases behind? with
    | none =>
      rw [Text.eq_of_partition_none hCut, List.drop_eq_nil_of_le (Nat.le_succ _)]
      rfl
    | some behind =>
      rw [Text.eq_of_partition hCut, ← List.drop_drop, List.drop_left]
      rfl

/-- A name without points selects the fields that have it in front of their first point. -/
theorem selects_iff {name field : String} (hName : '.' ∉ name.toList) :
    selects name field.toList = true ↔ name = firstComponent field := by
  rw [selects, firstComponent, Bool.or_eq_true, decide_eq_true_eq, List.isPrefixOf_iff_prefix]
  generalize field.toList = field
  constructor
  · rintro (rfl | ⟨rest, rfl⟩)
    · rw [Text.partition_of_not_mem hName, String.ofList_toList]
    · rw [List.append_assoc, List.singleton_append, Text.partition_append rest hName,
        String.ofList_toList]
  · rintro rfl
    rw [String.toList_ofList]
    cases hCut : Text.partition '.' field with
    | mk before behind? =>
      cases behind? with
      | none => exact Or.inl (Text.eq_of_partition_none hCut)
      | some behind =>
        refine Or.inr ⟨behind, ?_⟩
        rw [Text.eq_of_partition hCut, List.append_assoc, List.singleton_append]

theorem valueOf_eq {s : Schema} {name field : String} {v : Value} {arguments : List (String × Value)}
    (h : argumentFor? field.toList arguments = some (name, v)) :
    valueOf s field arguments = v.atPath s (field.toList.drop (name.length + 1)) := by
  rw [valueOf, h]

theorem valueOf_cons (s : Schema) {name field : String} (h : selects name field.toList = true) (v : Value)
    (arguments : List (String × Value)) :
    valueOf s field ((name, v) :: arguments) = v.atPath s (field.toList.drop (name.length + 1)) :=
  valueOf_eq (List.find?_cons_of_pos h)

/-! ## Paths as fillings -/

/-- Nothing has been warned of. -/
def Quiet (log : List Record) : Prop := ∀ record ∈ log, record.level ≠ .warning

theorem quiet_append_iff {front back : List Record} :
    Quiet (front ++ back) ↔ Quiet front ∧ Quiet back := List.forall_mem_append

/-- The string form of the value of a field, if it has one; nothing has the empty text. -/
def formAt? (s : Schema) (r : Registry) (arguments : List (String × Value)) (name : String) :
    Option String :=
  match valueOf s name arguments with
  | .ok .null => some ""
  | .ok v => (formOf s r v).toOption.bind Value.asText?
  | .error _ => none

/-- A path made of tokens and of one text for each field. -/
inductive Fills (P : Field → List Char → Prop) : List Token → List (List Char) → List Char → Prop where
  | nil : Fills P [] [] []
  | literal (text : String) {rest : List Token} {texts : List (List Char)} {path : List Char}
      (h : Fills P rest texts path) :
      Fills P (.literal text :: rest) texts (plainLiteral text.toList ++ path)
  | field {f : Field} {text : List Char} {rest : List Token} {texts : List (List Char)}
      {path : List Char} (hText : P f text) (h : Fills P rest texts path) :
      Fills P (.field f :: rest) (text :: texts) (text ++ path)

theorem Fills.forall₂ {P : Field → List Char → Prop} {tokens : List Token} {texts : List (List Char)}
    {path : List Char} (h : Fills P tokens texts path) :
    List.Forall₂ P (tokens.filterMap Token.field?) texts := by
  induction h with
  | nil => exact .nil
  | literal text h ih => exact ih
  | field hText h ih => exact .cons hText ih

theorem Fills.exists_text {P : Field → List Char → Prop} {tokens : List Token}
    {texts : List (List Char)} {path : List Char} (h : Fills P tokens texts path) {f : Field}
    (hf : .field f ∈ tokens) : ∃ text, P f text := by
  induction h with
  | nil => cases hf
  | literal text h ih =>
    rcases List.mem_cons.mp hf with hEq | hf
    · cases hEq
    · exact ih hf
  | field hText h ih =>
    rcases List.mem_cons.mp hf with hEq | hf
    · cases hEq
      exact ⟨_, hText⟩
    · exact ih hf

theorem Fills.forall_texts {P : Field → List Char → Prop} {Q : List Char → Prop}
    (hPQ : ∀ f text, P f text → Q text) {tokens : List Token} {texts : List (List Char)}
    {path : List Char} (h : Fills P tokens texts path) : ∀ text ∈ texts, Q text := by
  induction h with
  | nil => exact fun text hText => absurd hText List.not_mem_nil
  | literal text h ih => exact ih
  | field hText h ih => exact List.forall_mem_cons.mpr ⟨hPQ _ _ hText, ih⟩

/-! ## Texts of fields -/

section Text

variable {s : Schema} {r : Registry} {encoding : String} {arguments : List (String × Value)}
  {text : List Char} {log : List Record}

theorem percentEncode_eq_ok_iff {v : Value} : v.percentEncode encoding = .ok text ↔
    ∃ form, v.asText? = some form ∧ PercentEncoding.encode encoding form.toList = .ok text := by
  unfold Value.percentEncode
  split
  · rename_i form hForm
    rw [mapError_eq_ok_iff, hForm]
    simp
  · rename_i bytes hForm
    simp [hForm, throw, throwThe, MonadExceptOf.throw]
  · rename_i hForm
    simp [hForm, throw, throwThe, MonadExceptOf.throw]

theorem liftExcept_iff {ε α : Type} {wrap : ε → Error} {x : Except ε α} {a : α} :
    Yields (fieldText.liftExcept wrap x) a log ↔ x = .ok a ∧ log = [] := by
  cases x with
  | error e =>
    rw [fieldText.liftExcept, Yields.throw_iff]
    simp
  | ok b =>
    rw [fieldText.liftExcept, Yields.pure_iff, Except.ok.injEq, eq_comm]

theorem percentEncode_of_escaped {form : Value} (h : Yields (escaped encoding form) text log)
    (hQuiet : Quiet log) : form.percentEncode encoding = .ok text := by
  rw [escaped] at h
  split at h
  · rename_i encoded hEncoded
    obtain ⟨rfl, -⟩ := Yields.pure_iff.mp h
    exact hEncoded
  · exact (Yields.throw_iff.mp h).elim
  · split at h
    · obtain ⟨_, front, back, hReport, -, rfl⟩ := Yields.bind_iff.mp h
      obtain ⟨-, rfl⟩ := Yields.lift_iff.mp hReport
      exact absurd rfl (hQuiet _ (List.mem_append_left back List.mem_cons_self))
    · exact (Yields.throw_iff.mp h).elim

theorem encode_of_fieldText {f : Field} (h : Yields (fieldText s r encoding arguments f) text log)
    (hQuiet : Quiet log) : ∃ form, formAt? s r arguments f.name = some form ∧
      PercentEncoding.encode encoding form.toList = .ok text := by
  obtain ⟨v, front, back, hLift, hRest, rfl⟩ := Yields.bind_iff.mp h
  obtain ⟨hValue, rfl⟩ := liftExcept_iff.mp hLift
  rw [formAt?, hValue]
  split at hRest
  · obtain ⟨rfl, -⟩ := Yields.pure_iff.mp hRest
    exact ⟨"", rfl, rfl⟩
  · rename_i hNull
    obtain ⟨form, front', back', hLift, hEscaped, rfl⟩ := Yields.bind_iff.mp hRest
    obtain ⟨hForm, rfl⟩ := liftExcept_iff.mp hLift
    obtain ⟨form', hText, hEncode⟩ :=
      percentEncode_eq_ok_iff.mp (percentEncode_of_escaped hEscaped hQuiet)
    refine ⟨form', ?_, hEncode⟩
    split
    · rename_i hEq
      cases hEq
      exact absurd rfl hNull
    · rename_i v' _ hEq
      cases hEq
      rw [hForm]
      exact hText
    · rename_i hEq
      cases hEq

end Text

/-! ## Paths -/

section Path

variable {s : Schema} {r : Registry} {encoding : String} {arguments : List (String × Value)}
  {path : List Char} {log : List Record}

/-- The encoded form of what a field starts from. -/
def EncodedForm (s : Schema) (r : Registry) (encoding : String) (arguments : List (String × Value))
    (f : Field) (text : List Char) : Prop :=
  ∃ form, formAt? s r arguments f.name = some form ∧
    PercentEncoding.encode encoding form.toList = .ok text

theorem fills_of_tokensByName {tokens : List Token}
    (h : Yields (tokensByName s r encoding arguments tokens) path log) (hQuiet : Quiet log) :
    ∃ texts, Fills (EncodedForm s r encoding arguments) tokens texts path := by
  induction tokens generalizing path log with
  | nil =>
    obtain ⟨rfl, -⟩ := Yields.pure_iff.mp h
    exact ⟨[], .nil⟩
  | cons token rest ih =>
    cases token with
    | literal text =>
      obtain ⟨path', front, back, hRest, hPure, rfl⟩ := Yields.bind_iff.mp h
      obtain ⟨rfl, rfl⟩ := Yields.pure_iff.mp hPure
      obtain ⟨texts, hFills⟩ := ih hRest (quiet_append_iff.mp hQuiet).1
      exact ⟨texts, hFills.literal text⟩
    | field f =>
      obtain ⟨text, front, back, hText, hMore, rfl⟩ := Yields.bind_iff.mp h
      obtain ⟨path', front', back', hRest, hPure, rfl⟩ := Yields.bind_iff.mp hMore
      obtain ⟨rfl, rfl⟩ := Yields.pure_iff.mp hPure
      obtain ⟨hFront, hBack⟩ := quiet_append_iff.mp hQuiet
      obtain ⟨texts, hFills⟩ := ih hRest (quiet_append_iff.mp hBack).1
      exact ⟨text :: texts, hFills.field (encode_of_fieldText hText hFront)⟩

theorem fills_of_byName {t : Template} {names : List Declared} {values : List Value}
    (h : Yields (byName s r encoding t names values) path log) (hQuiet : Quiet log) :
    ∃ texts, Fills (EncodedForm s r encoding ((names.map Declared.nameOf).zip values)) t.tokens
      texts path := by
  rw [byName] at h
  split at h
  · exact (Yields.throw_iff.mp h).elim
  · exact fills_of_tokensByName h hQuiet

/-! ## Splits -/

theorem plainLiteral_gap (text : List Char) :
    plainLiteral ('/' :: '*' :: text) = '/' :: plainLiteral text := by
  simp [plainLiteral, Text.splitOnPair]

theorem plainLiteral_char {c : Char} {text : List Char}
    (hPair : ∀ rest, c :: text ≠ '/' :: '*' :: rest) :
    plainLiteral (c :: text) = c :: plainLiteral text := by
  cases text with
  | nil => rfl
  | cons d text =>
    have hNot : ¬ (c = '/' ∧ d = '*') := by
      rintro ⟨rfl, rfl⟩
      exact hPair text rfl
    simp [plainLiteral, Text.splitOnPair, hNot]

theorem literalText_plainLiteral (text : List Char) : LiteralText text (plainLiteral text) := by
  induction text using Template.literal_cases with
  | nil => exact .nil
  | gap text ih =>
    rw [plainLiteral_gap]
    exact .gap (u := []) List.not_mem_nil ih
  | char c text hPair ih =>
    rw [plainLiteral_char hPair]
    exact .char hPair ih

theorem mem_of_mem_plainLiteral {text : List Char} {c : Char} (h : c ∈ plainLiteral text) :
    c ∈ text := by
  induction text using Template.literal_cases with
  | nil => exact h
  | gap text ih =>
    rw [plainLiteral_gap] at h
    rcases List.mem_cons.mp h with rfl | h
    · exact List.mem_cons_self
    · exact List.mem_cons_of_mem _ (List.mem_cons_of_mem _ (ih h))
  | char d text hPair ih =>
    rw [plainLiteral_char hPair] at h
    rcases List.mem_cons.mp h with rfl | h
    · exact List.mem_cons_self
    · exact List.mem_cons_of_mem _ (ih h)

/-- The characters of a path are those of literal text and of the texts of fields. -/
theorem Fills.forall_path {P : Field → List Char → Prop} {Q : Char → Prop} {tokens : List Token}
    {texts : List (List Char)} (h : Fills P tokens texts path)
    (hLiteral : ∀ text, .literal text ∈ tokens → ∀ c ∈ text.toList, Q c)
    (hField : ∀ f text, P f text → ∀ c ∈ text, Q c) : ∀ c ∈ path, Q c := by
  induction h with
  | nil => exact List.forall_mem_nil Q
  | literal text h ih =>
    refine List.forall_mem_append.mpr ⟨fun c hc => ?_, ih fun text hMem => ?_⟩
    · exact hLiteral text List.mem_cons_self c (mem_of_mem_plainLiteral hc)
    · exact hLiteral text (List.mem_cons_of_mem _ hMem)
  | field hText h ih =>
    refine List.forall_mem_append.mpr ⟨hField _ _ hText, ih fun text hMem => ?_⟩
    exact hLiteral text (List.mem_cons_of_mem _ hMem)

/-- The path splits into the texts that it was filled with, where the fields take them. -/
theorem Fills.splits {P : Field → List Char → Prop} {sets : Field → Language Char}
    {tokens : List Token} {texts : List (List Char)} (h : Fills P tokens texts path)
    (hSets : ∀ f text, .field f ∈ tokens → P f text → text ∈ sets f) :
    Splits sets tokens texts path := by
  induction h with
  | nil => exact .nil
  | literal text h ih =>
    exact .literal (literalText_plainLiteral _)
      (ih fun f text hMem => hSets f text (List.mem_cons_of_mem _ hMem))
  | field hText h ih =>
    exact .field (hSets _ _ List.mem_cons_self hText)
      (ih fun f text hMem => hSets f text (List.mem_cons_of_mem _ hMem))

end Path

end UriRouting.Generation
