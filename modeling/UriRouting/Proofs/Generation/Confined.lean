import UriRouting.Proofs.Generation
import UriRouting.Proofs.PercentEncoding.Canonical

/-! # Values stay within their fields

Whatever a value is, what it leaves in a path is unreserved characters and escapes, so that the slashes
and the other marks with a meaning in paths are those of the template. A form that has to be escaped and
cannot be is the only way out. Each one is warned of once, unless the name of the charset is of the kind
that ends the run. -/

set_option autoImplicit false

namespace UriRouting.Generation

open Template (Field Token)
open PercentEncoding (Canonical isUnreserved isWritten)

/-- The text has to be escaped, in a charset that is unknown or has no bytes for it. -/
def cannotEncode (encoding : String) (text : List Char) : Bool :=
  !text.all isUnreserved &&
    match Charset.ofName? encoding with
    | some cs => !(cs.encode text).isOk
    | none => true

/-- Names of no charset whose failures are not put up with: those that hold the zero character, and those
of the charset that fails at every text. -/
def isRefused (encoding : String) : Bool :=
  encoding.toList.contains '\x00' || Charset.normalName encoding.toList = "undefined".toList

section Warnings

variable {s : Schema} {r : Registry} {encoding : String} {arguments : List (String × Value)}

def warningOf? (encoding : String) (form : Value) : Option Record :=
  if form.asText?.any fun text => cannotEncode encoding text.toList then
    some ⟨.warning,
      "Can't encode parameter : " ++ String.ofList form.text ++ " with encoding : " ++ encoding⟩
  else none

/-- The warning that a field gives rise to. A field without a value, or whose value has no string form,
gives rise to none. -/
def warningAt? (s : Schema) (r : Registry) (encoding : String) (arguments : List (String × Value))
    (f : Field) : Option Record :=
  match valueOf s f.name arguments with
  | .error _ | .ok .null => none
  | .ok v => (formOf s r v).toOption.bind (warningOf? encoding)

/-- How far a run over fields gets: it is through with `reached`, and what is left begins with the field
that it fails at. -/
structure Reaches (s : Schema) (r : Registry) (encoding : String) (arguments : List (String × Value))
    (result : Logged (Except Error (List Char))) (reached unreached : List Field) : Prop where
  /-- Every form that cannot be encoded is warned of, once and in order. -/
  log_eq : result.log = reached.filterMap (warningAt? s r encoding arguments)
  unreached_eq : result.value.isOk = true → unreached = []
  /-- With a refused name there are no such forms among the fields that the run is through with. -/
  log_of_isRefused : isRefused encoding = true → result.log = []
  /-- An error of a charset is that of a refused name, at a field whose form cannot be encoded. -/
  refused : ∀ e, result.value = .error (.charset e) → e = .ofName encoding ∧ isRefused encoding = true ∧
    ∃ f ∈ unreached.head?, (warningAt? s r encoding arguments f).isSome = true

namespace Reaches

variable {reached unreached : List Field} {x : LoggedExcept Error (List Char)} {f : Field}

theorem of_error {e : Error} (h : ∀ e', e = .charset e' → e' = .ofName encoding ∧ isRefused encoding = true ∧
      ∃ f ∈ unreached.head?, (warningAt? s r encoding arguments f).isSome = true) :
    Reaches s r encoding arguments ⟨.error e, []⟩ [] unreached where
  log_eq := rfl
  unreached_eq hOk := by cases hOk
  log_of_isRefused _ := rfl
  refused e' hEq := h e' (Except.error.inj hEq)

theorem cons (h : Reaches s r encoding arguments x.run reached unreached)
    (hRefused : isRefused encoding = true → warningAt? s r encoding arguments f = none) :
    Reaches s r encoding arguments
      ⟨x.run.value, (warningAt? s r encoding arguments f).toList ++ x.run.log⟩ (f :: reached) unreached where
  log_eq := by
    rw [List.filterMap_cons, h.log_eq]
    cases warningAt? s r encoding arguments f <;> rfl
  unreached_eq := h.unreached_eq
  log_of_isRefused hTrue := by
    rw [hRefused hTrue, h.log_of_isRefused hTrue]
    rfl
  refused := h.refused

end Reaches

end Warnings

/-! ## Marks -/

def literalCount (c : Char) : List Token → Nat
  | [] => 0
  | .literal text :: rest => (plainLiteral text.toList).count c + literalCount c rest
  | .field _ :: rest => literalCount c rest

theorem Fills.count_eq {P : Field → List Char → Prop} {c : Char} (hc : ∀ f text, P f text → c ∉ text)
    {tokens : List Token} {texts : List (List Char)} {path : List Char} (h : Fills P tokens texts path) :
    path.count c = literalCount c tokens := by
  induction h with
  | nil => rfl
  | literal text h ih => rw [List.count_append, ih, literalCount]
  | field hText h ih => rw [List.count_append, ih, List.count_eq_zero.mpr (hc _ _ hText), Nat.zero_add, literalCount]

theorem Fills.mono {P Q : Field → List Char → Prop} (hPQ : ∀ f text, P f text → Q f text)
    {tokens : List Token} {texts : List (List Char)} {path : List Char} (h : Fills P tokens texts path) :
    Fills Q tokens texts path := by
  induction h with
  | nil => exact .nil
  | literal text h ih => exact .literal text ih
  | field hText h ih => exact .field (hPQ _ _ hText) ih

end UriRouting.Generation
