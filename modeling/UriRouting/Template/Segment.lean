import UriRouting.Text.Split

/-! # Segments of a template

A template is cut into literal text and field expressions, from left to right. A field expression
reaches to the first closing brace, or over two closing braces in a row if another brace opens
behind its start; an opening brace that begins no field expression is literal text. -/

set_option autoImplicit false

namespace UriRouting.Template

inductive Segment where
  | literal (text : List Char)
  /-- What stands between the braces of a field expression. -/
  | field (content : List Char)
deriving DecidableEq, Repr

namespace Segment

def source : Segment → List Char
  | literal text => text
  | field content => '{' :: content ++ ['}']

def isLiteral : Segment → Bool
  | literal _ => true
  | field _ => false

end Segment

def opensAgain : List Char → Bool
  | c :: rest => c ≠ '{' && rest.contains '{'
  | [] => false

def fieldContent? (s : List Char) : Option (List Char) :=
  match Text.partition '}' s with
  | (_, none) => none
  | (head, some behind) =>
    if head.isEmpty then none
    else if opensAgain s && behind.head? = some '}' then some (head ++ ['}'])
    else some head

theorem fieldContent?_append {s content : List Char} (h : fieldContent? s = some content) :
    ∃ rest, s = content ++ '}' :: rest := by
  rw [fieldContent?] at h
  split at h
  · cases h
  · rename_i head behind hp
    have hs := Text.eq_of_partition hp
    split at h
    · cases h
    split at h
    · rename_i _ hopen
      rw [Bool.and_eq_true, decide_eq_true_eq] at hopen
      obtain ⟨rest, rfl⟩ := List.head?_eq_some_iff.mp hopen.2
      cases h
      exact ⟨rest, by simpa using hs⟩
    · cases h
      exact ⟨behind, hs⟩

def literalCons (c : Char) : List Segment → List Segment
  | .literal text :: rest => .literal (c :: text) :: rest
  | segments => .literal [c] :: segments

/-- The segments behind `skip` characters. -/
def segmentsFrom : Nat → List Char → List Segment
  | _, [] => []
  | skip + 1, _ :: rest => segmentsFrom skip rest
  | 0, c :: rest =>
    if c = '{' then
      match fieldContent? rest with
      | some content => .field content :: segmentsFrom (content.length + 1) rest
      | none => literalCons c (segmentsFrom 0 rest)
    else literalCons c (segmentsFrom 0 rest)

def segments (template : List Char) : List Segment := segmentsFrom 0 template

theorem source_literalCons (c : Char) (segments : List Segment) :
    (literalCons c segments).flatMap Segment.source = c :: segments.flatMap Segment.source := by
  cases segments with
  | nil => rfl
  | cons s rest => cases s <;> simp [literalCons, Segment.source]

theorem source_segmentsFrom (skip : Nat) (s : List Char) :
    (segmentsFrom skip s).flatMap Segment.source = s.drop skip := by
  induction s generalizing skip with
  | nil => simp [segmentsFrom]
  | cons c rest ih =>
    cases skip with
    | succ skip => simpa [segmentsFrom] using ih skip
    | zero =>
      rw [segmentsFrom]
      split
      · rename_i hc
        cases hf : fieldContent? rest with
        | none => simp [source_literalCons, ih]
        | some content =>
          obtain ⟨behind, hb⟩ := fieldContent?_append hf
          have hdrop : rest.drop (content.length + 1) = behind := by
            rw [hb, List.drop_append]
            simp
          rw [List.flatMap_cons, ih, hdrop, hb, hc]
          simp [Segment.source]
      · simp [source_literalCons, ih]

theorem source_segments (template : List Char) :
    (segments template).flatMap Segment.source = template := source_segmentsFrom 0 template

end UriRouting.Template
