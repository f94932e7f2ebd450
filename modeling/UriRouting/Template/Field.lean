import UriRouting.Template.Error
import UriRouting.Text.Split

/-! # Field expressions

A name, a name with an asterisk for a field that takes whatever is left, or a name and a pattern with
a colon between them. -/

set_option autoImplicit false

namespace UriRouting.Template

structure FieldExpr where
  name : String
  pattern? : Option String
  wildcard : Bool
deriving DecidableEq, Repr

def splitField (content : List Char) : Except Reason FieldExpr :=
  match Text.partition ':' content with
  | (name, some []) => throw (.emptyPattern (String.ofList name))
  | (name, some pattern) => pure ⟨String.ofList name, some (String.ofList pattern), false⟩
  | (name, none) =>
    if name.getLast? = some '*' then pure ⟨String.ofList name.dropLast, none, true⟩
    else pure ⟨String.ofList name, none, false⟩

def readField (content : List Char) : Except Reason FieldExpr := do
  let field ← splitField content
  if field.name.isEmpty then throw (.unnamedField (String.ofList content))
  else if field.name.toList.contains '{' || field.name.toList.contains '}' then
    throw (.braceInName field.name)
  else pure field

def hasEmptyField : List Char → Bool
  | '{' :: '}' :: _ => true
  | _ :: rest => hasEmptyField rest
  | [] => false

def checkLiteral (text : List Char) : Except Reason Unit :=
  if hasEmptyField text then throw .emptyField
  else if text.contains '{' || text.contains '}' then throw .unbalancedBraces
  else pure ()

theorem checkLiteral_eq_ok_iff {text : List Char} :
    checkLiteral text = .ok () ↔ '{' ∉ text ∧ '}' ∉ text := by
  have hempty : hasEmptyField text = true → '{' ∈ text := by
    fun_induction hasEmptyField text with
    | case1 => simp
    | case2 _ _ _ ih => intro h; exact List.mem_cons_of_mem _ (ih h)
    | case3 => simp
  unfold checkLiteral
  by_cases he : hasEmptyField text = true
  · simp [he, hempty he, throw, throwThe, MonadExceptOf.throw]
  · by_cases hb : '{' ∈ text ∨ '}' ∈ text
    · simp [he, hb, throw, throwThe, MonadExceptOf.throw]
      exact fun h => hb.resolve_left h
    · simp [he, not_or.mp hb, pure, Except.pure]

end UriRouting.Template
