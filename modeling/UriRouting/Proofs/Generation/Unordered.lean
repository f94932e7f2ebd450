import Mathlib.Data.List.Nodup
import UriRouting.Proofs.Generation.Typed
import UriRouting.Proofs.Log

/-! # Arguments in any order

A field looks for its argument from the front, by the beginning of its name. Between names without points
it finds the one that is the first component of its own, wherever that one stands, so that a path depends
on which arguments there are and not on their order. -/

set_option autoImplicit false

namespace UriRouting.Generation

open Template (Field Token)

/-! ## What a field takes -/

/-- The argument of the first component, followed along the other components, or nothing if there is no
argument of that very name. -/
inductive Takes (s : Schema) (arguments : List (String × Value)) (field : String) :
    Except Value.Fault Value → Prop where
  | argument {v : Value} (h : (firstComponent field, v) ∈ arguments) :
      Takes s arguments field (v.atPath s (otherComponents field))
  | nothing (h : firstComponent field ∉ arguments.map Prod.fst) : Takes s arguments field (.ok .null)

section Takes

variable {s : Schema} {arguments arguments' : List (String × Value)} {field : String}

theorem takes_valueOf (hPlain : ∀ entry ∈ arguments, '.' ∉ entry.1.toList) (field : String) :
    Takes s arguments field (valueOf s field arguments) := by
  cases hFind : argumentFor? field.toList arguments with
  | none =>
    rw [valueOf, hFind]
    refine .nothing fun hMem => ?_
    obtain ⟨entry, hEntry, hName⟩ := List.mem_map.mp hMem
    exact List.find?_eq_none.mp hFind entry hEntry ((selects_iff (hPlain entry hEntry)).mpr hName)
  | some entry =>
    have hEntry := List.mem_of_find?_eq_some hFind
    have hSelects : selects entry.1 field.toList = true :=
      List.find?_some (p := fun entry : String × Value => selects entry.1 field.toList) hFind
    have hName : entry.1 = firstComponent field := (selects_iff (hPlain entry hEntry)).mp hSelects
    rw [valueOf_eq hFind, hName, drop_firstComponent]
    exact .argument (hName ▸ hEntry)

theorem Takes.unique (hDistinct : (arguments.map Prod.fst).Nodup) {x y : Except Value.Fault Value}
    (hx : Takes s arguments field x) (hy : Takes s arguments field y) : x = y := by
  cases hx with
  | argument h =>
    cases hy with
    | argument h' =>
      obtain rfl := (Prod.mk.inj (List.inj_on_of_nodup_map hDistinct h h' rfl)).2
      rfl
    | nothing h' => exact absurd (List.mem_map_of_mem (f := Prod.fst) h) h'
  | nothing h =>
    cases hy with
    | argument h' => exact absurd (List.mem_map_of_mem (f := Prod.fst) h') h
    | nothing => rfl

theorem Takes.of_perm (hPerm : arguments.Perm arguments') {x : Except Value.Fault Value}
    (h : Takes s arguments field x) : Takes s arguments' field x := by
  cases h with
  | argument h => exact .argument (hPerm.mem_iff.mp h)
  | nothing h => exact .nothing (mt (hPerm.map Prod.fst).mem_iff.mpr h)

theorem valueOf_eq_of_perm (hPerm : arguments.Perm arguments')
    (hDistinct : (arguments.map Prod.fst).Nodup)
    (hPlain : ∀ entry ∈ arguments, '.' ∉ entry.1.toList) (field : String) :
    valueOf s field arguments = valueOf s field arguments' := by
  have hPlain' : ∀ entry ∈ arguments', '.' ∉ entry.1.toList :=
    fun entry hEntry => hPlain entry (hPerm.mem_iff.mpr hEntry)
  exact (takes_valueOf hPlain field).unique hDistinct ((takes_valueOf hPlain' field).of_perm hPerm.symm)

end Takes

/-! ## Paths from what the fields take -/

section Path

variable {s : Schema} {r : Registry} {encoding : String}

/-- The text that a value, or the failure to come by it, leaves in a path. -/
def textOf (s : Schema) (r : Registry) (encoding : String) (value : Except Value.Fault Value) :
    LoggedExcept Error (List Char) := do
  match ← fieldText.liftExcept Error.fault value with
  | .null => pure []
  | v =>
    let form ← fieldText.liftExcept Error.converter (formOf s r v)
    escaped encoding form

def pathOf (text : Field → LoggedExcept Error (List Char)) :
    List Token → LoggedExcept Error (List Char)
  | [] => pure []
  | .literal literal :: rest => do
    let path ← pathOf text rest
    pure (plainLiteral literal.toList ++ path)
  | .field f :: rest => do
    let first ← text f
    let path ← pathOf text rest
    pure (first ++ path)

theorem tokensByName_eq_pathOf (arguments : List (String × Value)) (tokens : List Token) :
    tokensByName s r encoding arguments tokens =
      pathOf (fun f => textOf s r encoding (valueOf s f.name arguments)) tokens := by
  induction tokens with
  | nil => rfl
  | cons token rest ih =>
    cases token with
    | literal text => rw [tokensByName, pathOf, ih]
    | field f =>
      rw [tokensByName, pathOf, ih]
      rfl

/-- Arguments under their names. -/
def named (arguments : List (Declared × Value)) : List (String × Value) :=
  arguments.map fun entry => (entry.1.nameOf, entry.2)

theorem byName_eq_tokensByName (t : Template) (arguments : List (Declared × Value)) :
    byName s r encoding t (arguments.map Prod.fst) (arguments.map Prod.snd) =
      tokensByName s r encoding (named arguments) t.tokens := by
  have hZip : ((arguments.map Prod.fst).map Declared.nameOf).zip (arguments.map Prod.snd) = named arguments := by
    rw [List.map_map, List.zip_map']
    rfl
  rw [byName, if_neg (by simp), hZip]

/-- The order in which arguments of different names are given shows neither in the path nor in the records
nor in the error. Each field takes the argument that has the first component of its name for a name. -/
theorem byName_eq_of_perm {t : Template} {arguments arguments' : List (Declared × Value)}
    (hPerm : arguments.Perm arguments') (hDistinct : (arguments.map fun entry => entry.1.nameOf).Nodup)
    (hPlain : ∀ entry ∈ arguments, '.' ∉ entry.1.nameOf.toList) :
    let path (arguments : List (Declared × Value)) :=
      byName s r encoding t (arguments.map Prod.fst) (arguments.map Prod.snd)
    path arguments = path arguments' ∧ ∃ taken : Field → Except Value.Fault Value,
      (∀ f x, Takes s (named arguments) f.name x ↔ x = taken f) ∧
        path arguments = pathOf (fun f => textOf s r encoding (taken f)) t.tokens := by
  intro path
  have hDistinct : ((named arguments).map Prod.fst).Nodup := by
    rw [named, List.map_map]
    exact hDistinct
  have hPlain : ∀ entry ∈ named arguments, '.' ∉ entry.1.toList := List.forall_mem_map.mpr hPlain
  have hPath (arguments : List (Declared × Value)) : path arguments =
      pathOf (fun f => textOf s r encoding (valueOf s f.name (named arguments))) t.tokens :=
    (byName_eq_tokensByName t arguments).trans (tokensByName_eq_pathOf _ _)
  refine ⟨?_, fun f => valueOf s f.name (named arguments), fun f x => ⟨fun hx => ?_, ?_⟩, hPath arguments⟩
  · rw [hPath, hPath]
    refine congrArg (pathOf · t.tokens) (funext fun f => congrArg (textOf s r encoding) ?_)
    exact valueOf_eq_of_perm (hPerm.map _) hDistinct hPlain f.name
  · exact hx.unique hDistinct (takes_valueOf hPlain f.name)
  · rintro rfl
    exact takes_valueOf hPlain f.name

/-- Names of which one begins with another, in two orders, and a field that begins with none of them. -/
theorem byName_eq_of_perm_of_user :
    let user := Value.object "User" [("id", .int 5), ("", .str "é")] .null
    let arguments : List (Declared × Value) :=
      [(.name "user", user), (.name "username", .str "ada"), (.parameter ⟨"user_id", .absent⟩, .int 7)]
    ∃ t, Template.compile {} "/{user.id}/{username}/{user_id}/{user.}/{use}" = .ok t ∧
      Yields (byName {} .builtin "ascii" t (arguments.reverse.map Prod.fst) (arguments.reverse.map Prod.snd))
        "/5/ada/7/%3CUser%3E/".toList [] := by
  intro user arguments
  let path (t : Template) (arguments : List (Declared × Value)) :=
    byName {} .builtin "ascii" t (arguments.map Prod.fst) (arguments.map Prod.snd)
  obtain ⟨t, hCompile, hTest⟩ := exists_ok_of_any
    (x := Template.compile {} "/{user.id}/{username}/{user_id}/{user.}/{use}")
    (p := fun t => (path t arguments).run.value.toOption = some "/5/ada/7/%3CUser%3E/".toList ∧
      (path t arguments).run.log = []) (by decide +kernel)
  obtain ⟨hValue, hLog⟩ := of_decide_eq_true hTest
  have hPlain : ∀ entry ∈ arguments, '.' ∉ entry.1.nameOf.toList :=
    List.forall_mem_cons.mpr ⟨by decide, List.forall_mem_cons.mpr
      ⟨by decide, List.forall_mem_singleton.mpr (by decide)⟩⟩
  have hSame : path t arguments = path t arguments.reverse :=
    (byName_eq_of_perm arguments.reverse_perm.symm (by decide) hPlain).1
  refine ⟨t, hCompile, ?_⟩
  change Yields (path t arguments.reverse) _ []
  rw [← hSame]
  exact Yields.of_run hValue hLog

end Path

end UriRouting.Generation
