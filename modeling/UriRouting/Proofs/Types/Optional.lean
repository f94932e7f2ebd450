import Mathlib.Data.List.Forall2
import UriRouting.Proofs.Distinct
import UriRouting.Proofs.Outcome
import UriRouting.Types.FieldKind
import UriRouting.Types.Parameter

/-! # Optional types

Where a type leads, and which pattern it gives, hangs on the one type that is left of it without the type
of nothing, if one is left. To make a type optional changes nothing about that, so that along a dotted
name types and the same types made optional lead alike. -/

set_option autoImplicit false

namespace UriRouting

namespace TypeExpr

/-! ## What is left of a type -/

/-- The class or nothing that a type stands for, unless it is a union of more. -/
def only? (t : TypeExpr) : Option Atom :=
  match t.required with
  | .atom a => some a
  | _ => none

/-- The one type among members, the type of nothing aside. -/
def onlyOf? (members : List Atom) : Option Atom :=
  match members.eraseDups.filter (· ≠ .builtin .noneType) with
  | [] => some (.builtin .noneType)
  | [a] => some a
  | _ => none

/-- Unions have several members, none of them twice, and no type is given as text. -/
structure IsProper (t : TypeExpr) : Prop where
  isUnion : ∀ style members, t = .union style members → members.Nodup ∧ 2 ≤ members.length
  notText : ∀ text, .text text ∉ t.members

theorem onlyOf?_eraseDups (as : List Atom) : onlyOf? as.eraseDups = onlyOf? as := by
  rw [onlyOf?, onlyOf?, eraseDups_of_nodup (nodup_eraseDups as)]

theorem onlyOf?_eq_of_filter {as bs : List Atom}
    (h : as.filter (· ≠ .builtin .noneType) = bs.filter (· ≠ .builtin .noneType)) :
    onlyOf? as = onlyOf? bs := by
  rw [onlyOf?, onlyOf?, filter_eraseDups, filter_eraseDups, h]

theorem only?_atom (a : Atom) : (atom a).only? = onlyOf? [a] := by
  by_cases ha : a = .builtin .noneType
  · subst ha
    rfl
  · simp [only?, required, onlyOf?, List.eraseDups_cons, ha]

theorem only?_union {members : List Atom} (hNodup : members.Nodup) (hTwo : 2 ≤ members.length)
    (style : UnionStyle) : (union style members).only? = onlyOf? members := by
  rw [only?, required, onlyOf?, eraseDups_of_nodup hNodup]
  cases hLeft : members.filter (· ≠ .builtin .noneType) with
  | nil =>
    -- Of two members that differ one is not the type of nothing.
    have hNothing : ∀ a ∈ members, a = .builtin .noneType := by
      intro a ha
      simpa using List.filter_eq_nil_iff.mp hLeft a ha
    have hOne := (List.nodup_iff_count_le_one.mp hNodup) (.builtin .noneType)
    rw [List.count_eq_length.mpr fun a ha => (hNothing a ha).symm] at hOne
    omega
  | cons a rest =>
    cases rest with
    | nil => rfl
    | cons b rest => rfl

theorem only?_of_isProper {t : TypeExpr} (h : t.IsProper) (hAbsent : t ≠ .absent) :
    t.only? = onlyOf? t.members := by
  cases t with
  | absent => exact absurd rfl hAbsent
  | atom a => exact only?_atom a
  | union style members =>
    obtain ⟨hNodup, hTwo⟩ := h.isUnion style members rfl
    exact only?_union hNodup hTwo style

/-! ## Unions that are built -/

section UnionOf

variable {types : List TypeExpr}

theorem members_ne_nil {t : TypeExpr} (h : t.IsProper) : t.members ≠ [] := by
  cases t with
  | absent => exact List.cons_ne_nil _ _
  | atom a => exact List.cons_ne_nil _ _
  | union style members =>
    have hTwo := (h.isUnion style members rfl).2
    rintro rfl
    cases hTwo

theorem unionOf_cases (hMembers : types.flatMap members ≠ []) (style : UnionStyle) :
    (∃ a, (types.flatMap members).eraseDups = [a] ∧ unionOf style types = atom a) ∨
      2 ≤ (types.flatMap members).eraseDups.length ∧
        ∃ style', unionOf style types = union style' (types.flatMap members).eraseDups := by
  rw [unionOf]
  cases hDistinct : (types.flatMap members).eraseDups with
  | nil =>
    obtain ⟨a, ha⟩ := List.exists_mem_of_ne_nil _ hMembers
    have hMem := List.mem_eraseDups.mpr ha
    rw [hDistinct] at hMem
    cases hMem
  | cons a rest =>
    cases rest with
    | nil => exact Or.inl ⟨a, rfl, rfl⟩
    | cons b rest =>
      refine Or.inr ⟨Nat.le_add_left _ _, ?_⟩
      cases style with
      | named => exact ⟨_, rfl⟩
      | bars => exact ⟨_, rfl⟩

theorem members_unionOf (hMembers : types.flatMap members ≠ []) (style : UnionStyle) :
    (unionOf style types).members = (types.flatMap members).eraseDups := by
  obtain ⟨a, hDistinct, hEq⟩ | ⟨-, style', hEq⟩ := unionOf_cases hMembers style
  · rw [hEq, hDistinct]
    rfl
  · rw [hEq]
    rfl

theorem unionOf_ne_absent (hMembers : types.flatMap members ≠ []) (style : UnionStyle) :
    unionOf style types ≠ .absent := by
  obtain ⟨a, -, hEq⟩ | ⟨-, style', hEq⟩ := unionOf_cases hMembers style <;> rw [hEq] <;>
    exact TypeExpr.noConfusion

theorem isProper_unionOf (hMembers : types.flatMap members ≠ [])
    (hText : ∀ text, .text text ∉ types.flatMap members) (style : UnionStyle) :
    (unionOf style types).IsProper where
  isUnion style' as hEq := by
    obtain ⟨a, -, hEq'⟩ | ⟨hTwo, style'', hEq'⟩ := unionOf_cases hMembers style
    · cases hEq'.symm.trans hEq
    · cases hEq'.symm.trans hEq
      exact ⟨nodup_eraseDups _, hTwo⟩
  notText text := by
    rw [members_unionOf hMembers, List.mem_eraseDups]
    exact hText text

end UnionOf

/-! ## Types made optional -/

/-- The same type, or the union of it and nothing, however it is written. -/
inductive Relaxed (t : TypeExpr) : TypeExpr → Prop where
  | same : Relaxed t t
  | orNothing (style : UnionStyle) : Relaxed t (unionOf style [t, ofBuiltin .noneType])
  | nothingOr (style : UnionStyle) : Relaxed t (unionOf style [ofBuiltin .noneType, t])

section Relaxed

variable {t t' : TypeExpr}

theorem Relaxed.cases_eq (h : t.Relaxed t') : t' = t ∨ ∃ style types, t' = unionOf style types ∧
    (types.flatMap members = t.members ++ [.builtin .noneType] ∨
      types.flatMap members = .builtin .noneType :: t.members) := by
  cases h with
  | same => exact Or.inl rfl
  | orNothing style => exact Or.inr ⟨style, _, rfl, Or.inl (by simp [members, ofBuiltin])⟩
  | nothingOr style => exact Or.inr ⟨style, _, rfl, Or.inr (by simp [members, ofBuiltin])⟩

theorem Relaxed.isProper (h : t.Relaxed t') (hProper : t.IsProper) : t'.IsProper := by
  obtain rfl | ⟨style, types, rfl, hMembers | hMembers⟩ := h.cases_eq
  · exact hProper
  all_goals
    refine isProper_unionOf (by simp [hMembers]) (fun text hText => ?_) style
    rw [hMembers] at hText
    exact hProper.notText text (by simpa using hText)

/-- The type of nothing among the members is passed over. -/
theorem Relaxed.onlyOf?_eq (h : t.Relaxed t') : onlyOf? t'.members = onlyOf? t.members := by
  obtain rfl | ⟨style, types, rfl, hMembers | hMembers⟩ := h.cases_eq
  · rfl
  all_goals
    rw [members_unionOf (by simp [hMembers]), onlyOf?_eraseDups, hMembers]
    exact onlyOf?_eq_of_filter (by simp)

theorem Relaxed.eq_absent (h : t.Relaxed t') (hAbsent : t' = .absent) : t = .absent := by
  obtain rfl | ⟨style, types, rfl, hMembers | hMembers⟩ := h.cases_eq
  · exact hAbsent
  all_goals exact absurd hAbsent (unionOf_ne_absent (by simp [hMembers]) style)

end Relaxed

/-- What is found at both ends of a dotted name: nothing, or types of which the same is left. -/
structure Alike (t t' : TypeExpr) : Prop where
  absent_iff : t = .absent ↔ t' = .absent
  only?_eq : t.only? = t'.only?

theorem Alike.refl (t : TypeExpr) : t.Alike t := ⟨Iff.rfl, rfl⟩

theorem Relaxed.alike {t t' : TypeExpr} (h : t.Relaxed t') (hProper : t.IsProper)
    (hAnnotated : t = .absent → t' = .absent) : t.Alike t' := by
  refine ⟨⟨hAnnotated, h.eq_absent⟩, ?_⟩
  by_cases hAbsent : t = .absent
  · rw [hAnnotated hAbsent, hAbsent]
  · rw [only?_of_isProper hProper hAbsent, only?_of_isProper (h.isProper hProper) (mt h.eq_absent hAbsent),
      h.onlyOf?_eq]

end TypeExpr

/-! ## Annotations -/

namespace Annotation

open TypeExpr (IsProper onlyOf?)

theorem resolve_eq_ok {t : TypeExpr} (s : Schema) (h : t.IsProper) :
    ∃ u, resolve s t = .ok u ∧ u ≠ .absent ∧ u.only? = onlyOf? t.members := by
  cases t with
  | absent => exact ⟨_, rfl, TypeExpr.noConfusion, rfl⟩
  | atom a =>
    refine ⟨.atom a, ?_, TypeExpr.noConfusion, TypeExpr.only?_atom a⟩
    cases a with
    | text text => exact absurd List.mem_cons_self (h.notText text)
    | _ => rfl
  | union style members =>
    obtain ⟨hNodup, hTwo⟩ := h.isUnion style members rfl
    have hMembers : (members.map TypeExpr.atom).flatMap TypeExpr.members = members := by
      rw [List.flatMap_map]
      exact List.flatMap_singleton' members
    have hNil : (members.map TypeExpr.atom).flatMap TypeExpr.members ≠ [] := by
      rw [hMembers]
      exact TypeExpr.members_ne_nil h
    have hText : ∀ text, .text text ∉ (members.map TypeExpr.atom).flatMap TypeExpr.members := by
      rw [hMembers]
      exact h.notText
    refine ⟨.unionOf style (members.map .atom), ?_, TypeExpr.unionOf_ne_absent hNil style, ?_⟩
    · rw [resolve, mapM_eq_ok (g := TypeExpr.atom) fun a ha => ?_]
      · rfl
      · cases a with
        | text text => exact absurd ha (h.notText text)
        | _ => rfl
    · rw [TypeExpr.only?_of_isProper (TypeExpr.isProper_unionOf hNil hText style)
        (TypeExpr.unionOf_ne_absent hNil style), TypeExpr.members_unionOf hNil, hMembers,
        TypeExpr.onlyOf?_eraseDups]
      rfl

/-- Maps of types that are alike name by name. -/
def AlikeMaps (m m' : OrderedMap String TypeExpr) : Prop :=
  List.Forall₂ (fun e e' => e.1 = e'.1 ∧ e.2.Alike e'.2) m m'

section AlikeMaps

variable {m m' : OrderedMap String TypeExpr}

theorem AlikeMaps.put (h : AlikeMaps m m') (name : String) {t t' : TypeExpr} (ht : t.Alike t') :
    AlikeMaps (m.put name t) (m'.put name t') := by
  induction h with
  | nil => exact .cons ⟨rfl, ht⟩ .nil
  | @cons e e' rest rest' he hRest ih =>
    rw [OrderedMap.put, OrderedMap.put, ← he.1]
    split
    · exact .cons ⟨rfl, ht⟩ hRest
    · exact .cons he ih

theorem AlikeMaps.getD_get? (h : AlikeMaps m m') (name : String) :
    ((m.get? name).getD .absent).Alike ((m'.get? name).getD .absent) := by
  induction h with
  | nil => exact .refl _
  | @cons e e' rest rest' he hRest ih =>
    rw [OrderedMap.get?_cons, OrderedMap.get?_cons, ← he.1]
    split
    · exact he.2
    · exact ih

end AlikeMaps

/-- Annotations of which some were made optional. -/
def RelaxedEntries (entries entries' : List (String × TypeExpr)) : Prop :=
  List.Forall₂ (fun e e' => e.1 = e'.1 ∧ e.2.IsProper ∧ e.2.Relaxed e'.2) entries entries'

def resolveEntry (s : Schema) (m : OrderedMap String TypeExpr) (entry : String × TypeExpr) :
    Except AnnotationFault (OrderedMap String TypeExpr) := do
  let t ← resolve s entry.2
  pure (m.put entry.1 t)

theorem resolveAll_eq_ok {s : Schema} {entries : List (String × TypeExpr)} {m : OrderedMap String TypeExpr}
    (h : entries.foldlM (resolveEntry s) [] = .ok m) : resolveAll s entries = .ok m := by
  unfold resolveEntry at h
  rw [resolveAll, h]
  rfl

theorem foldlM_resolveEntry_alike (s s' : Schema) {entries entries' : List (String × TypeExpr)}
    (h : RelaxedEntries entries entries') {m m' : OrderedMap String TypeExpr} (hMaps : AlikeMaps m m') :
    ∃ n n', entries.foldlM (resolveEntry s) m = .ok n ∧ entries'.foldlM (resolveEntry s') m' = .ok n' ∧
      AlikeMaps n n' := by
  induction h generalizing m m' with
  | nil => exact ⟨m, m', rfl, rfl, hMaps⟩
  | @cons e e' rest rest' he hRest ih =>
    obtain ⟨hName, hProper, hRelaxed⟩ := he
    obtain ⟨u, hu, hAbsent, hOnly⟩ := resolve_eq_ok s hProper
    obtain ⟨u', hu', hAbsent', hOnly'⟩ := resolve_eq_ok s' (hRelaxed.isProper hProper)
    have hAlike : u.Alike u' :=
      ⟨iff_of_false hAbsent hAbsent', by rw [hOnly, hOnly', hRelaxed.onlyOf?_eq]⟩
    rw [List.foldlM_cons, List.foldlM_cons, resolveEntry, resolveEntry, hu, hu', ← hName]
    exact ih (hMaps.put e.1 hAlike)

theorem resolveAll_alike (s s' : Schema) {entries entries' : List (String × TypeExpr)}
    (h : RelaxedEntries entries entries') :
    ∃ m m', resolveAll s entries = .ok m ∧ resolveAll s' entries' = .ok m' ∧ AlikeMaps m m' := by
  obtain ⟨m, m', hm, hm', hMaps⟩ := foldlM_resolveEntry_alike s s' h .nil
  exact ⟨m, m', resolveAll_eq_ok hm, resolveAll_eq_ok hm', hMaps⟩

end Annotation

/-! ## Schemas -/

/-- The same class, but for annotations that were made optional. -/
structure ClassDef.Relaxed (c c' : ClassDef) : Prop where
  name_eq : c.name = c'.name
  base?_eq : c.base? = c'.base?
  fields : Annotation.RelaxedEntries c.fields c'.fields

namespace Schema

structure Relaxed (s s' : Schema) : Prop where
  enums_eq : s.enums = s'.enums
  classes : List.Forall₂ ClassDef.Relaxed s.classes s'.classes

section Relaxed

variable {s s' : Schema} {t t' : TypeExpr}

theorem Relaxed.enum?_eq (h : s.Relaxed s') (name : String) : s.enum? name = s'.enum? name := by
  rw [enum?, enum?, h.enums_eq]

theorem Relaxed.class?_cases (h : s.Relaxed s') (name : String) :
    (s.class? name = none ∧ s'.class? name = none) ∨
      ∃ c c', s.class? name = some c ∧ s'.class? name = some c' ∧ c.Relaxed c' := by
  rw [class?, class?]
  generalize hClasses : s.classes = classes
  generalize hClasses' : s'.classes = classes'
  have hAll := h.classes
  rw [hClasses, hClasses'] at hAll
  clear hClasses hClasses'
  induction hAll with
  | nil => exact Or.inl ⟨rfl, rfl⟩
  | @cons c c' rest rest' hc hRest ih =>
    rw [List.find?_cons, List.find?_cons, ← hc.name_eq]
    cases decide (c.name = name) with
    | true => exact Or.inr ⟨c, c', rfl, rfl, hc⟩
    | false => exact ih

theorem Relaxed.classChain_eq (h : s.Relaxed s') (fuel : Nat) (a : Atom) :
    s.classChain fuel a = s'.classChain fuel a := by
  induction fuel generalizing a with
  | zero => rfl
  | succ fuel ih =>
    cases a with
    | declared name =>
      rw [classChain, classChain]
      obtain ⟨hClass, hClass'⟩ | ⟨c, c', hClass, hClass', hc⟩ := h.class?_cases name
      · simp only [hClass, hClass']
      · simp only [hClass, hClass', ← hc.base?_eq]
        cases c.base? with
        | none => rfl
        | some base => exact congrArg (Atom.declared name :: ·) (ih base)
    | _ => rfl

theorem Relaxed.resolutionOrder_eq (h : s.Relaxed s') (a : Atom) :
    s.resolutionOrder a = s'.resolutionOrder a := by
  cases a with
  | declared name =>
    rw [resolutionOrder, resolutionOrder, ← h.enum?_eq, h.classes.length_eq]
    cases s.enum? name with
    | some e => rfl
    | none => exact h.classChain_eq _ _
  | intList named => cases named <;> rfl
  | _ => rfl

theorem Relaxed.annotations (h : s.Relaxed s') (a : Atom) :
    Annotation.RelaxedEntries (s.annotations a) (s'.annotations a) := by
  rw [Schema.annotations, Schema.annotations, ← h.resolutionOrder_eq]
  induction (s.resolutionOrder a).reverse with
  | nil => exact .nil
  | cons b order ih =>
    rw [List.flatMap_cons, List.flatMap_cons]
    refine List.rel_append ?_ ih
    cases b with
    | declared name =>
      obtain ⟨hClass, hClass'⟩ | ⟨c, c', hClass, hClass', hc⟩ := h.class?_cases name
      · simp only [hClass, hClass']
        exact .nil
      · simp only [hClass, hClass']
        exact hc.fields
    | _ => exact .nil

theorem kindOf_eq (s : Schema) (t : TypeExpr) : s.kindOf t =
    match t.only? with
    | some a => s.kindOf (.atom a)
    | none => .other := by
  rw [TypeExpr.only?, kindOf]
  cases t.required <;> rfl

theorem kindOf_eq_of_alike (h : s.Relaxed s') (ht : t.Alike t') : s.kindOf t = s'.kindOf t' := by
  rw [kindOf_eq, kindOf_eq s', ← ht.only?_eq]
  cases t.only? with
  | none => rfl
  | some a =>
    cases a with
    | builtin b => cases b <;> rfl
    | declared name => simp only [kindOf, TypeExpr.required, h.enum?_eq]
    | _ => rfl

theorem attributeType_eq (s : Schema) (t : TypeExpr) (name : String) : s.attributeType t name =
    match t.only? with
    | some a => s.attributeType (.atom a) name
    | none => .ok .absent := by
  rw [TypeExpr.only?, attributeType]
  cases t.required <;> rfl

theorem attributeType_alike (h : s.Relaxed s') (ht : t.Alike t') (name : String) :
    ∃ u u', s.attributeType t name = .ok u ∧ s'.attributeType t' name = .ok u' ∧ u.Alike u' := by
  rw [attributeType_eq, attributeType_eq s', ← ht.only?_eq]
  cases t.only? with
  | none => exact ⟨.absent, .absent, rfl, rfl, .refl _⟩
  | some a =>
    simp only [attributeType, TypeExpr.required]
    split
    · obtain ⟨m, m', hm, hm', hMaps⟩ := Annotation.resolveAll_alike s s' (h.annotations a)
      rw [attributeTypes, attributeTypes, hm, hm']
      exact ⟨_, _, rfl, rfl, hMaps.getD_get? name⟩
    · exact ⟨.absent, .absent, rfl, rfl, .refl _⟩

theorem attributePathType_alike (h : s.Relaxed s') (ht : t.Alike t') (names : List String) :
    ∃ u u', s.attributePathType t names = .ok u ∧ s'.attributePathType t' names = .ok u' ∧ u.Alike u' := by
  induction names generalizing t t' with
  | nil => exact ⟨t, t', rfl, rfl, ht⟩
  | cons name names ih =>
    obtain ⟨u, u', hu, hu', hAlike⟩ := attributeType_alike h ht name
    rw [attributePathType, attributePathType, hu, hu']
    by_cases hAbsent : u = .absent
    · rw [hAbsent, hAlike.absent_iff.mp hAbsent]
      exact ⟨.absent, .absent, rfl, rfl, .refl _⟩
    · obtain ⟨last, last', hLast, hLast', hAlike'⟩ := ih hAlike
      refine ⟨last, last', ?_, ?_, hAlike'⟩
      · rw [← hLast]
        cases u with
        | absent => exact absurd rfl hAbsent
        | _ => rfl
      · rw [← hLast']
        cases u' with
        | absent => exact absurd (hAlike.absent_iff.mpr rfl) hAbsent
        | _ => rfl

end Relaxed

end Schema

/-! ## Dotted names -/

/-- The same parameter, but for its annotation, which may have been made optional if it has one. -/
structure Parameter.Relaxed (p p' : Parameter) : Prop where
  name_eq : p.name = p'.name
  isProper : p.type.IsProper
  type : p.type.Relaxed p'.type
  annotated : p.type = .absent → p'.type = .absent

namespace Schema

variable {s s' : Schema} {params params' : List Parameter}

theorem find?_cases (h : List.Forall₂ Parameter.Relaxed params params') (name : String) :
    (params.find? (·.name = name) = none ∧ params'.find? (·.name = name) = none) ∨
      ∃ p p', params.find? (·.name = name) = some p ∧ params'.find? (·.name = name) = some p' ∧
        p.Relaxed p' := by
  induction h with
  | nil => exact Or.inl ⟨rfl, rfl⟩
  | @cons p p' rest rest' hp hRest ih =>
    rw [List.find?_cons, List.find?_cons, ← hp.name_eq]
    cases decide (p.name = name) with
    | true => exact Or.inr ⟨p, p', rfl, rfl, hp⟩
    | false => exact ih

/-- However many annotations of parameters and attributes are made optional, a dotted name leads to a type
as it did before, and the type gives the same pattern. -/
theorem typeAt_of_relaxed (hSchema : s.Relaxed s') (hParams : List.Forall₂ Parameter.Relaxed params params')
    (name : String) : ∃ t t', s.typeAt params name = .ok t ∧ s'.typeAt params' name = .ok t' ∧
      (t = .absent ↔ t' = .absent) ∧ s.inferredPattern t = s'.inferredPattern t' := by
  have hAlike : ∃ t t', s.typeAt params name = .ok t ∧ s'.typeAt params' name = .ok t' ∧ t.Alike t' := by
    rw [typeAt, typeAt]
    obtain ⟨head, rest?⟩ := Text.partition '.' name.toList
    obtain ⟨hFind, hFind'⟩ | ⟨p, p', hFind, hFind', hp⟩ := find?_cases hParams (String.ofList head)
    · simp only [hFind, hFind']
      exact ⟨.absent, .absent, rfl, rfl, .refl _⟩
    · have hType := hp.type.alike hp.isProper hp.annotated
      simp only [hFind, hFind']
      match rest? with
      | none | some [] => exact ⟨p.type, p'.type, rfl, rfl, hType⟩
      | some (c :: rest) => exact attributePathType_alike hSchema hType _
  obtain ⟨t, t', ht, ht', hAlike⟩ := hAlike
  exact ⟨t, t', ht, ht', hAlike.absent_iff, congrArg FieldKind.pattern (kindOf_eq_of_alike hSchema hAlike)⟩

/-- An inherited annotation that is gone along twice, and one that is a union with nothing already. -/
theorem typeAt_of_relaxed_of_folder :
    let name := "entry.parent.parent.size"
    let entry := TypeExpr.atom (.declared "Entry")
    let folder := TypeExpr.atom (.declared "Folder")
    let size := TypeExpr.union .bars [.builtin .decimal, .builtin .noneType]
    let schema (parent size : TypeExpr) : Schema := { classes :=
      [⟨"Entry", none, [("parent", parent), ("size", .ofBuiltin .int)]⟩,
        ⟨"Folder", some (.declared "Entry"), [("size", size)]⟩] }
    let s' := schema folder.optional (.unionOf .named [.ofBuiltin .noneType, size])
    (schema folder size).typeAt [⟨"entry", entry⟩] name = .ok size ∧
      ∃ t', s'.typeAt [⟨"entry", .unionOf .bars [entry, .ofBuiltin .noneType]⟩] name = .ok t' ∧
        t' ≠ .absent ∧ s'.inferredPattern t' = FieldKind.decimal.pattern := by
  intro name entry folder size schema s'
  have hAtom (a : Atom) (ha : ∀ text, .text text ≠ a) : (TypeExpr.atom a).IsProper :=
    ⟨fun style members hEq => TypeExpr.noConfusion hEq,
      fun text hText => ha text (List.mem_singleton.mp hText)⟩
  have hSize : size.IsProper := by
    refine ⟨fun style members hEq => ?_, fun text => by simp [size, TypeExpr.members]⟩
    rw [← (TypeExpr.union.inj hEq).2]
    decide
  have hSchema : (schema folder size).Relaxed s' := by
    refine ⟨rfl, .cons ⟨rfl, rfl, .cons ⟨rfl, hAtom _ fun text => Atom.noConfusion, .orNothing .named⟩
      (.cons ⟨rfl, hAtom _ fun text => Atom.noConfusion, .same⟩ .nil)⟩ (.cons ⟨rfl, rfl, ?_⟩ .nil)⟩
    exact .cons ⟨rfl, hSize, .nothingOr .named⟩ .nil
  have hParams : List.Forall₂ Parameter.Relaxed [⟨"entry", entry⟩]
      [⟨"entry", .unionOf .bars [entry, .ofBuiltin .noneType]⟩] :=
    .cons ⟨rfl, hAtom _ fun text => Atom.noConfusion, .orNothing .bars, TypeExpr.noConfusion⟩ .nil
  obtain ⟨t, t', ht, ht', hAbsent, hPattern⟩ := typeAt_of_relaxed hSchema hParams name
  obtain ⟨u, hu, hTest⟩ := exists_ok_of_any (x := (schema folder size).typeAt [⟨"entry", entry⟩] name)
    (p := fun u => u = size) (by decide +kernel)
  obtain rfl : t = u := Except.ok.inj (ht.symm.trans hu)
  obtain rfl : t = size := of_decide_eq_true hTest
  exact ⟨ht, t', ht', fun h => TypeExpr.noConfusion (hAbsent.mpr h), hPattern.symm⟩

end Schema

end UriRouting
