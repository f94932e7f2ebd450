import Mathlib.Data.List.Forall2
import UriRouting.Proofs.Generation

/-! # Values of the declared types

The type of a dotted name is found by way of the types of attributes, its value by way of the attributes
themselves. Both start at the same parameter, and one step keeps a value that conforms to its type or
leads to nothing, which has only nothing for parts. Objects of a class that extends maps are the
exception: their keys are looked up in place of the attributes. -/

set_option autoImplicit false

namespace UriRouting

/-! ## Values and types -/

namespace Schema

/-- What is a value of a type, whatever its attributes are. -/
def IsOf (s : Schema) : Atom → Value → Prop
  | .character, v => ∃ c, v = .str (String.singleton c)
  | .intList _, v =>
    ∃ items, v = .list items ∧ ∀ item ∈ items, .builtin .int ∈ s.resolutionOrder item.typeOf
  | .text _, _ => True
  | .builtin b, v => .builtin b ∈ s.resolutionOrder v.typeOf
  | .declared name, v => .declared name ∈ s.resolutionOrder v.typeOf

/-- Values that have the attributes that their type declares, with values that conform in turn. -/
inductive Conforms (s : Schema) : TypeExpr → Value → Prop where
  /-- Where no type is declared any value will do. -/
  | absent (v : Value) : Conforms s .absent v
  | nothing {style : UnionStyle} {members : List Atom} {a : Atom}
      (hRequired : (TypeExpr.union style members).required = .atom a) :
      Conforms s (.union style members) .null
  | optional {style : UnionStyle} {members : List Atom} {a : Atom} {v : Value}
      (hRequired : (TypeExpr.union style members).required = .atom a) (h : Conforms s (.atom a) v) :
      Conforms s (.union style members) v
  /-- A union of more than a type and nothing. -/
  | oneOf {style : UnionStyle} {members : List Atom} {a : Atom} {v : Value}
      (hRequired : (TypeExpr.union style members).required = .union style members)
      (ha : a ∈ members) (h : s.IsOf a v) : Conforms s (.union style members) v
  | ofClass {a : Atom} {v : Value} (hClass : isClass a = true) (h : s.IsOf a v)
      (hHas : ∀ types name t, s.attributeTypes a = .ok types → types.get? name = some t →
        (v.attribute? name).isSome = true)
      (hConforms : ∀ types name t w, s.attributeTypes a = .ok types → types.get? name = some t →
        v.attribute? name = some w → Conforms s t w) :
      Conforms s (.atom a) v
  | other {a : Atom} {v : Value} (hClass : isClass a = false) (h : s.IsOf a v) :
      Conforms s (.atom a) v

theorem Conforms.of_attributes {s : Schema} {a : Atom} {v : Value} {types : OrderedMap String TypeExpr}
    (hClass : isClass a = true) (h : s.IsOf a v) (hTypes : s.attributeTypes a = .ok types)
    (hAttributes : ∀ entry ∈ types, ∃ w, v.attribute? entry.1 = some w ∧ s.Conforms entry.2 w) :
    s.Conforms (.atom a) v := by
  have hFound {types' name t} (hTypes' : s.attributeTypes a = .ok types')
      (hGet : types'.get? name = some t) : ∃ w, v.attribute? name = some w ∧ s.Conforms t w := by
    cases hTypes.symm.trans hTypes'
    obtain ⟨front, back, rfl, -⟩ := List.lookup_eq_some_iff.mp hGet
    exact hAttributes (name, t) (List.mem_append_right _ List.mem_cons_self)
  refine .ofClass hClass h (fun types' name t hTypes' hGet => ?_)
    fun types' name t w hTypes' hGet hw => ?_
  · obtain ⟨w, hw, -⟩ := hFound hTypes' hGet
    rw [hw, Option.isSome_some]
  · obtain ⟨w', hw', hConforms⟩ := hFound hTypes' hGet
    cases hw.symm.trans hw'
    exact hConforms

/-- What a value of an optional type is. -/
def ConformsOrNull (s : Schema) (t : TypeExpr) (v : Value) : Prop := v = .null ∨ s.Conforms t v

section Path

variable {s : Schema} {t next : TypeExpr} {name : String} {v : Value}

/-- Only classes, and classes or nothing, have attributes with a type. -/
theorem attributeType_eq_ok (h : s.attributeType t name = .ok next) (hNext : next ≠ .absent) :
    ∃ a types, t.required = .atom a ∧ isClass a = true ∧ s.attributeTypes a = .ok types ∧
      types.get? name = some next := by
  rw [attributeType] at h
  split at h
  · rename_i a hRequired
    split at h
    · rename_i hClass
      obtain ⟨types, hTypes, hGet⟩ := bind_eq_ok_iff.mp h
      cases hName : types.get? name with
      | none =>
        rw [hName] at hGet
        cases hGet
        exact absurd rfl hNext
      | some found =>
        rw [hName] at hGet
        cases hGet
        exact ⟨a, types, hRequired, hClass, hTypes, hName⟩
    · cases h
      exact absurd rfl hNext
  · cases h
    exact absurd rfl hNext

theorem attributePathType_cons_eq_ok {names : List String} {last : TypeExpr}
    (h : s.attributePathType t (name :: names) = .ok last) (hLast : last ≠ .absent) :
    ∃ next, s.attributeType t name = .ok next ∧ next ≠ .absent ∧
      s.attributePathType next names = .ok last := by
  rw [attributePathType] at h
  obtain ⟨next, hNext, h⟩ := bind_eq_ok_iff.mp h
  split at h
  · cases h
    exact absurd rfl hLast
  · rename_i hAbsent
    exact ⟨next, hNext, hAbsent, h⟩

end Path

end Schema

theorem Value.part_of_attribute? {s : Schema} {v w : Value} {name : String}
    (h : v.attribute? name = some w) (hEntries : v.entries? s = none) : v.part s name = .ok w := by
  cases v with
  | null => simp [attribute?, realPart?] at h
  | _ =>
    rw [part, hEntries, h]
    · rfl
    all_goals simp

namespace Schema

/-! ## Steps along a path -/

/-- An object whose class extends maps gives something else under a key, or fails to, than what the attribute
of that name is declared to be. -/
def Clashes (s : Schema) (t : TypeExpr) (v : Value) (name : String) : Prop :=
  s.Conforms t v ∧
  (∃ className fields base, v = .object className fields base ∧
    .builtin .dict ∈ s.resolutionOrder (.declared className)) ∧
  ∃ next, s.attributeType t name = .ok next ∧ next ≠ .absent ∧
    ¬ ∃ w, v.part s name = .ok w ∧ s.ConformsOrNull next w

/-- A clash at some component of a path, to which the components in front lead. -/
inductive ClashesAlong (s : Schema) : TypeExpr → Value → List String → Prop where
  | here {t : TypeExpr} {v : Value} {name : String} {names : List String} (h : s.Clashes t v name) :
      ClashesAlong s t v (name :: names)
  | later {t next : TypeExpr} {v w : Value} {name : String} {names : List String}
      (hType : s.attributeType t name = .ok next) (hPart : v.part s name = .ok w)
      (h : ClashesAlong s next w names) : ClashesAlong s t v (name :: names)

section Path

variable {s : Schema} {t next last : TypeExpr} {name : String} {v : Value}

theorem exists_class_of_dict_mem (h : .builtin .dict ∈ s.resolutionOrder (.declared name)) :
    ∃ c ∈ s.classes, c.name = name := by
  rw [resolutionOrder] at h
  cases hEnum : s.enum? name with
  | some e =>
    simp only [hEnum] at h
    cases hBase : e.base <;> simp [hBase, enumOrder] at h
  | none =>
    simp only [hEnum, classChain] at h
    cases hClass : s.class? name with
    | none => simp [hClass] at h
    | some c =>
      exact ⟨c, List.mem_of_find?_eq_some hClass, by simpa using List.find?_some hClass⟩

/-- There are clashes only where some class extends maps. -/
theorem ClashesAlong.exists_class {names : List String} (h : s.ClashesAlong t v names) :
    ∃ c ∈ s.classes, .builtin .dict ∈ s.resolutionOrder (.declared c.name) := by
  induction h with
  | here h =>
    obtain ⟨-, ⟨className, fields, base, -, hDict⟩, -⟩ := h
    obtain ⟨c, hc, rfl⟩ := exists_class_of_dict_mem hDict
    exact ⟨c, hc, hDict⟩
  | later _ _ _ ih => exact ih

/-- A value with attributes that is found by keys is an object. -/
theorem exists_object_of_entries? (hAttribute : (v.attribute? name).isSome = true)
    (hEntries : v.entries? s ≠ none) : ∃ className fields base, v = .object className fields base ∧
      .builtin .dict ∈ s.resolutionOrder (.declared className) := by
  cases v with
  | map entries => simp [Value.attribute?, Value.realPart?] at hAttribute
  | object className fields base =>
    refine ⟨className, fields, base, rfl, ?_⟩
    by_contra hNot
    exact hEntries (if_neg hNot)
  | _ => exact absurd rfl hEntries

/-- One step over types and over values. -/
theorem Conforms.exists_part_or_clashes (h : s.Conforms t v) (hType : s.attributeType t name = .ok next)
    (hNext : next ≠ .absent) :
    (∃ w, v.part s name = .ok w ∧ s.ConformsOrNull next w) ∨ s.Clashes t v name := by
  obtain ⟨a, types, hRequired, hClass, hTypes, hGet⟩ := attributeType_eq_ok hType hNext
  have hStep (hAtom : s.Conforms (.atom a) v) :
      (∃ w, v.part s name = .ok w ∧ s.ConformsOrNull next w) ∨ s.Clashes t v name := by
    cases hAtom with
    | ofClass _ _ hHas hConforms =>
      have hAttribute := hHas types name next hTypes hGet
      by_cases hEntries : v.entries? s = none
      · obtain ⟨w, hw⟩ := Option.isSome_iff_exists.mp hAttribute
        exact Or.inl ⟨w, Value.part_of_attribute? hw hEntries,
          Or.inr (hConforms types name next w hTypes hGet hw)⟩
      · refine or_iff_not_imp_left.mpr fun hNot => ?_
        exact ⟨h, exists_object_of_entries? hAttribute hEntries, next, hType, hNext, hNot⟩
    | other hOther => cases hClass.symm.trans hOther
  cases h with
  | absent => cases hRequired
  | nothing => exact Or.inl ⟨.null, rfl, Or.inl rfl⟩
  | optional hMember hAtom =>
    cases hMember.symm.trans hRequired
    exact hStep hAtom
  | oneOf hUnion => cases hUnion.symm.trans hRequired
  | ofClass hClass' hIs hHas hConforms =>
    cases hRequired
    exact hStep (.ofClass hClass' hIs hHas hConforms)
  | other hOther hIs =>
    cases hRequired
    exact hStep (.other hOther hIs)

theorem ConformsOrNull.exists_follow_or_clashesAlong {names : List String} (h : s.ConformsOrNull t v)
    (hType : s.attributePathType t names = .ok last) (hLast : last ≠ .absent) :
    (∃ w, Value.follow s names v = .ok w ∧ s.ConformsOrNull last w) ∨ s.ClashesAlong t v names := by
  induction names generalizing t v with
  | nil =>
    cases hType
    exact Or.inl ⟨v, rfl, h⟩
  | cons name names ih =>
    obtain ⟨next, hNext, hPresent, hRest⟩ := attributePathType_cons_eq_ok hType hLast
    rcases h with rfl | h
    · exact Or.inl ⟨.null, Value.follow_null _ _, Or.inl rfl⟩
    · rcases h.exists_part_or_clashes hNext hPresent with ⟨w, hPart, hw⟩ | hClash
      · rcases ih hw hRest with ⟨u, hFollow, hu⟩ | hLater
        · exact Or.inl ⟨u, bind_eq_ok_iff.mpr ⟨w, hPart, hFollow⟩, hu⟩
        · exact Or.inr (.later hNext hPart hLater)
      · exact Or.inr (.here hClash)

end Path

end Schema

/-! ## The parameter that a name starts from -/

namespace Generation

section Start

variable {s : Schema} {params : List Parameter} {values : List Value}

/-- The components behind the first, none of them if nothing stands there. -/
def laterComponents (field : String) : List String :=
  if (otherComponents field).isEmpty then [] else (Text.parts '.' (otherComponents field)).map String.ofList

theorem atPath_otherComponents (v : Value) (field : String) :
    v.atPath s (otherComponents field) = Value.follow s (laterComponents field) v := by
  rw [Value.atPath, laterComponents]
  split <;> rfl

theorem typeAt_eq_ok {name : String} {t : TypeExpr} (h : s.typeAt params name = .ok t) (ht : t ≠ .absent) :
    ∃ p, params.find? (·.name = firstComponent name) = some p ∧
      s.attributePathType p.type (laterComponents name) = .ok t := by
  rw [Schema.typeAt] at h
  rw [firstComponent, laterComponents, otherComponents]
  cases hFind : params.find? (·.name = String.ofList (Text.partition '.' name.toList).1) with
  | none =>
    simp only [hFind] at h
    cases h
    exact absurd rfl ht
  | some p =>
    simp only [hFind] at h
    refine ⟨p, rfl, ?_⟩
    cases hBehind : (Text.partition '.' name.toList).2 with
    | none =>
      rw [hBehind] at h
      exact h
    | some behind =>
      rw [hBehind] at h
      cases behind with
      | nil => exact h
      | cons c behind => exact h

/-- The argument of a field is that of the parameter from which its type is looked for. -/
theorem exists_argumentFor? {field : String} {p : Parameter} (hNames : ∀ p ∈ params, '.' ∉ p.name.toList)
    (hValues : List.Forall₂ (fun p v => s.Conforms p.type v) params values)
    (hFind : params.find? (·.name = firstComponent field) = some p) :
    ∃ v, argumentFor? field.toList ((params.map (·.name)).zip values) = some (p.name, v) ∧
      s.Conforms p.type v := by
  induction hValues with
  | nil => cases hFind
  | @cons q v params values hConforms hValues ih =>
    obtain ⟨hName, hNames⟩ := List.forall_mem_cons.mp hNames
    rw [argumentFor?, List.map_cons, List.zip_cons_cons]
    by_cases hEq : q.name = firstComponent field
    · simp only [List.find?_cons, decide_eq_true hEq] at hFind
      cases hFind
      simp only [List.find?_cons, (selects_iff hName).mpr hEq]
      exact ⟨v, rfl, hConforms⟩
    · simp only [List.find?_cons, decide_eq_false hEq] at hFind
      simp only [List.find?_cons, Bool.eq_false_iff.mpr (mt (selects_iff hName).mp hEq)]
      exact ih hNames hFind

/-- Where the type of a field is found its value is too, and it is nothing or conforms to the type, unless
the way to it leads through the keys of an object that has other things there than its attributes. -/
theorem exists_valueOf_or_clashesAlong (hNames : ∀ p ∈ params, '.' ∉ p.name.toList)
    (hValues : List.Forall₂ (fun p v => s.Conforms p.type v) params values) {name : String}
    {t : TypeExpr} (hType : s.typeAt params name = .ok t) (ht : t ≠ .absent) :
    (∃ v, valueOf s name ((params.map (·.name)).zip values) = .ok v ∧ s.ConformsOrNull t v) ∨
    ∃ p v, p ∈ params ∧
      argumentFor? name.toList ((params.map (·.name)).zip values) = some (p.name, v) ∧
      s.ClashesAlong p.type v (laterComponents name) := by
  obtain ⟨p, hFind, hPath⟩ := typeAt_eq_ok hType ht
  obtain ⟨v, hArgument, hConforms⟩ := exists_argumentFor? hNames hValues hFind
  have hName : p.name = firstComponent name := by simpa using List.find?_some hFind
  have hValue : valueOf s name ((params.map (·.name)).zip values) =
      Value.follow s (laterComponents name) v := by
    rw [valueOf_eq hArgument, hName, drop_firstComponent, atPath_otherComponents]
  rw [hValue]
  rcases Schema.ConformsOrNull.exists_follow_or_clashesAlong (Or.inr hConforms) hPath ht with
    hFollow | hClash
  · exact Or.inl hFollow
  · exact Or.inr ⟨p, v, List.mem_of_find?_eq_some hFind, hArgument, hClash⟩

/-- The address is an attribute of what the class extends, and it may be nothing. -/
theorem exists_valueOf_of_inherited :
    let address := Atom.declared "Address"
    let s : Schema := { classes :=
      [⟨"Person", none, [("address", (TypeExpr.atom address).optional)]⟩,
        ⟨"User", some (.declared "Person"), [("name", .ofBuiltin .str)]⟩,
        ⟨"Address", none, [("city", .ofBuiltin .str)]⟩] }
    let params : List Parameter := [⟨"use", .absent⟩, ⟨"user", .atom (.declared "User")⟩]
    let user := Value.object "User"
      [("address", .object "Address" [("city", .str "Ys")] .null), ("name", .str "Ada")] .null
    s.Conforms (.atom (.declared "User")) user ∧
      s.typeAt params "user.address.city" = .ok (.ofBuiltin .str) ∧
      ∃ v, valueOf s "user.address.city" ((params.map (·.name)).zip [.int 7, user]) = .ok v ∧
        s.ConformsOrNull (.ofBuiltin .str) v := by
  intro address s params user
  have hStr (text : String) : s.Conforms (.ofBuiltin .str) (.str text) :=
    .of_attributes rfl List.mem_cons_self rfl fun entry hEntry => absurd hEntry List.not_mem_nil
  have hTypes : s.attributeTypes address = .ok [("city", .ofBuiltin .str)] := by rfl
  have hCity : s.Conforms (.atom address) (.object "Address" [("city", .str "Ys")] .null) :=
    .of_attributes rfl List.mem_cons_self hTypes
      (List.forall_mem_singleton.mpr ⟨.str "Ys", rfl, hStr "Ys"⟩)
  have hAddress : s.Conforms (TypeExpr.atom address).optional
      (.object "Address" [("city", .str "Ys")] .null) := .optional (a := address) rfl hCity
  have hTypes' : s.attributeTypes (.declared "User") =
      .ok [("address", (TypeExpr.atom address).optional), ("name", .ofBuiltin .str)] := by rfl
  have hUser : s.Conforms (.atom (.declared "User")) user := by
    refine .of_attributes rfl List.mem_cons_self hTypes' ?_
    refine List.forall_mem_cons.mpr ⟨⟨_, rfl, hAddress⟩, ?_⟩
    exact List.forall_mem_singleton.mpr ⟨.str "Ada", rfl, hStr "Ada"⟩
  have hType : s.typeAt params "user.address.city" = .ok (.ofBuiltin .str) := by rfl
  have hNames : ∀ p ∈ params, '.' ∉ p.name.toList := by
    refine List.forall_mem_cons.mpr ⟨by decide, List.forall_mem_singleton.mpr (by decide)⟩
  have hValues : List.Forall₂ (fun p v => s.Conforms p.type v) params [.int 7, user] :=
    .cons (.absent _) (.cons hUser .nil)
  refine ⟨hUser, hType, ?_⟩
  have hNone : ∀ c ∈ s.classes, .builtin .dict ∉ s.resolutionOrder (.declared c.name) := by decide +kernel
  rcases exists_valueOf_or_clashesAlong hNames hValues hType (by decide) with hValue | ⟨p, v, -, -, hClash⟩
  · exact hValue
  · obtain ⟨c, hc, hDict⟩ := hClash.exists_class
    exact absurd hDict (hNone c hc)

/-- An object of a class that extends maps has the attributes that the class declares. One holds something
else under the key of that name, and the other has an attribute in place of the method that is asked. -/
theorem valueOf_of_keys :
    let settings (name : String) : Schema :=
      { classes := [⟨"Settings", some (.builtin .dict), [(name, .ofBuiltin .int)]⟩] }
    let params : List Parameter := [⟨"settings", .atom (.declared "Settings")⟩]
    let paged := Value.object "Settings" [("page", .int 1)] (.map [("page", .str "2")])
    let shadowed := Value.object "Settings" [("get", .int 5)] (.map [])
    ((settings "page").Conforms (.atom (.declared "Settings")) paged ∧
      (settings "page").typeAt params "settings.page" = .ok (.ofBuiltin .int) ∧
      valueOf (settings "page") "settings.page" [("settings", paged)] = .ok (.str "2") ∧
      ¬ (settings "page").ConformsOrNull (.ofBuiltin .int) (.str "2")) ∧
    (settings "get").Conforms (.atom (.declared "Settings")) shadowed ∧
      (settings "get").typeAt params "settings.get" = .ok (.ofBuiltin .int) ∧
      valueOf (settings "get") "settings.get" [("settings", shadowed)] = .error .wrongType := by
  intro settings params paged shadowed
  have hInt (name : String) (n : Int) : (settings name).Conforms (.ofBuiltin .int) (.int n) :=
    .of_attributes rfl List.mem_cons_self rfl fun entry hEntry => absurd hEntry List.not_mem_nil
  have hTypes (name : String) : (settings name).attributeTypes (.declared "Settings") =
      .ok [(name, .ofBuiltin .int)] := by rfl
  have hPaged : (settings "page").Conforms (.atom (.declared "Settings")) paged :=
    .of_attributes rfl List.mem_cons_self (hTypes "page")
      (List.forall_mem_singleton.mpr ⟨.int 1, rfl, hInt _ 1⟩)
  have hShadowed : (settings "get").Conforms (.atom (.declared "Settings")) shadowed :=
    .of_attributes rfl List.mem_cons_self (hTypes "get")
      (List.forall_mem_singleton.mpr ⟨.int 5, rfl, hInt _ 5⟩)
  have hNot : ¬ (settings "page").ConformsOrNull (.ofBuiltin .int) (.str "2") := by
    rintro (hNull | h)
    · cases hNull
    · cases h with
      | ofClass hClass hIs hHas hConforms => exact absurd hIs (by simp [Schema.IsOf]; decide)
      | other hOther hIs => cases hOther
  refine ⟨⟨hPaged, by rfl, ?_, hNot⟩, hShadowed, by rfl, ?_⟩
  · rw [valueOf_cons _ (by decide +kernel)]
    rfl
  · rw [valueOf_cons _ (by decide +kernel)]
    rfl

end Start

end Generation

end UriRouting
