import Mathlib.Data.List.Nodup
import UriRouting.Proofs.Calendar.DefaultFormat
import UriRouting.Proofs.Uuid

/-! # Converters that invert themselves

What a converter for members, identifiers or dates has written it reads as the same value. Members are
written by name, and the name of a member leads back to it, though other names may lead to it as well. -/

set_option autoImplicit false

namespace UriRouting

theorem Value.same_self (v : Value) : v.same v = true := by
  rw [same]
  cases v.asInteger? with
  | none => exact decide_eq_true rfl
  | some n => exact decide_eq_true rfl

/-! ## Members and their names -/

namespace EnumDef

theorem membersFrom_sublist (seen entries : List (String × Value)) :
    (membersFrom seen entries).Sublist entries := by
  induction entries generalizing seen with
  | nil => exact .slnil
  | cons entry rest ih =>
    rw [membersFrom]
    split
    · exact (ih seen).cons entry
    · exact (ih _).cons_cons entry

/-- A member stands for another value than the names in front of it. -/
theorem not_same_of_mem_membersFrom {seen entries : List (String × Value)} {entry : String × Value}
    (h : entry ∈ membersFrom seen entries) : ∀ known ∈ seen, known.2.same entry.2 = false := by
  induction entries generalizing seen with
  | nil => cases h
  | cons first rest ih =>
    rw [membersFrom] at h
    split at h
    · exact ih h
    · rename_i hNew
      rcases List.mem_cons.mp h with rfl | h
      · exact fun known hKnown => Bool.eq_false_iff.mpr fun hSame => hNew (List.any_eq_true.mpr ⟨known, hKnown, hSame⟩)
      · exact fun known hKnown => ih h known (List.mem_cons_of_mem first hKnown)

theorem pairwise_membersFrom (seen entries : List (String × Value)) :
    (membersFrom seen entries).Pairwise fun a b => a.2.same b.2 = false := by
  induction entries generalizing seen with
  | nil => exact .nil
  | cons first rest ih =>
    rw [membersFrom]
    split
    · exact ih seen
    · exact .cons (fun entry hEntry => not_same_of_mem_membersFrom hEntry first List.mem_cons_self) (ih _)

section Members

variable {e : EnumDef} {entry : String × Value}

theorem find?_members (h : entry ∈ e.members) : e.members.find? (·.2.same entry.2) = some entry := by
  obtain ⟨front, back, hSplit⟩ := List.append_of_mem h
  have hPairwise := pairwise_membersFrom [] e.declared
  rw [← members, hSplit, List.pairwise_append] at hPairwise
  refine List.find?_eq_some_iff_append.mpr ⟨entry.2.same_self, front, back, hSplit, fun first hFirst => ?_⟩
  rw [hPairwise.2.2 first hFirst entry List.mem_cons_self]
  rfl

theorem lookup_declared (hNames : (e.declared.map Prod.fst).Nodup) (h : entry ∈ e.members) :
    e.declared.lookup entry.1 = some entry.2 := by
  obtain ⟨front, back, hSplit⟩ := List.append_of_mem ((membersFrom_sublist [] e.declared).subset h)
  refine List.lookup_eq_some_iff.mpr ⟨front, back, hSplit, fun first hFirst => bne_iff_ne.mpr ?_⟩
  rw [hSplit, List.map_append, List.nodup_append] at hNames
  exact Ne.symm (hNames.2.2 first.1 (List.mem_map_of_mem hFirst) entry.1 List.mem_cons_self)

/-- No two names being alike, each member is found by its own name. -/
theorem member?_of_mem (hNames : (e.declared.map Prod.fst).Nodup) (h : entry ∈ e.members) :
    e.member? entry.1 = some (.member e.ref entry.1 entry.2) := by
  rw [member?, lookup_declared hNames h]
  exact congrArg (Option.bind · _) (find?_members h)

end Members

end EnumDef

/-! ## Written and read -/

namespace Converter

/-- The value is written, and what is written is read as the same value. -/
def Inverts (s : Schema) (c : Converter) (v : Value) : Prop := (c.write v >>= c.read s) = .ok v

theorem Inverts.of_str {s : Schema} {c : Converter} {v : Value} {text : String} (hWrite : c.write v = .ok (.str text))
    (hRead : c.read s (.str text) = .ok v) : Inverts s c v :=
  bind_eq_ok_iff.mpr ⟨.str text, hWrite, hRead⟩

theorem inverts_member {s : Schema} {e : EnumDef} (hEnum : s.enum? e.name = some e)
    (hNames : (e.declared.map Prod.fst).Nodup) {entry : String × Value} (h : entry ∈ e.members) :
    Inverts s (enum (.atom (.declared e.name))) (.member e.ref entry.1 entry.2) := by
  refine .of_str rfl ?_
  have hRead : readMember e.member? (.str entry.1) = .ok ((e.member? entry.1).getD .null) := rfl
  rw [EnumDef.member?_of_mem hNames h] at hRead
  simp only [read, readEnum, hEnum]
  exact hRead

theorem inverts_uuid (s : Schema) (u : Uuid) : Inverts s uuid (.uuid u) := by
  refine .of_str rfl ?_
  have hRead : readUuid (.str (String.ofList u.text)) =
      .ok (((Uuid.ofText? (String.ofList u.text).toList).map .uuid).getD .null) := rfl
  rw [String.toList_ofList, Uuid.ofText?_text] at hRead
  exact hRead

theorem inverts_dateTime (s : Schema) {t : Calendar.DateTime} {offset : Int} (hValid : t.isValid = true)
    (hYear : 1000 ≤ t.year) (hMicrosecond : t.microsecond = 0) (hOffset : t.offset? = some offset)
    (hWhole : 1000000 ∣ offset) : Inverts s (dateTime defaultFormat) (.dateTime t) := by
  have hFormat := Calendar.DefaultFormat.ofFormat?_format hValid hYear hMicrosecond hOffset hWhole
  refine .of_str rfl ?_
  simp only [read, readDateTime, Value.asText?, String.toList_ofList, hFormat]
  rfl

/-- Members are read back, whatever their names; so are all identifiers, and in the default format all dates
whose year has four digits and whose seconds and offset are whole. -/
theorem inverts (s : Schema) :
    (∀ e : EnumDef, s.enum? e.name = some e → (e.declared.map Prod.fst).Nodup → ∀ entry ∈ e.members,
      Inverts s (enum (.atom (.declared e.name))) (.member e.ref entry.1 entry.2)) ∧
    (∀ u : Uuid, Inverts s uuid (.uuid u)) ∧
    ∀ (t : Calendar.DateTime) (offset : Int), t.isValid = true → 1000 ≤ t.year → t.microsecond = 0 →
      t.offset? = some offset → 1000000 ∣ offset → Inverts s (dateTime defaultFormat) (.dateTime t) :=
  ⟨fun _ hEnum hNames _ h => inverts_member hEnum hNames h, inverts_uuid s,
    fun _ _ hValid hYear hMicrosecond hOffset hWhole =>
      inverts_dateTime s hValid hYear hMicrosecond hOffset hWhole⟩

/-- A member that has another name before it and one behind, an identifier, and a date whose offset has seconds. -/
theorem inverts_of_level :
    let level : EnumDef := ⟨"Level", .str, [("lo w", .str "1"), ("name", .str "2"), ("LOW", .str "1"), ("N", .str "2")]⟩
    let s : Schema := { enums := [level] }
    Inverts s (enum (.atom (.declared "Level"))) (.member ⟨"Level", .str⟩ "name" (.str "2")) ∧
      Inverts s uuid (.uuid ⟨10, by decide⟩) ∧
      Inverts s (dateTime defaultFormat) (.dateTime ⟨2024, 2, 29, 7, 5, 9, 0, some (-18030000000)⟩) := by
  intro level s
  obtain ⟨hMember, hUuid, hDate⟩ := inverts s
  refine ⟨hMember level rfl (by decide) ("name", .str "2") ?_, hUuid _, ?_⟩
  · have hMembers : level.members = [("lo w", .str "1"), ("name", .str "2")] := rfl
    rw [hMembers]
    exact List.mem_cons_of_mem _ List.mem_cons_self
  · exact hDate _ (-18030000000) (by decide) (by decide) rfl rfl (by decide)

end Converter

end UriRouting
