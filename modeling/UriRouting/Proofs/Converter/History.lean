import UriRouting.Converter.Registry

/-! # Histories of registrations

Whatever is offered to a registry, and however much of it is refused, a type has the converter that was
accepted for it last. A lookup takes the first type of a resolution order that has one. -/

set_option autoImplicit false

namespace UriRouting.Registry

/-- The registry after offers, of which some are refused. -/
def run (r : Registry) : List (TypeExpr × Candidate) → Registry
  | [] => r
  | offer :: rest =>
    match r.register offer.1 offer.2 with
    | .ok next => next.run rest
    | .error _ => r.run rest

/-- The converter that an offer registers for a type. -/
def accepted? (a : Atom) : TypeExpr × Candidate → Option Converter
  | (.atom b, .converter c) => if b = a ∧ Schema.isClass a ∧ c.isReversible then some c else none
  | _ => none

/-- The converter of the last offer that registers one for the type, or else the one from the start. -/
def latest? (start : Registry) (offers : List (TypeExpr × Candidate)) (a : Atom) : Option Converter :=
  (offers.filterMap (accepted? a)).getLast?.or (start.get? a)

section Offers

variable {r : Registry} {offer : TypeExpr × Candidate}

theorem register_cases (r : Registry) (offer : TypeExpr × Candidate) :
    (∃ a c, r.register offer.1 offer.2 = .ok (r.put a c) ∧
      ∀ b, accepted? b offer = if a = b then some c else none) ∨
    (∃ e, r.register offer.1 offer.2 = .error e) ∧ ∀ b, accepted? b offer = none := by
  obtain ⟨t, candidate⟩ := offer
  cases t with
  | absent => exact Or.inr ⟨⟨.notAType, rfl⟩, fun b => rfl⟩
  | union style members => exact Or.inr ⟨⟨.notAType, rfl⟩, fun b => rfl⟩
  | atom a =>
    by_cases hClass : Schema.isClass a = true
    · cases candidate with
      | value v => exact Or.inr ⟨⟨_, by rw [register, check, if_pos hClass]; rfl⟩, fun b => rfl⟩
      | converter c =>
        by_cases hReversible : c.isReversible = true
        · refine Or.inl ⟨a, c, by simp only [register, check, if_pos hClass, if_pos hReversible]; rfl, ?_⟩
          intro b
          by_cases hab : a = b
          · subst hab
            rw [accepted?, if_pos ⟨rfl, hClass, hReversible⟩, if_pos rfl]
          · rw [accepted?, if_neg fun h => hab h.1, if_neg hab]
        · refine Or.inr ⟨⟨_, by simp only [register, check, if_pos hClass, if_neg hReversible]; rfl⟩, ?_⟩
          intro b
          rw [accepted?, if_neg fun h => hReversible h.2.2]
    · refine Or.inr ⟨⟨.notAType, by simp only [register, check, if_neg hClass]; rfl⟩, fun b => ?_⟩
      cases candidate with
      | value v => rfl
      | converter c =>
        rw [accepted?, if_neg]
        rintro ⟨rfl, h, -⟩
        exact hClass h

theorem latest?_cons (start : Registry) (offer : TypeExpr × Candidate) (rest : List (TypeExpr × Candidate))
    (a : Atom) : latest? start (offer :: rest) a =
      (rest.filterMap (accepted? a)).getLast?.or ((accepted? a offer).or (start.get? a)) := by
  rw [latest?, List.filterMap_cons]
  cases accepted? a offer with
  | none => rfl
  | some c =>
    rw [List.getLast?_cons]
    cases (rest.filterMap (accepted? a)).getLast? <;> rfl

/-- Each offer is entered or leaves the registry as it is. -/
theorem get?_run (start : Registry) (offers : List (TypeExpr × Candidate)) (a : Atom) :
    (start.run offers).get? a = latest? start offers a := by
  induction offers generalizing start with
  | nil => rfl
  | cons offer rest ih =>
    rw [run, latest?_cons]
    obtain ⟨b, c, hRegister, hAccepted⟩ | ⟨⟨e, hRegister⟩, hAccepted⟩ := register_cases start offer
    · rw [hRegister, hAccepted]
      refine (ih (start.put b c)).trans ?_
      rw [latest?]
      by_cases hab : b = a
      · rw [hab, OrderedMap.get?_put_self, if_pos rfl]
        rfl
      · rw [OrderedMap.get?_put_of_ne start c (Ne.symm hab), if_neg hab]
        rfl
    · rw [hRegister, hAccepted]
      exact ih start

theorem run_append (start : Registry) (offers more : List (TypeExpr × Candidate)) :
    start.run (offers ++ more) = (start.run offers).run more := by
  induction offers generalizing start with
  | nil => rfl
  | cons offer rest ih =>
    rw [List.cons_append, run, run]
    cases start.register offer.1 offer.2 with
    | ok next => exact ih next
    | error e => exact ih start

end Offers

/-! ## Lookups -/

section Lookup

variable {r : Registry} {order : List Atom}

theorem toOption_converterFor (r : Registry) (order : List Atom) :
    (r.converterFor order).toOption = order.findSome? r.get? := by
  rw [converterFor, firstOf?]
  cases order.findSome? r.get? <;> rfl

theorem converterFor_eq_ok_iff {c : Converter} : r.converterFor order = .ok c ↔
    ∃ front a back, order = front ++ a :: back ∧ (∀ b ∈ front, r.get? b = none) ∧ r.get? a = some c := by
  have hFirst : r.converterFor order = .ok c ↔ order.findSome? r.get? = some c := by
    rw [← toOption_converterFor]
    cases r.converterFor order <;> simp [Except.toOption]
  rw [hFirst, List.findSome?_eq_some_iff]
  constructor
  · rintro ⟨front, a, back, hOrder, hc, hFront⟩
    exact ⟨front, a, back, hOrder, hFront, hc⟩
  · rintro ⟨front, a, back, hOrder, hFront, hc⟩
    exact ⟨front, a, back, hOrder, hc, hFront⟩

theorem converterFor_eq_error_iff :
    r.converterFor order = .error .noConverter ↔ ∀ a ∈ order, r.get? a = none := by
  rw [← List.findSome?_eq_none_iff, ← toOption_converterFor]
  rcases r.converterFor order with ⟨⟨⟩⟩ | c <;> simp [Except.toOption]

theorem hasConverterFor_iff : r.hasConverterFor order = true ↔ ∃ c, r.converterFor order = .ok c := by
  rw [hasConverterFor, firstOf?, ← toOption_converterFor]
  cases r.converterFor order <;> simp [Except.toOption]

/-- Where a registration shows, its type is the first of the order that has a converter afterwards. -/
theorem exists_split_of_converterFor_ne {a : Atom} {c : Converter}
    (h : converterFor (r.put a c) order ≠ r.converterFor order) :
    ∃ front back, order = front ++ a :: back ∧ ∀ b ∈ front, r.get? b = none := by
  induction order with
  | nil => exact absurd rfl h
  | cons b order ih =>
    by_cases hb : b = a
    · exact ⟨[], order, hb ▸ rfl, List.forall_mem_nil _⟩
    · unfold converterFor at h
      rw [firstOf?_cons, firstOf?_cons, OrderedMap.get?_put_of_ne r c hb] at h
      cases hGet : r.get? b with
      | some d =>
        rw [hGet] at h
        exact absurd rfl h
      | none =>
        rw [hGet, Option.none_or, Option.none_or] at h
        obtain ⟨front, back, rfl, hFront⟩ := ih h
        exact ⟨b :: front, back, rfl, List.forall_mem_cons.mpr ⟨hGet, hFront⟩⟩

end Lookup

/-- After any history a type has the converter that was last accepted for the first type of its order for
which one was, and no converter just if there is no such type. An offer that is refused changes no lookup,
and one that is accepted changes those alone in which its type comes before all others with converters. -/
theorem converterFor_run (start : Registry) (offers : List (TypeExpr × Candidate)) (order : List Atom) :
    let r := start.run offers
    (∀ c, r.converterFor order = .ok c ↔ ∃ front a back, order = front ++ a :: back ∧
      (∀ b ∈ front, latest? start offers b = none) ∧ latest? start offers a = some c) ∧
    (r.converterFor order = .error .noConverter ↔ ∀ a ∈ order, latest? start offers a = none) ∧
    (r.hasConverterFor order = true ↔ ∃ c, r.converterFor order = .ok c) ∧
    (∀ s t, r.lookup? s t = (r.converterFor (orderOf s t)).toOption) ∧
    ∀ offer, let next := start.run (offers ++ [offer])
      ((∃ e, r.register offer.1 offer.2 = .error e) ↔ ∀ a, accepted? a offer = none) ∧
      ((∀ a, accepted? a offer = none) → next.converterFor order = r.converterFor order) ∧
      ∀ a c, accepted? a offer = some c → next.converterFor order ≠ r.converterFor order →
        ∃ front back, order = front ++ a :: back ∧ ∀ b ∈ front, latest? start offers b = none := by
  intro r
  have hGet (a : Atom) : latest? start offers a = r.get? a := (get?_run start offers a).symm
  have hLookup (s : Schema) (t : TypeExpr) : r.lookup? s t = (r.converterFor (orderOf s t)).toOption := by
    rw [lookup?_eq, toOption_converterFor]
    rfl
  simp only [hGet]
  refine ⟨fun c => converterFor_eq_ok_iff, converterFor_eq_error_iff, hasConverterFor_iff, hLookup, ?_⟩
  intro offer
  rw [run_append, run]
  obtain ⟨b, d, hRegister, hAccepted⟩ | ⟨⟨e, hRegister⟩, hRefused⟩ := register_cases r offer
  · have hNot : ¬ ∀ a, accepted? a offer = none := by
      intro hNone
      have hb := (hAccepted b).symm.trans (hNone b)
      rw [if_pos rfl] at hb
      cases hb
    refine ⟨iff_of_false ?_ hNot, fun h => absurd h hNot, fun a c hc hNe => ?_⟩
    · rintro ⟨e, he⟩
      cases hRegister.symm.trans he
    · rw [hAccepted] at hc
      split at hc
      · rename_i hab
        subst hab
        rw [show start.run offers = r from rfl, hRegister] at hNe
        exact exists_split_of_converterFor_ne hNe
      · cases hc
  · rw [show start.run offers = r from rfl, hRegister]
    refine ⟨iff_of_true ⟨e, rfl⟩ hRefused, fun _ => rfl, fun a c hc => ?_⟩
    cases (hRefused a).symm.trans hc

/-- Members that are numbers, with offers of which two are refused, one of them at last. -/
theorem converterFor_run_of_level :
    let s : Schema := { enums := [⟨"Level", .number, [("LOW", .int 1)]⟩] }
    let offers : List (TypeExpr × Candidate) :=
      [(.ofBuiltin .int, .converter (.tag "first")), (.atom .character, .converter (.tag "text")),
        (.ofBuiltin .int, .converter (.tag "last"))]
    (builtin.run offers).converterFor (orderOf s (.atom (.declared "Level"))) = .ok (.tag "last") ∧
      (builtin.run (offers ++ [(.ofBuiltin .int, .converter .oneWay)])).converterFor
        (orderOf s (.atom (.declared "Level"))) = .ok (.tag "last") := by
  intro s offers
  let order : List Atom := orderOf s (.atom (.declared "Level"))
  obtain ⟨hFound, -, -, -, hNext⟩ := converterFor_run builtin offers order
  have hLast : (builtin.run offers).converterFor order = .ok (.tag "last") := by
    refine (hFound _).mpr ⟨[.declared "Level", .builtin .numberEnumeration], .builtin .int,
      [.builtin .enumeration, .builtin .object], rfl, ?_, rfl⟩
    exact List.forall_mem_cons.mpr ⟨rfl, List.forall_mem_singleton.mpr rfl⟩
  have hRefused (a : Atom) : accepted? a (.ofBuiltin .int, .converter .oneWay) = none :=
    if_neg fun h => Bool.noConfusion h.2.2
  exact ⟨hLast, ((hNext _).2.1 hRefused).trans hLast⟩

end UriRouting.Registry
