import UriRouting.Proofs.Route.Built

/-! # Calls that fail

A call on a builder that fails leaves the builder as it was, with two exceptions: methods given together
are taken one by one, up to the one that is refused, and a handler is bound before its parameters are
looked up. The next handler that is bound undoes the second. So a history of calls builds what it builds
without its failures when the parameters of the handler bound last could be looked up, and the route then
has the parameters of its own handler. -/

set_option autoImplicit false

namespace UriRouting.Builder

/-- The builder after calls, whatever each of them ended with. -/
def performAll (s : Schema) (b : Builder) (calls : List Call) : Builder :=
  calls.foldl (fun b call => (b.perform s call).1) b

def isMethod (setting : String) (v : Value) : Bool :=
  (v.asText?.bind (Method.standard? (Method.combined setting))).isSome

def Call.handler? : Call → Option Handler
  | .handler (.handler h) => some h
  | _ => none

/-- The handler bound last, whether or not its parameters could be looked up. -/
def lastHandler? : List Call → Option Handler
  | [] => none
  | call :: rest => (lastHandler? rest).or call.handler?

/-- What is kept of a call that fails: the methods in front of the one refused. -/
def Call.taken? (setting : String) : Call → Option Call
  | .methods vs => (items? vs).map fun items => .methods (.list (items.takeWhile (isMethod setting)))
  | _ => none

/-- The calls that return, and what is kept of those that fail. -/
def withoutFailures (s : Schema) : Builder → List Call → List Call
  | _, [] => []
  | b, call :: rest =>
    match b.perform s call with
    | (next, none) => call :: withoutFailures s next rest
    | (next, some _) => (call.taken? b.customMethods).toList ++ withoutFailures s next rest

def bound (b : Builder) (handler? : Option Handler) (declared : List Parameter) : Builder :=
  { b with handler?, declared }

def Declares (s : Schema) (b : Builder) : Prop :=
  ∀ h, b.handler? = some h → h.parameters s = .ok b.declared

/-! ## Methods -/

section Methods

variable {b : Builder} {setting : String}

theorem accept_of_isMethod {v : Value} (h : isMethod setting v = true) :
    ∃ name, ∀ b : Builder, b.customMethods = setting → b.accept v = (b.addMethod name, none) := by
  obtain ⟨name, hName⟩ := Option.isSome_iff_exists.mp h
  obtain ⟨text, hText, hStandard⟩ := Option.bind_eq_some_iff.mp hName
  refine ⟨name, ?_⟩
  rintro b rfl
  unfold accept allowedMethods
  simp only [hText, hStandard]

theorem accept_of_not_isMethod {v : Value} (h : isMethod setting v = false) :
    ∃ e, ∀ b : Builder, b.customMethods = setting → b.accept v = (b, some e) := by
  unfold accept allowedMethods
  cases hText : v.asText? with
  | none => cases v <;> exact ⟨_, fun _ _ => rfl⟩
  | some text =>
    have hNone : Method.standard? (Method.combined setting) text = none := by
      rw [isMethod, hText, Option.bind_some] at h
      exact Option.not_isSome_iff_eq_none.mp (Bool.eq_false_iff.mp h)
    refine ⟨.unknownMethod (String.ofList v.text), ?_⟩
    rintro b rfl
    simp only [hNone]

theorem customMethods_addMethod (name : String) : (b.addMethod name).customMethods = b.customMethods := by
  rw [addMethod]
  split <;> rfl

theorem acceptAll_takeWhile (items : List Value) :
    (b.acceptAll (items.takeWhile (isMethod b.customMethods))).1 = (b.acceptAll items).1 := by
  induction items generalizing b with
  | nil => rfl
  | cons v rest ih =>
    cases hMethod : isMethod b.customMethods v with
    | true =>
      obtain ⟨name, hAccept⟩ := accept_of_isMethod hMethod
      rw [List.takeWhile_cons_of_pos hMethod, acceptAll, acceptAll, hAccept b rfl,
        ← customMethods_addMethod name]
      exact ih
    | false =>
      obtain ⟨e, hAccept⟩ := accept_of_not_isMethod hMethod
      rw [List.takeWhile_cons_of_neg (by simp [hMethod]), acceptAll, acceptAll, hAccept b rfl]

variable {x : Option Handler} {d : List Parameter}

theorem addMethod_bound (name : String) : (b.bound x d).addMethod name = (b.addMethod name).bound x d := by
  rw [addMethod, addMethod, apply_ite (bound · x d)]
  rfl

theorem accept_bound (v : Value) :
    (b.bound x d).accept v = ((b.accept v).1.bound x d, (b.accept v).2) := by
  cases hMethod : isMethod b.customMethods v with
  | true =>
    obtain ⟨name, hAccept⟩ := accept_of_isMethod hMethod
    rw [hAccept b rfl, hAccept (b.bound x d) rfl, addMethod_bound]
  | false =>
    obtain ⟨e, hAccept⟩ := accept_of_not_isMethod hMethod
    rw [hAccept b rfl, hAccept (b.bound x d) rfl]

theorem acceptAll_bound (items : List Value) :
    (b.bound x d).acceptAll items = ((b.acceptAll items).1.bound x d, (b.acceptAll items).2) := by
  induction items generalizing b with
  | nil => rfl
  | cons v rest ih =>
    rw [acceptAll, acceptAll, accept_bound]
    cases b.accept v with
    | mk next error? =>
      cases error? with
      | none => exact ih
      | some e => rfl

end Methods

/-! ## One call -/

section Call

variable {s : Schema} {b : Builder} {call : Call}

theorem eq_handler_of_handler? {h : Handler} (hCall : call.handler? = some h) :
    call = .handler (.handler h) := by
  cases call with
  | handler target =>
    cases target with
    | handler h' =>
      cases hCall
      rfl
    | value v => cases hCall
  | _ => cases hCall

theorem perform_handler_ok {h : Handler} {declared : List Parameter}
    (hParameters : h.parameters s = .ok declared) :
    b.perform s (.handler (.handler h)) = (b.bound (some h) declared, none) := by
  rw [perform, setHandler]
  simp only [hParameters, bound]

theorem perform_handler_error {h : Handler} {e : Handler.Error} (hParameters : h.parameters s = .error e) :
    b.perform s (.handler (.handler h)) = (b.bound (some h) b.declared, some (.handler e)) := by
  rw [perform, setHandler]
  simp only [hParameters, bound]

theorem perform_bound (x : Option Handler) (d : List Parameter) (hCall : call.handler? = none) :
    (b.bound x d).perform s call = ((b.perform s call).1.bound x d, (b.perform s call).2) := by
  cases call with
  | method v =>
    rw [perform, perform]
    exact accept_bound v
  | methods vs =>
    rw [perform, perform, acceptItems, acceptItems]
    cases items? vs with
    | none => rfl
    | some items => exact acceptAll_bound items
  | priority n => rfl
  | typed name t => rfl
  | pattern name regex => rfl
  | handler target =>
    cases target with
    | value v => rfl
    | handler h => cases hCall

theorem perform_keeps (hCall : call.handler? = none) :
    (b.perform s call).1.handler? = b.handler? ∧ (b.perform s call).1.declared = b.declared := by
  have hSame : (b.perform s call).1 = (b.perform s call).1.bound b.handler? b.declared :=
    congrArg Prod.fst (perform_bound b.handler? b.declared hCall)
  rw [hSame]
  exact ⟨rfl, rfl⟩

/-- A call that fails and binds no handler has done what is kept of it. -/
theorem performAll_taken (hCall : call.handler? = none) (hFails : (b.perform s call).2.isSome = true) :
    performAll s b (call.taken? b.customMethods).toList = (b.perform s call).1 := by
  cases call with
  | method v =>
    cases hMethod : isMethod b.customMethods v with
    | true =>
      obtain ⟨name, hAccept⟩ := accept_of_isMethod hMethod
      rw [perform, hAccept b rfl] at hFails
      cases hFails
    | false =>
      obtain ⟨e, hAccept⟩ := accept_of_not_isMethod hMethod
      rw [perform, hAccept b rfl]
      rfl
  | methods vs =>
    rw [Call.taken?, perform, acceptItems]
    cases items? vs with
    | none => rfl
    | some items => exact acceptAll_takeWhile items
  | priority n => cases hFails
  | typed name t => cases hFails
  | pattern name regex => cases hFails
  | handler target =>
    cases target with
    | value v => rfl
    | handler h => cases hCall

end Call

/-! ## Histories of calls -/

section Histories

variable {s : Schema} {b : Builder} {calls : List Call}

theorem performAll_cons (call : Call) :
    performAll s b (call :: calls) = performAll s (b.perform s call).1 calls := rfl

theorem performAll_append (front back : List Call) :
    performAll s b (front ++ back) = performAll s (performAll s b front) back := List.foldl_append

/-- What is built up along the calls that are kept is what is built up along all of them, but for the
handler, and for that too once it is bound again. -/
theorem performAll_bound_withoutFailures {x : Option Handler} {d : List Parameter}
    (hLast : ∀ h, lastHandler? calls = some h → (h.parameters s).isOk = true)
    (hStart : lastHandler? calls = none → x = b.handler? ∧ d = b.declared) :
    performAll s (b.bound x d) (withoutFailures s b calls) = performAll s b calls := by
  induction calls generalizing b x d with
  | nil =>
    obtain ⟨rfl, rfl⟩ := hStart rfl
    rfl
  | cons call rest ih =>
    have hLater : ∀ h, lastHandler? rest = some h → (h.parameters s).isOk = true :=
      fun h hEq => hLast h (by rw [lastHandler?, hEq, Option.some_or])
    rw [withoutFailures, performAll_cons]
    cases hCall : call.handler? with
    | none =>
      have hBound := perform_bound (s := s) (b := b) x d hCall
      have hKeeps := perform_keeps (s := s) (b := b) hCall
      have hRest : ∀ next, (b.perform s call).1 = next →
          performAll s (next.bound x d) (withoutFailures s next rest) = performAll s next rest := by
        rintro _ rfl
        apply ih hLater
        intro hNone
        obtain ⟨hHandler, hDeclared⟩ := hStart (by rw [lastHandler?, hNone, hCall, Option.or_none])
        exact ⟨hHandler.trans hKeeps.1.symm, hDeclared.trans hKeeps.2.symm⟩
      cases hPerform : b.perform s call with
      | mk next error? =>
        rw [hPerform] at hBound
        rw [← hRest next (by rw [hPerform])]
        cases error? with
        | none =>
          dsimp only
          rw [performAll_cons, hBound]
        | some e =>
          have hTaken : performAll s (b.bound x d) (call.taken? b.customMethods).toList = next.bound x d :=
            (performAll_taken (b := b.bound x d) hCall (by rw [hBound]; rfl)).trans (congrArg Prod.fst hBound)
          dsimp only
          rw [performAll_append, hTaken]
    | some h =>
      obtain rfl := eq_handler_of_handler? hCall
      cases hParameters : h.parameters s with
      | ok declared =>
        rw [perform_handler_ok hParameters]
        dsimp only
        rw [performAll_cons, perform_handler_ok hParameters]
        exact ih (b := b.bound (some h) declared) hLater fun _ => ⟨rfl, rfl⟩
      | error e =>
        -- A handler whose parameters cannot be looked up is not the last one.
        have hAgain : lastHandler? rest ≠ none := by
          intro hNone
          have hOk := hLast h (by rw [lastHandler?, hNone, hCall, Option.none_or])
          rw [hParameters] at hOk
          cases hOk
        rw [perform_handler_error hParameters]
        exact ih (b := b.bound (some h) b.declared) hLater fun hNone => absurd hNone hAgain

theorem declares_performAll
    (hLast : ∀ h, lastHandler? calls = some h → (h.parameters s).isOk = true)
    (hStart : lastHandler? calls = none → Declares s b) : Declares s (performAll s b calls) := by
  induction calls generalizing b with
  | nil => exact hStart rfl
  | cons call rest ih =>
    rw [performAll_cons]
    apply ih fun h hEq => hLast h (by rw [lastHandler?, hEq, Option.some_or])
    intro hNone
    rw [lastHandler?, hNone, Option.none_or] at hLast hStart
    cases hCall : call.handler? with
    | none =>
      obtain ⟨hHandler, hDeclared⟩ := perform_keeps (s := s) (b := b) hCall
      rw [Declares, hHandler, hDeclared]
      exact hStart hCall
    | some h =>
      obtain ⟨declared, hParameters⟩ := exists_ok_of_isOk (hLast h hCall)
      rw [eq_handler_of_handler? hCall, perform_handler_ok hParameters]
      rintro _ ⟨⟩
      exact hParameters

/-- Nothing that a failing call has done shows in what is built, save the methods that it took before it
failed; and the route has the parameters of its own handler. -/
theorem build_withoutFailures (hNew : b.handler? = none)
    (hLast : ∀ h, lastHandler? calls = some h → (h.parameters s).isOk = true) :
    (performAll s b calls).build s = (performAll s b (withoutFailures s b calls)).build s ∧
    ∀ r, ((performAll s b calls).build s).run.value = .ok r →
      r.handler.parameters s = .ok r.declared := by
  refine ⟨?_, fun r hBuild => ?_⟩
  · exact congrArg (build s) (performAll_bound_withoutFailures hLast fun _ => ⟨rfl, rfl⟩).symm
  · have hStart : Declares s b := by
      intro h hEq
      rw [hNew] at hEq
      cases hEq
    obtain ⟨handler, t, hHandler, -, rfl⟩ := build_eq_ok hBuild
    exact declares_performAll hLast (fun _ => hStart) handler hHandler

end Histories

set_option maxRecDepth 2000 in
/-- Three calls that fail for other reasons, and a handler whose annotation is broken that makes way for
another. -/
theorem build_withoutFailures_of_rebound :
    let broken : Handler :=
      { name := "broken", arguments := [⟨"id", some (.atom (.text "int[")), .positional⟩] }
    let show_ : Handler := { name := "show", arguments := [⟨"id", some (.ofBuiltin .int), .positional⟩] }
    let b : Builder := { template := .str "/items/{id}" }
    let calls : List Call := [.methods (.list [.str "get", .str "FETCH", .str "PUT"]), .method (.str "FETCH"),
      .handler (.value (.str "show")), .handler (.handler broken), .handler (.handler show_), .priority 5]
    let kept : List Call := [.methods (.list [.str "get"]), .handler (.handler show_), .priority 5]
    (performAll {} b calls).build {} = (performAll {} b kept).build {} ∧
    ∃ r, ((performAll {} b calls).build {}).run.value = .ok r ∧ r.methods = ["GET"] ∧
      r.handler.parameters {} = .ok r.declared := by
  intro broken show_ b calls kept
  have hLast : ∀ h, lastHandler? calls = some h → (h.parameters {}).isOk = true := by
    rintro _ ⟨⟩
    decide +kernel
  have hKept : withoutFailures {} b calls = kept := by rfl
  obtain ⟨hSame, hOwn⟩ := build_withoutFailures (s := {}) (b := b) rfl hLast
  obtain ⟨r, hBuild, hMethods⟩ := exists_ok_of_any (x := ((performAll {} b calls).build {}).run.value)
    (p := fun r => r.methods = ["GET"]) (by decide +kernel)
  rw [hKept] at hSame
  exact ⟨hSame, r, hBuild, of_decide_eq_true hMethods, hOwn r hBuild⟩

/-- Methods given together are not taken back when one of them is refused. -/
theorem methods_of_refused :
    let b : Builder := { template := .str "/items/{id}" }
    let bind : Call := .handler (.handler { name := "show", arguments := [⟨"id", none, .positional⟩] })
    let refused : Call := .methods (.list [.str "GET", .str "FETCH"])
    let methods (calls : List Call) := ((performAll {} b calls).build {}).run.value.toOption.map (·.methods)
    ((performAll {} b [bind]).perform {} refused).2 = some (.unknownMethod "FETCH") ∧
    methods [bind, refused] = some ["GET"] ∧ methods [bind] = some [] := by
  decide +kernel

end UriRouting.Builder
