import UriRouting.Proofs.Route.RoundTrip
import UriRouting.Proofs.Router.Find
import UriRouting.Proofs.Router.RequestPath

/-! # Generated paths are found

A route whose fields take any text accepts what it generates: the gaps of its literal text may stay
empty, and encoded forms hold neither slashes nor line breaks. Where its literal text has no place for a
query or a session id, a search for the path reaches the route, unless it ends before it. -/

set_option autoImplicit false

namespace UriRouting

open Generation (Quiet)
open PercentEncoding (isWritten)

namespace Route

/-- No field is restricted to more than one segment or one line. -/
def Unrestricted (r : Route) : Prop :=
  ∀ f ∈ r.template.fields, f.pattern = Template.defaultPattern ∨ f.pattern = Template.wildcardPattern

variable {s : Schema} {shared : Registry} {r : Route} {values : List Value} {path : List Char}
  {log : List Record}

theorem accepts_of_write (hCompiled : ∃ p source, Template.compile p source = .ok r.template)
    (hFields : r.Unrestricted) (hWrite : Yields (r.write s shared values) path log)
    (hQuiet : Quiet log) : r.accepts path = true := by
  obtain ⟨p, source, hCompile⟩ := hCompiled
  obtain ⟨texts, hFills⟩ := fills_of_write hWrite hQuiet
  let form (f : Template.Field) : Template.FieldForm :=
    if f.pattern = Template.defaultPattern then .default else .wildcard
  have hForm : ∀ f ∈ r.template.fields, f.pattern = (form f).pattern := by
    intro f hf
    by_cases hDefault : f.pattern = Template.defaultPattern
    · simp only [form, if_pos hDefault]
      exact hDefault
    · simp only [form, if_neg hDefault]
      exact (hFields f hf).resolve_left hDefault
  refine (Template.accepts_iff_splits hCompile form hForm path).mpr ⟨texts, hFills.splits ?_⟩
  rintro f text - ⟨value, -, hEncode⟩
  have hWritten := PercentEncoding.isWritten_of_encode hEncode
  by_cases hDefault : f.pattern = Template.defaultPattern
  · simp only [form, if_pos hDefault]
    exact mem_default hWritten
  · simp only [form, if_neg hDefault]
    exact mem_wildcard hWritten

/-- Values bring no character into a path that has to be escaped. -/
theorem not_mem_of_write (hWrite : Yields (r.write s shared values) path log) (hQuiet : Quiet log)
    {c : Char} (hc : isWritten c = false)
    (hLiteral : ∀ text, .literal text ∈ r.template.tokens → c ∉ text.toList) : c ∉ path := by
  obtain ⟨texts, hFills⟩ := fills_of_write hWrite hQuiet
  intro hMem
  refine hFills.forall_path (Q := fun d => d ≠ c) ?_ ?_ c hMem rfl
  · rintro text hText d hd rfl
    exact hLiteral text hText hd
  · rintro f text ⟨value, -, hEncode⟩ d hd rfl
    rw [PercentEncoding.isWritten_of_encode hEncode d hd] at hc
    cases hc

end Route

namespace Router

variable {ι : Type} {t : Router ι} {front back : List (ι × Route)} {label : ι} {r : Route}

/-- The path for a handler is the one of the first route that is bound to it. -/
theorem yields_pathFor_iff (hRoutes : t.routes = front ++ (label, r) :: back) {h : Handler}
    (hFirst : ∀ e ∈ front, e.2.handler.same h = false) (hBound : r.handler.same h = true)
    {s : Schema} {values : List Value} {path : List Char} {log : List Record} :
    Yields (t.pathFor s (.handler h) values) path log ↔
      Yields (r.write s t.registry values) path log := by
  have hFind : t.routes.find? (fun e => e.2.handler.same h) = some (label, r) := by
    refine List.find?_eq_some_iff_append.mpr ⟨hBound, front, back, hRoutes, fun e he => ?_⟩
    rw [hFirst e he, Bool.not_false]
  unfold pathFor
  dsimp only
  rw [hFind]
  exact Yields.adapt_iff

/-- A search that a route can serve ends with it or with one in front of it. -/
theorem exists_find?_of_serves (hRoutes : t.routes = front ++ (label, r) :: back) {path : List Char}
    {method : String} (hServes : r.serves path method = true) :
    ∃ e ∈ front ++ [(label, r)], t.routes.find? (fun e => e.2.serves path method) = some e := by
  rw [hRoutes, List.find?_append]
  cases hFront : front.find? fun e => e.2.serves path method with
  | none =>
    refine ⟨(label, r), List.mem_append_right _ List.mem_cons_self, ?_⟩
    rw [Option.none_or]
    exact List.find?_cons_of_pos (p := fun e : ι × Route => e.2.serves path method) hServes
  | some e => exact ⟨e, List.mem_append_left _ (List.mem_of_find?_eq_some hFront), rfl⟩

/-- The path that a router generates for a handler is found again, by the first route of the handler or
by one in front of it. -/
theorem find_pathFor
    (hCompiled : ∀ e ∈ t.routes, ∃ p source, Template.compile p source = .ok e.2.template)
    (hFields : ∀ e ∈ t.routes, ∀ f ∈ e.2.template.fields,
      (Pattern.compile f.pattern.toList).isOk = true)
    {h : Handler} (hRoutes : t.routes = front ++ (label, r) :: back)
    (hFirst : ∀ e ∈ front, e.2.handler.same h = false) (hBound : r.handler.same h = true)
    (hUnrestricted : r.Unrestricted)
    (hLiteral : ∀ text, .literal text ∈ r.template.tokens → '?' ∉ text.toList ∧ ';' ∉ text.toList)
    {s : Schema} {values : List Value} {path : List Char} {log : List Record}
    (hPath : Yields (t.pathFor s (.handler h) values) path log) (hQuiet : Quiet log)
    {method : String} (hMethod : r.acceptsMethod method = true) :
    ∃ found log', Yields (t.find path method) (some found) log' ∧
      (found.label, found.route) ∈ front ++ [(label, r)] := by
  have hWrite := (yields_pathFor_iff hRoutes hFirst hBound).mp hPath
  have hMem : (label, r) ∈ t.routes := by
    rw [hRoutes]
    exact List.mem_append_right _ List.mem_cons_self
  have hSame : requestPath path = path := by
    refine requestPath_eq_self ?_ ?_
    · exact Route.not_mem_of_write hWrite hQuiet (by decide) fun text hText => (hLiteral text hText).1
    · exact Route.not_mem_of_write hWrite hQuiet (by decide) fun text hText => (hLiteral text hText).2
  have hAccepts := Route.accepts_of_write (hCompiled _ hMem) hUnrestricted hWrite hQuiet
  have hServes : r.serves (requestPath path) method = true := by
    rw [hSame]
    exact Bool.and_eq_true_iff.mpr ⟨hAccepts, hMethod⟩
  obtain ⟨⟨label', r'⟩, hFront, hFind⟩ := exists_find?_of_serves hRoutes hServes
  have hMem' := List.mem_of_find?_eq_some hFind
  obtain ⟨-, binding, log', -, hFound⟩ :=
    exists_found_of_find?_some ⟨hCompiled _ hMem', hFields _ hMem'⟩ hFind
  exact ⟨_, log', hFound, hFront⟩

/-- Adjacent fields behind text that may be passed over, and a route of another handler in front. -/
theorem find_pathFor_of_adjacent : ∃ (t : Router Nat) (path : List Char) (found : Found Nat),
    Yields (t.pathFor {} (.handler { name := "h" }) [.str "?;/", .str "é"]) path [] ∧
    path = "/a/%3F%3B%2F%C3%A9".toList ∧
    ∃ log, Yields (t.find path "get") (some found) log ∧ found.label ∈ [0, 1] := by
  let other : Builder := { template := .str "/b/{x}", handler? := some { name := "g" } }
  let b : Builder := { template := .str "/a/*{x}{y*}", handler? := some { name := "h" },
                       declared := [⟨"x", .absent⟩, ⟨"y", .absent⟩] }
  let tokens : List Template.Token := [.literal "/a/*", .field ⟨"{x}", "x", "[^/]*", false⟩,
    .field ⟨"{y*}", "y", ".*", true⟩]
  let path := "/a/%3F%3B%2F%C3%A9".toList
  let compiles (r : Route) : Bool :=
    r.template.fields.all fun f => (Pattern.compile f.pattern.toList).isOk
  obtain ⟨q, hOther, hFront⟩ := exists_ok_of_any (x := (other.build {}).run.value)
    (p := fun q => compiles q ∧ q.handler.same { name := "h" } = false) (by decide +kernel)
  obtain ⟨r, hBuild, hTest⟩ := exists_ok_of_any (x := (b.build {}).run.value)
    (p := fun r => compiles r ∧ r.template.tokens = tokens ∧ r.handler.same { name := "h" } = true ∧
      r.acceptsMethod "get" = true ∧
      (r.write {} Registry.builtin [.str "?;/", .str "é"]).run.value.toOption = some path ∧
      (r.write {} Registry.builtin [.str "?;/", .str "é"]).run.log = []) (by decide +kernel)
  obtain ⟨hFields', hFirst⟩ := of_decide_eq_true hFront
  obtain ⟨hFields, hTokens, hBound, hMethod, hValue, hLog⟩ := of_decide_eq_true hTest
  let t : Router Nat := { routes := [(0, q), (1, r)] }
  have hRoutes : t.routes = [(0, q)] ++ (1, r) :: [] := rfl
  have hNone : ∀ e ∈ [((0 : Nat), q)], e.2.handler.same { name := "h" } = false := by
    intro e he
    obtain rfl := List.mem_singleton.mp he
    exact hFirst
  have hPath : Yields (t.pathFor {} (.handler { name := "h" }) [.str "?;/", .str "é"]) path [] :=
    (yields_pathFor_iff hRoutes hNone hBound).mpr (Yields.of_run hValue hLog)
  have hUnrestricted : r.Unrestricted := by
    intro f hf
    rw [Template.fields, hTokens] at hf
    rcases List.mem_cons.mp hf with rfl | hf
    · exact Or.inl rfl
    · obtain rfl := List.mem_singleton.mp hf
      exact Or.inr rfl
  have hLiteral : ∀ text, .literal text ∈ r.template.tokens → '?' ∉ text.toList ∧ ';' ∉ text.toList := by
    simp only [hTokens, tokens, List.mem_cons, Template.Token.literal.injEq, reduceCtorEq,
      List.not_mem_nil, or_false, forall_eq]
    decide +kernel
  have hCompiled : ∀ e ∈ t.routes, ∃ p source, Template.compile p source = .ok e.2.template := by
    intro e he
    rcases List.mem_cons.mp he with rfl | he
    · exact Builder.exists_compile_of_compile (Builder.compiled_of_build hOther)
    · obtain rfl := List.mem_singleton.mp he
      exact Builder.exists_compile_of_compile (Builder.compiled_of_build hBuild)
  have hAlone : ∀ e ∈ t.routes, ∀ f ∈ e.2.template.fields,
      (Pattern.compile f.pattern.toList).isOk = true := by
    intro e he
    rcases List.mem_cons.mp he with rfl | he
    · exact List.all_eq_true.mp hFields'
    · obtain rfl := List.mem_singleton.mp he
      exact List.all_eq_true.mp hFields
  obtain ⟨found, log, hFound, hMem⟩ := find_pathFor hCompiled hAlone hRoutes hNone hBound hUnrestricted
    hLiteral hPath (List.forall_mem_nil _) hMethod
  exact ⟨t, path, found, hPath, rfl, log, hFound, List.mem_map_of_mem (f := Prod.fst) hMem⟩

end Router

end UriRouting
