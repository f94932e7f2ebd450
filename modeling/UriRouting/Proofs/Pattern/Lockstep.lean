import UriRouting.Proofs.Pattern.Edit
import UriRouting.Proofs.Pattern.Readers

/-! # Two readings in lockstep

A draft inside a group and a draft of the same pattern alone take the same tokens as long as they agree
on white space and on the open set: what they know of other groups shows only in what they refuse. -/

set_option autoImplicit false

namespace UriRouting.Pattern

/-- What two drafts have to agree on to take the same tokens. -/
structure InStep (d D : Draft) : Prop where
  shape : d.frame.shape = D.frame.shape
  set : d.set?.map (·.items.isEmpty) = D.set?.map (·.items.isEmpty)
  names : d.names.map Prod.fst ⊆ D.names.map Prod.fst
  outer : D.outer ≠ []

theorem InStep.verbose {d D : Draft} (h : InStep d D) : d.frame.verbose = D.frame.verbose :=
  congrArg Shape.verbose h.shape

def Together (d D : Draft) (next Next : Draft) : Prop := ∃ move, Edit move d next ∧ Edit move D Next

namespace Together

variable {d D : Draft}

theorem same : Together d D d D := ⟨.stay .none, .same d, .same D⟩

theorem push (node Node : Pattern.Node) (kind : PieceKind) (h : node.indices = [])
    (H : Node.indices = []) : Together d D (d.push node kind) (D.push Node kind) :=
  ⟨.stay (.push kind), .push d node kind h, .push D Node kind H⟩

theorem keepSet {set Set : OpenSet} (h : set.items.isEmpty = Set.items.isEmpty) :
    Together d D { d with set? := some set } { D with set? := some Set } :=
  ⟨.set set.items.isEmpty, .keepSet d set, h ▸ .keepSet D Set⟩

theorem enter (hVerbose : d.frame.verbose = D.frame.verbose) {opener : Opener}
    (h : opener.indices = []) (hFault : opener.fault? = none) (start Start : Nat) :
    Together d D (d.openFrame opener start d.frame.verbose)
      (D.openFrame opener Start D.frame.verbose) := by
  refine ⟨.enter d.frame.verbose opener.condition? none,
    .enter d opener h (.inl hFault) start _ d.behindLimit? d.mentions, ?_⟩
  rw [hVerbose]
  exact .enter D opener h (.inl hFault) Start _ D.behindLimit? D.mentions

theorem capture (hVerbose : d.frame.verbose = D.frame.verbose) {next Next : Draft}
    {name? : Option String} {start left Start Left : Nat}
    (h : d.openCapture name? start left = .ok next)
    (H : D.openCapture name? Start Left = .ok Next) : Together d D next Next :=
  ⟨.enter d.frame.verbose none name?, .capture h, hVerbose ▸ .capture H⟩

theorem openFlagged (hVerbose : d.frame.verbose = D.frame.verbose) (on off : List Flag)
    (start Start : Nat) : Together d D (d.openFlagged on off start) (D.openFlagged on off Start) := by
  refine ⟨.enter ((d.frame.verbose || on.contains .verbose) && !off.contains .verbose) none none,
    .enter d (.flagged on off) rfl (.inl rfl) start _ d.behindLimit? d.mentions, ?_⟩
  rw [hVerbose]
  exact .enter D (.flagged on off) rfl (.inl rfl) Start _ D.behindLimit? D.mentions

theorem openBehind (hVerbose : d.frame.verbose = D.frame.verbose) (negated : Bool)
    (start Start : Nat) : Together d D (d.openBehind negated start) (D.openBehind negated Start) := by
  refine ⟨.enter d.frame.verbose none none,
    .enter d (.behind negated d.behindLimit? d.fault?) rfl (.inr rfl) start _ _ d.mentions, ?_⟩
  rw [hVerbose]
  exact .enter D (.behind negated D.behindLimit? D.fault?) rfl (.inr rfl) Start _ _ D.mentions

theorem refer {next Next : Draft} {index length left Index Length Left : Nat}
    (h : d.refer index length left = .ok next) (H : D.refer Index Length Left = .ok Next) :
    Together d D next Next := by
  obtain rfl := eq_of_refer h
  obtain rfl := eq_of_refer H
  exact push _ _ _ rfl rfl
where
  eq_of_refer {d next : Draft} {index length left : Nat} (h : d.refer index length left = .ok next) :
      next = d.push (.backref index) := by
    rw [Draft.refer] at h
    split at h
    · cases h
    · obtain ⟨⟨⟩, -, h⟩ := bind_eq_ok_iff.mp h
      cases h
      rfl

theorem referByNumber {next Next : Draft} {index length left Index Length Left : Nat}
    (h : d.referByNumber index length left = .ok next)
    (H : D.referByNumber Index Length Left = .ok Next) : Together d D next Next := by
  rw [Draft.referByNumber] at h H
  split at h <;> split at H
  · exact refer h H
  · cases H
  · cases h
  · cases h

theorem referByName {next Next : Draft} {name Name : String} {left Left : Nat}
    (h : d.referByName name left = .ok next) (H : D.referByName Name Left = .ok Next) :
    Together d D next Next := by
  rw [Draft.referByName] at h H
  split at h <;> split at H
  · cases h
  · cases h
  · cases H
  · exact refer h H

end Together

/-! ## What both drafts refuse -/

section References

variable {d : Draft} {e : Fault} {index length left : Nat}

theorem reachesOut_of_checkBehind (h : d.checkBehind index left = .error e) :
    e.cause.reachesOut = true := by
  unfold Draft.checkBehind at h
  split at h
  · cases h
  · split at h
    · cases h
      rfl
    · split at h <;> cases h
      rfl

theorem reachesOut_of_refer (h : d.refer index length left = .error e) : e.cause.reachesOut = true := by
  unfold Draft.refer at h
  split at h
  · cases h
    rfl
  · rcases bind_eq_error_iff.mp h with h | ⟨_, -, h⟩
    · exact reachesOut_of_checkBehind h
    · cases h

theorem reachesOut_of_referByName {name : String} (h : d.referByName name left = .error e) :
    e.cause.reachesOut = true := by
  unfold Draft.referByName at h
  split at h
  · cases h
    rfl
  · exact reachesOut_of_refer h

theorem reachesOut_of_pushEscape {escape : Escape} (h : pushEscape d escape left = .error e) :
    e.cause.reachesOut = true := by
  cases escape with
  | reference index length =>
    rw [pushEscape, Draft.referByNumber] at h
    split at h
    · exact reachesOut_of_refer h
    · cases h
      rfl
  | _ => cases h

theorem reachesOut_of_closeFrame (h : d.closeFrame left = .error e) : e.cause.reachesOut = true := by
  unfold Draft.closeFrame at h
  split at h
  · cases h
    rfl
  · dsimp only at h
    split at h <;> cases h

end References

namespace InStep

variable {d D : Draft}

theorem refuses_openCapture (hStep : InStep d D) (name? : Option String) (start : Nat)
    {start' : List Token → Nat} (left : Nat) {left' : List Token → Nat} :
    Refuses (d.openCapture name? start left)
      fun tail => D.openCapture name? (start' tail) (left' tail) := by
  unfold Draft.openCapture
  cases name? with
  | none => exact .ok
  | some name =>
    dsimp only
    cases hName : d.names.lookup name with
    | none => exact .ok
    | some previous =>
      obtain ⟨front, back, hNames, -⟩ := List.lookup_eq_some_iff.mp hName
      have hMem : name ∈ d.names.map Prod.fst := by simp [hNames]
      obtain ⟨index, hIndex⟩ : ∃ index, D.names.lookup name = some index := by
        refine Option.ne_none_iff_exists'.mp fun hNone => ?_
        obtain ⟨p, hp, rfl⟩ := List.mem_map.mp (hStep.names hMem)
        simpa using List.lookup_eq_none_iff.mp hNone p hp
      simp only [hIndex]
      exact .fails

theorem refuses_conditionGroup (name : String) (left : Nat) {left' : List Token → Nat} :
    Refuses (d.conditionGroup name left) fun tail => D.conditionGroup name (left' tail) := by
  unfold Draft.conditionGroup
  dsimp only
  refine .ite (fun _ => ?_) fun _ => ?_
  · cases d.names.lookup name with
    | none => exact .out rfl
    | some index => exact .ok
  · split
    · exact .ite (fun _ => .fails) fun _ => .ite (fun _ => .fails) fun _ => .ok
    · exact .fails

theorem refuses_checkRepeatable (hStep : InStep d D) (left : Nat) {left' : List Token → Nat} :
    Refuses (d.checkRepeatable left) fun tail => D.checkRepeatable (left' tail) := by
  have hKinds := congrArg Shape.kinds hStep.shape
  unfold Draft.checkRepeatable
  cases hd : d.frame.pieces with
  | nil =>
    have hD : D.frame.pieces = [] := by simpa [Frame.shape, hd] using hKinds.symm
    simp only [hD]
    exact .fails
  | cons piece pieces =>
    obtain ⟨Piece, Pieces, hD⟩ : ∃ Piece Pieces, D.frame.pieces = Piece :: Pieces := by
      cases hD : D.frame.pieces with
      | nil => simp [Frame.shape, hd, hD] at hKinds
      | cons Piece Pieces => exact ⟨Piece, Pieces, rfl⟩
    have hKind : piece.kind = Piece.kind := by
      simp only [Frame.shape, hd, hD, List.map_cons, List.cons.injEq] at hKinds
      exact hKinds.1
    simp only [hD, hKind]
    split
    · exact .fails
    · exact .fails
    · exact .ok

theorem refuses_endBranch (hStep : InStep d D) (left : Nat) {left' : List Token → Nat} :
    Refuses (d.endBranch left) fun tail => D.endBranch (left' tail) := by
  have hCondition : d.frame.opener.condition? = D.frame.opener.condition? :=
    congrArg Shape.condition? hStep.shape
  unfold Draft.endBranch
  split
  · exact .ok
  · rename_i hd
    obtain ⟨index, yes, hD⟩ : ∃ index yes, D.frame.opener = .conditional index (some yes) := by
      rw [hd] at hCondition
      cases hD : D.frame.opener with
      | conditional index yes? =>
        rw [hD] at hCondition
        cases yes? with
        | none => cases hCondition
        | some yes => exact ⟨index, yes, rfl⟩
      | _ =>
        rw [hD] at hCondition
        cases hCondition
    simp only [hD]
    exact .fails
  · exact .ok

end InStep

namespace Mirrors

variable {d D : Draft}

theorem readSetStep {set Set : OpenSet} (hItems : set.items.isEmpty = Set.items.isEmpty)
    (first : Token) (rest : List Token) :
    Mirrors (Together d D) rest (readSetStep d set (first :: rest))
      fun tail => Pattern.readSetStep D Set (first :: (rest ++ tail)) := by
  have hClose (set Set : OpenSet) : Together d D ({ d with set? := none }.push set.node)
      ({ D with set? := none }.push Set.node) := ⟨.closeSet, .closeSet d set, .closeSet D Set⟩
  have hKeep (set Set : OpenSet) (item Item : SetItem) (items Items : List SetItem) :
      Together d D { d with set? := some { set with items := item :: items } }
        { D with set? := some { Set with items := Item :: Items } } :=
    Together.keepSet (by rfl)
  simp only [Pattern.readSetStep, ← hItems]
  refine guard .noDangling fun _ => ite (fun _ => pure (hClose _ _)) fun _ => ?_
  apply bind (readSetMember first rest)
  intro low rest _
  apply take (by decide) (pure (hKeep _ _ _ _ _ _))
  intro rest
  cases rest with
  | nil => exact out rfl
  | cons second rest =>
    simp only [List.cons_append]
    refine next (ite (fun _ => pure (hClose _ _)) fun _ => ?_)
    apply bind (readSetMember second rest)
    intro high rest _
    cases low with
    | code m =>
      cases high with
      | code n => exact ite (fun _ => fails) fun _ => pure (hKeep _ _ _ _ _ _)
      | range low high => exact fails
      | category kind negated => exact fails
    | range low high => exact fails
    | category kind negated => exact fails

/-- What follows a quantifier says in which order its counts are tried. -/
def readGreed (ts : List Token) : Read (Greed × List Token) := do
  match ← take? '?' ts with
  | some rest => Pure.pure (.lazy, rest)
  | none =>
    match ← take? '+' ts with
    | some rest => Pure.pure (.possessive, rest)
    | none => Pure.pure (.greedy, ts)

theorem readGreed_mirrors (ts : List Token) :
    Mirrors Eq ts (readGreed ts) fun tail => readGreed (ts ++ tail) :=
  take (by decide) (take (by decide) (pure rfl) fun _ => pure rfl) fun _ => pure rfl

theorem readQuantifier_eq (d : Draft) (min : Nat) (max : Option Nat) (place : Nat) (ts : List Token) :
    Pattern.readQuantifier d min max place ts = d.checkRepeatable place >>= fun piece =>
      readGreed ts >>= fun (greed, rest) => Pure.pure (d.repeatLast piece greed min max, rest) := by
  simp only [Pattern.readQuantifier, readGreed, bind_assoc]
  congr 1
  funext piece
  congr 1
  funext o
  cases o with
  | some rest => rfl
  | none =>
    simp only [bind_assoc]
    congr 1
    funext o
    cases o <;> rfl

theorem readQuantifier (hStep : InStep d D) (min : Nat) (max : Option Nat) (place : Nat)
    (place' : List Token → Nat) (ts : List Token) :
    Mirrors (Together d D) ts (readQuantifier d min max place ts)
      fun tail => Pattern.readQuantifier D min max (place' tail) (ts ++ tail) := by
  simp only [readQuantifier_eq]
  constructor
  · intro next left hRead
    obtain ⟨piece, hPiece, hRead⟩ := bind_eq_ok_iff.mp hRead
    obtain ⟨⟨greed, mid⟩, hGreed, hRead⟩ := bind_eq_ok_iff.mp hRead
    cases hRead
    obtain ⟨hLeads, hSame⟩ := (readGreed_mirrors ts).reads greed mid hGreed
    refine ⟨hLeads, fun tail Next rest hTail hMirror => ?_⟩
    obtain ⟨piece', hPiece', hMirror⟩ := bind_eq_ok_iff.mp hMirror
    obtain ⟨⟨greed', mid'⟩, hGreed', hMirror⟩ := bind_eq_ok_iff.mp hMirror
    obtain ⟨rfl, rfl⟩ := hSame tail greed' mid' hTail hGreed'
    cases hMirror
    exact ⟨rfl, .stay .repeatLast, .repeatLast hPiece greed min max,
      .repeatLast hPiece' greed min max⟩
  · refine (hStep.refuses_checkRepeatable place).bind ?_
    intro piece _ e hError hOwn tail hTail piece' _
    rcases bind_eq_error_iff.mp hError with hError | ⟨_, -, hError⟩
    · obtain ⟨e', he'⟩ := (readGreed_mirrors ts).refuses e hError hOwn tail hTail
      exact exists_error_bind fun greed hGreed => by cases he'.symm.trans hGreed
    · cases hError

theorem readGroupFlags (start : Nat) (start' : List Token → Nat) (on : List Flag) (separator : Char)
    (hStep : InStep d D) (ts : List Token) :
    Mirrors (Together d D) ts (readGroupFlags d start on separator ts)
      fun tail => Pattern.readGroupFlags D (start' tail) on separator (ts ++ tail) := by
  unfold Pattern.readGroupFlags
  dsimp only
  refine ite (fun _ => fails) fun _ => ite (fun _ => ?_) fun _ => ?_
  · simp only [pure_bind]
    refine ite (fun _ => fails) fun _ => ite (fun _ => fails) fun _ => ?_
    exact done fun _ => Together.openFlagged hStep.verbose on [] start _
  · cases ts with
    | nil => exact ended fun rest => exists_error_next ⟨_, rfl⟩
    | cons t rest =>
      simp only [List.cons_append]
      apply next
      cases flagOf? t with
      | none => exact fails
      | some flag =>
        apply bind (readFlagsOff [] flag rest)
        intro off rest _
        refine ite (fun _ => fails) fun _ => ite (fun _ => fails) fun _ => ?_
        exact done fun _ => Together.openFlagged hStep.verbose on off start _

theorem readNamedHead (start : Nat) (start' : List Token → Nat) (hStep : InStep d D) (ts : List Token) :
    Mirrors (Together d D) ts (readNamedHead d start ts)
      fun tail => Pattern.readNamedHead D (start' tail) (ts ++ tail) := by
  cases ts with
  | nil => exact ended fun rest => exists_error_next ⟨_, rfl⟩
  | cons t rest =>
    simp only [Pattern.readNamedHead, List.cons_append]
    refine next (ite (fun _ => ?_) fun _ => ite (fun _ => ?_) fun _ => fails)
    · exact bind (readGroupName _ rest) fun name rest _ =>
        lift (fun next Next tail h H => Together.capture hStep.verbose h H)
          (hStep.refuses_openCapture _ _ _)
    · exact bind (readGroupName _ rest) fun name rest _ =>
        lift (fun next Next tail h H => Together.referByName h H)
          (.of_reachesOut fun e => reachesOut_of_referByName)

theorem readBehindHead (start : Nat) (start' : List Token → Nat) (hStep : InStep d D)
    (ts : List Token) :
    Mirrors (Together d D) ts (readBehindHead d start ts)
      fun tail => Pattern.readBehindHead D (start' tail) (ts ++ tail) := by
  cases ts with
  | nil => exact ended fun rest => exists_error_next ⟨_, rfl⟩
  | cons t rest =>
    simp only [Pattern.readBehindHead, List.cons_append]
    refine next (ite (fun _ => done fun _ => Together.openBehind hStep.verbose _ _ _) fun _ => ?_)
    exact ite (fun _ => done fun _ => Together.openBehind hStep.verbose _ _ _) fun _ => fails

theorem readConditionHead (start : Nat) (start' : List Token → Nat) (hStep : InStep d D)
    (ts : List Token) :
    Mirrors (Together d D) ts (readConditionHead d start ts)
      fun tail => Pattern.readConditionHead D (start' tail) (ts ++ tail) := by
  have hVerbose := hStep.verbose
  apply bind (readName _ _ ts)
  intro name rest _
  constructor
  · intro next left hRead
    obtain ⟨⟨index, e⟩, hGroup, hRead⟩ := bind_eq_ok_iff.mp hRead
    obtain ⟨mentions, rfl⟩ := eq_of_conditionGroup hGroup
    obtain ⟨⟨⟩, -, hRead⟩ := bind_eq_ok_iff.mp hRead
    cases hRead
    refine ⟨.refl _, fun tail Next rest' hTail hMirror => ?_⟩
    obtain ⟨⟨Index, E⟩, hGroup', hMirror⟩ := bind_eq_ok_iff.mp hMirror
    obtain ⟨Mentions, rfl⟩ := eq_of_conditionGroup hGroup'
    obtain ⟨⟨⟩, -, hMirror⟩ := bind_eq_ok_iff.mp hMirror
    cases hMirror
    refine ⟨rfl, .enter d.frame.verbose (some false) none,
      .enter d (.conditional index none) rfl (.inl rfl) start _ d.behindLimit? mentions, ?_⟩
    rw [hVerbose]
    exact .enter D (.conditional Index none) rfl (.inl rfl) (start' tail) _ D.behindLimit? Mentions
  · refine (InStep.refuses_conditionGroup name _).bind ?_
    intro _ _ e hError hOwn
    rcases bind_eq_error_iff.mp hError with hError | ⟨_, -, hError⟩
    · rw [reachesOut_of_checkBehind hError] at hOwn
      cases hOwn
    · cases hError
where
  eq_of_conditionGroup {d e : Draft} {name : String} {left index : Nat}
      (h : d.conditionGroup name left = .ok (index, e)) : ∃ mentions, e = { d with mentions } := by
    unfold Draft.conditionGroup at h
    dsimp only at h
    split at h
    · split at h
      · cases h
      · cases h
        exact ⟨_, rfl⟩
    · split at h
      · split at h
        · cases h
        · split at h
          · cases h
          · cases h
            split
            · exact ⟨_, rfl⟩
            · exact ⟨_, rfl⟩
      · cases h

def endFlags (d : Draft) (start : Nat) : (List Flag × Char) × List Token → Read (Draft × List Token)
  | ((on, separator), rest) =>
    if separator == ')' then d.addGlobalFlags on start >>= fun e => Pure.pure (e, rest)
    else Pattern.readGroupFlags d start on separator rest

theorem addGlobalFlags_eq_error (hStep : InStep d D) (on : List Flag) (start : Nat) :
    D.addGlobalFlags on start = .error ⟨.lateGlobalFlags, some start⟩ := by
  simp [Draft.addGlobalFlags, hStep.outer, Pattern.fail]

theorem refuses_checkFlagOn {on : List Flag} {flag : Flag} {left : Nat} {left' : List Token → Nat} :
    Refuses (checkFlagOn on flag left) fun tail => checkFlagOn on flag (left' tail) :=
  .ite (fun _ => .fails) fun _ => .ite (fun _ => .fails) fun _ => .ok

/-- Inside a group there are no flags for the whole pattern. -/
theorem readFlags (start : Nat) (start' : List Token → Nat) (hStep : InStep d D) (on : List Flag)
    (flag : Flag) (ts : List Token) :
    Mirrors (Together d D) ts (readFlagsOn on flag ts >>= endFlags d start)
      fun tail => readFlagsOn on flag (ts ++ tail) >>= endFlags D (start' tail) := by
  have hGlobal (on : List Flag) (tail rest : List Token) :
      ∃ e, endFlags D (start' tail) ((on, ')'), rest) = .error e :=
    ⟨_, congrArg (· >>= fun e => Pure.pure (e, rest)) (addGlobalFlags_eq_error hStep on _)⟩
  induction ts generalizing on flag with
  | nil =>
    obtain ⟨e, he⟩ : ∃ e, (readFlagsOn on flag [] >>= endFlags d start) = .error e := by
      refine exists_error_bind fun _ hRead => ?_
      obtain ⟨⟨⟩, -, hRead⟩ := bind_eq_ok_iff.mp hRead
      cases hRead
    rw [he]
    refine ended fun rest => exists_error_bind fun read hRead => ?_
    obtain ⟨⟨⟩, -, hRead⟩ := bind_eq_ok_iff.mp hRead
    obtain ⟨⟨⟩, -, hRead⟩ := bind_eq_ok_iff.mp hRead
    cases hRead
    exact hGlobal _ _ _
  | cons t rest ih =>
    simp only [readFlagsOn, List.cons_append, bind_assoc]
    refine guard refuses_checkFlagOn fun _ => next ?_
    cases flagOf? t with
    | some flag' => exact ih _ _
    | none =>
      dsimp only
      split
      · refine lift (fun next Next tail _ hNext => ?_)
          (.of_fails fun tail _ => ⟨_, addGlobalFlags_eq_error hStep _ _⟩)
        cases (addGlobalFlags_eq_error hStep _ _).symm.trans hNext
      · exact readGroupFlags start start' (on ++ [flag]) '-' hStep rest
      · exact readGroupFlags start start' (on ++ [flag]) ':' hStep rest
      · exact fails

theorem readExtension (start : Nat) (start' : List Token → Nat) (hStep : InStep d D)
    (ts : List Token) :
    Mirrors (Together d D) ts (readExtension d start ts)
      fun tail => Pattern.readExtension D (start' tail) (ts ++ tail) := by
  cases ts with
  | nil => exact ended fun rest => exists_error_next ⟨_, rfl⟩
  | cons t rest =>
    simp only [Pattern.readExtension, List.cons_append]
    apply next
    have hEnter {opener : Opener} (h : opener.indices = []) (hFault : opener.fault? = none)
        (tail : List Token) := Together.enter hStep.verbose h hFault start (start' tail)
    split
    · exact readNamedHead start start' hStep rest
    · exact done (hEnter rfl rfl)
    · exact skipComment Together.same start start' rest
    · exact done (hEnter rfl rfl)
    · exact done (hEnter rfl rfl)
    · exact readBehindHead start start' hStep rest
    · exact readConditionHead start start' hStep rest
    · exact done (hEnter rfl rfl)
    · exact readGroupFlags start start' [] '-' hStep rest
    · cases flagOf? t with
      | none => exact fails
      | some flag => exact readFlags start start' hStep [] flag rest

theorem readGroup (start : Nat) (start' : List Token → Nat) (hStep : InStep d D) (ts : List Token) :
    Mirrors (Together d D) ts (readGroup d start ts)
      fun tail => Pattern.readGroup D (start' tail) (ts ++ tail) := by
  refine take (by decide) ?_ fun rest => readExtension start start' hStep rest
  exact lift (fun next Next tail h H => Together.capture hStep.verbose h H)
    (hStep.refuses_openCapture _ _ _)

theorem pushEscape {next Next : Draft} {escape : Escape} {left Left : Nat}
    (h : pushEscape d escape left = .ok next) (H : Pattern.pushEscape D escape Left = .ok Next) :
    Together d D next Next := by
  cases escape with
  | code n =>
    cases h
    cases H
    exact Together.push _ _ _ rfl rfl
  | category kind negated =>
    cases h
    cases H
    exact Together.push _ _ _ rfl rfl
  | anchor a =>
    cases h
    cases H
    exact Together.push _ _ _ rfl rfl
  | reference index length => exact Together.referByNumber h H

theorem readPlain (c : Char) (hStep : InStep d D) (ts : List Token) :
    Mirrors (Together d D) ts (readPlain d c ts)
      fun tail => Pattern.readPlain D c (ts ++ tail) := by
  have hPush (node : Node) (kind : PieceKind) (h : node.indices = []) :=
    Together.push (d := d) (D := D) node node kind h h
  unfold Pattern.readPlain
  split
  · refine take (by decide) ?_ fun rest => ?_
    · exact done fun tail => Together.keepSet rfl
    · exact done fun tail => Together.keepSet rfl
  · exact readGroup _ _ hStep ts
  · exact pure (hPush _ _ rfl)
  · exact pure (hPush _ _ rfl)
  · exact pure (hPush _ _ rfl)
  · exact readQuantifier hStep _ _ _ _ ts
  · exact readQuantifier hStep _ _ _ _ ts
  · exact readQuantifier hStep _ _ _ _ ts
  · exact readBounds (pure (hPush _ _ rfl)) fun bounds rest => readQuantifier hStep _ _ _ _ rest
  · exact pure (hPush _ _ rfl)

end Mirrors

theorem skipLine_append {ts rest : List Token} (h : skipLine ts = .ok rest) :
    Leads ts rest ∧
      (rest ≠ [] → ∀ tail, Closing tail → skipLine (ts ++ tail) = .ok (rest ++ tail)) := by
  induction ts with
  | nil =>
    cases h
    exact ⟨.refl _, fun hRest => absurd rfl hRest⟩
  | cons t ts ih =>
    obtain ⟨⟨⟩, hNo, h⟩ := bind_eq_ok_iff.mp h
    by_cases ht : t = .plain '\n'
    · rw [if_pos ht] at h
      cases h
      refine ⟨.next hNo, fun _ tail hTail => ?_⟩
      simp [skipLine, ht, hTail.noDangling_append hNo, bind, Except.bind, pure, Except.pure]
    · rw [if_neg ht] at h
      obtain ⟨hLeads, hSame⟩ := ih h
      refine ⟨(Leads.next hNo).trans hLeads, fun hRest tail hTail => ?_⟩
      simp [skipLine, ht, hTail.noDangling_append hNo, hSame hRest tail hTail, bind, Except.bind]

section Step

variable {d D next : Draft} {t : Token} {ts left : List Token}

theorem readStep_bar (hSet : d.set? = none) (ts : List Token) :
    readStep d (.plain '|' :: ts) = d.endBranch (charsLeft ts + 1) >>= fun next =>
      noDangling ts >>= fun _ => pure (next, ts) := by
  simp only [readStep, hSet]

theorem readStep_close (hSet : d.set? = none) (ts : List Token) :
    readStep d (.plain ')' :: ts) = d.closeFrame (charsLeft ts + 1) >>= fun next =>
      noDangling ts >>= fun _ => pure (next, ts) := by
  simp only [readStep, hSet]

theorem readStep_escaped (hSet : d.set? = none) (c : Char) (ts : List Token) :
    readStep d (.escaped c :: ts) = noDangling ts >>= fun _ => readEscape c ts >>= fun read =>
      pushEscape d read.1 (charsLeft read.2) >>= fun next => pure (next, read.2) := by
  simp only [readStep, hSet]

theorem readStep_char (hSet : d.set? = none) {c : Char} (hBar : c ≠ '|') (hClose : c ≠ ')')
    (ts : List Token) :
    readStep d (.plain c :: ts) = noDangling ts >>= fun _ =>
      if d.frame.verbose && Unicode.isAsciiBlank c then pure (d, ts)
      else if d.frame.verbose && c == '#' then skipLine ts >>= fun rest => pure (d, rest)
      else readPlain d c ts := by
  simp [readStep, hSet]

theorem noDangling_of_readStep (h : readStep d (t :: ts) = .ok (next, left)) :
    noDangling ts = .ok () := by
  have hNext {k : Unit → Read (Draft × List Token)} (h : (noDangling ts >>= k) = .ok (next, left)) :
      noDangling ts = .ok () := by
    obtain ⟨⟨⟩, hNo, -⟩ := bind_eq_ok_iff.mp h
    exact hNo
  cases hSet : d.set? with
  | some set =>
    simp only [readStep, hSet] at h
    exact hNext h
  | none =>
    cases t with
    | dangling =>
      simp only [readStep, hSet] at h
      cases h
    | escaped c => exact hNext (readStep_escaped hSet c ts ▸ h)
    | plain c =>
      by_cases hBar : c = '|'
      · rw [hBar, readStep_bar hSet] at h
        obtain ⟨_, -, h⟩ := bind_eq_ok_iff.mp h
        exact hNext h
      by_cases hClose : c = ')'
      · rw [hClose, readStep_close hSet] at h
        obtain ⟨_, -, h⟩ := bind_eq_ok_iff.mp h
        exact hNext h
      exact hNext (readStep_char hSet hBar hClose ts ▸ h)

/-- The step skips a comment to the end of its line. -/
def SkipsLine (d : Draft) (t : Token) : Prop :=
  ∀ ts, readStep d (t :: ts) =
    noDangling ts >>= fun _ => skipLine ts >>= fun rest => pure (d, rest)

/-- Two drafts in step take the same tokens, but for a comment in a verbose pattern. -/
theorem mirrors_or_skipsLine (hStep : InStep d D) (t : Token) (ts : List Token) :
    Mirrors (Together d D) ts (readStep d (t :: ts)) (fun tail => readStep D (t :: (ts ++ tail))) ∨
      d.frame.verbose = true ∧ SkipsLine d t ∧ SkipsLine D t := by
  have hVerbose := hStep.verbose
  have hSet := hStep.set
  -- Inside a set nothing but the set is read.
  cases hd : d.set? with
  | some set =>
    left
    cases hD : D.set? with
    | none => simp [hd, hD] at hSet
    | some Set =>
      simp only [hd, hD, Option.map_some, Option.some.injEq] at hSet
      simp only [readStep, hd, hD]
      exact Mirrors.readSetStep hSet t ts
  | none =>
    have hD : D.set? = none := by simpa [hd] using hSet.symm
    cases t with
    | dangling =>
      left
      simp only [readStep, hd]
      exact .out rfl
    | escaped c =>
      left
      simp only [readStep_escaped hd, readStep_escaped hD]
      refine .guard .noDangling fun _ => ?_
      refine .bind (.readEscape c ts) fun escape rest _ => ?_
      exact .lift (fun a b tail => Mirrors.pushEscape) (.of_reachesOut fun e => reachesOut_of_pushEscape)
    | plain c =>
      by_cases hBar : c = '|'
      · left
        simp only [hBar, readStep_bar hd, readStep_bar hD]
        exact .liftNext (fun a b tail h H => ⟨.stay .endBranch, .endBranch h, .endBranch H⟩)
          (hStep.refuses_endBranch _)
      by_cases hClose : c = ')'
      · left
        simp only [hClose, readStep_close hd, readStep_close hD]
        exact .liftNext (fun a b tail h H => ⟨.leave, .leave h, .leave H⟩)
          (.of_reachesOut fun e => reachesOut_of_closeFrame)
      simp only [SkipsLine, readStep_char hd hBar hClose, readStep_char hD hBar hClose, ← hVerbose]
      by_cases hBlank : (d.frame.verbose && Unicode.isAsciiBlank c) = true
      · left
        simp only [hBlank, if_true]
        exact .guard .noDangling fun _ => .pure Together.same
      by_cases hHash : (d.frame.verbose && c == '#') = true
      · right
        simp only [hBlank, hHash, if_true]
        exact ⟨(Bool.and_eq_true_iff.mp hHash).1, fun ts => rfl, fun ts => rfl⟩
      · left
        simp only [hBlank, hHash]
        exact .guard .noDangling fun _ => .readPlain c hStep ts

/-- Only a comment that runs to the end of a verbose pattern would go on behind it. -/
theorem readStep_mirrors (hStep : InStep d D) (h : readStep d (t :: ts) = .ok (next, left)) :
    noDangling ts = .ok () ∧ Leads ts left ∧
      ((left = [] → next = d → d.frame.verbose = false) → ∀ tail Next left', Closing tail →
        readStep D (t :: (ts ++ tail)) = .ok (Next, left') →
          left' = left ++ tail ∧ Together d D next Next) := by
  refine ⟨noDangling_of_readStep h, ?_⟩
  rcases mirrors_or_skipsLine hStep t ts with hMirrors | ⟨hVerbose, hSkips, hSkips'⟩
  · exact (hMirrors.reads next left h).imp_right fun hSame _ => hSame
  · rw [hSkips] at h
    obtain ⟨⟨⟩, -, h⟩ := bind_eq_ok_iff.mp h
    obtain ⟨left', hLine, h⟩ := bind_eq_ok_iff.mp h
    cases h
    obtain ⟨hLeads, hSame⟩ := skipLine_append hLine
    refine ⟨hLeads, fun hLeft tail Next rest hTail hMirror => ?_⟩
    -- The comment ends within the pattern, so what stands behind the pattern is not part of it.
    have hRest : left ≠ [] := fun hNil => Bool.noConfusion (hVerbose.symm.trans (hLeft hNil rfl))
    rw [hSkips'] at hMirror
    obtain ⟨⟨⟩, -, hMirror⟩ := bind_eq_ok_iff.mp hMirror
    obtain ⟨rest', hLine', hMirror⟩ := bind_eq_ok_iff.mp hMirror
    cases hMirror
    rw [hSame hRest tail hTail] at hLine'
    cases hLine'
    exact ⟨rfl, Together.same⟩

theorem reachesOut_of_skipLine {e : Fault} (h : skipLine ts = .error e) : e.cause.reachesOut = true := by
  induction ts with
  | nil => cases h
  | cons t ts ih =>
    rcases bind_eq_error_iff.mp h with h | ⟨_, -, h⟩
    · exact reachesOut_of_noDangling h
    · split at h
      · cases h
      · exact ih h

theorem readStep_refuses (hStep : InStep d D) :
    Refuses (readStep d (t :: ts)) fun tail => readStep D (t :: (ts ++ tail)) := by
  rcases mirrors_or_skipsLine hStep t ts with hMirrors | ⟨-, hSkips, -⟩
  · exact hMirrors.refuses
  · refine .of_reachesOut fun e hError => ?_
    rw [hSkips] at hError
    rcases bind_eq_error_iff.mp hError with hError | ⟨_, -, hError⟩
    · exact reachesOut_of_noDangling hError
    · rcases bind_eq_error_iff.mp hError with hError | ⟨_, -, hError⟩
      · exact reachesOut_of_skipLine hError
      · cases hError

end Step

end UriRouting.Pattern
