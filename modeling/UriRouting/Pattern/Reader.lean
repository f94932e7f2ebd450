import UriRouting.Pattern.Draft

/-! # Reading patterns

One step reads one member of an open set, or one element of the pattern: a character, an escape, a
quantifier, the head of a group, a bar, or a closing parenthesis. -/

set_option autoImplicit false

namespace UriRouting.Pattern

def readSetMember : Token → List Token → Read (SetItem × List Token)
  | .plain c, rest => pure (.code c.toNat, rest)
  | .escaped c, rest => readSetEscape c rest
  | .dangling, _ => fail .danglingBackslash 1

def readSetStep (d : Draft) (set : OpenSet) : List Token → Read (Draft × List Token)
  | [] => fail .unterminatedSet set.start
  | first :: rest => do
    noDangling rest
    let close (items : List SetItem) : Draft := { d with set? := none }.push { set with items }.node
    let keep (items : List SetItem) : Draft := { d with set? := some { set with items } }
    if first = .plain ']' && !set.items.isEmpty then pure (close set.items, rest)
    else
      let (low, rest) ← readSetMember first rest
      match ← take? '-' rest with
      | none => pure (keep (low :: set.items), rest)
      | some [] => fail .unterminatedSet set.start
      | some (second :: rest) =>
        noDangling rest
        if second = .plain ']' then pure (close (.code '-'.toNat :: low :: set.items), rest)
        else
          let (high, rest) ← readSetMember second rest
          let refused := fail (.badRange first.text second.text)
            (charsLeft rest + first.width + 1 + second.width)
          match low, high with
          | .code m, .code n =>
            if n < m then refused else pure (keep (.range m n :: set.items), rest)
          | _, _ => refused

/-- The least and the greatest count of a quantifier, or nothing if the brace is literal. -/
def readBounds (rest : List Token) : Read (Option ((Nat × Option Nat) × List Token)) := do
  if rest.head? = some (.plain '}') then pure none
  else
    let (low, afterLow) ← readDigits rest
    let (high, afterHigh) ←
      match ← take? ',' afterLow with
      | none => pure (low, afterLow)
      | some afterComma => readDigits afterComma
    match ← take? '}' afterHigh with
    | none => pure none
    | some rest' =>
      let limit := 4294967295
      let min := Text.valueOf 10 low
      let max := Text.valueOf 10 high
      if limit ≤ min then .error ⟨.repetitionTooLarge, none⟩
      else if high.isEmpty then pure (some ((min, none), rest'))
      else if limit ≤ max then .error ⟨.repetitionTooLarge, none⟩
      else if max < min then fail .minAboveMax (charsLeft rest)
      else pure (some ((min, some max), rest'))

def readQuantifier (d : Draft) (min : Nat) (max : Option Nat) (place : Nat) (rest : List Token) :
    Read (Draft × List Token) := do
  let piece ← d.checkRepeatable place
  match ← take? '?' rest with
  | some rest => pure (d.repeatLast piece .lazy min max, rest)
  | none =>
    match ← take? '+' rest with
    | some rest => pure (d.repeatLast piece .possessive min max, rest)
    | none => pure (d.repeatLast piece .greedy min max, rest)

def refusedFlag {α : Type} (t : Token) (rest : List Token) (otherwise : Cause) : Read α :=
  let isLetter := match t with
    | .plain c => Unicode.isLetter c
    | _ => false
  fail (if isLetter then .unknownFlag else otherwise) (charsLeft rest + t.width)

def flagOf? : Token → Option Flag
  | .plain c => Flag.ofLetter? c
  | _ => none

def checkFlagOn (on : List Flag) (flag : Flag) (left : Nat) : Read Unit :=
  if flag = .locale then fail .localeFlag left
  else if flag.isRepertoire && on.any (fun f => f.isRepertoire && f != flag) then
    fail .incompatibleFlags left
  else pure ()

def readFlagsOn (on : List Flag) (flag : Flag) : List Token → Read ((List Flag × Char) × List Token)
  | [] => do
    checkFlagOn on flag 0
    fail .missingFlagEnd 0
  | t :: rest => do
    checkFlagOn on flag (charsLeft (t :: rest))
    noDangling rest
    match flagOf? t with
    | some next => readFlagsOn (on ++ [flag]) next rest
    | none =>
      match t with
      | .plain ')' => pure ((on ++ [flag], ')'), rest)
      | .plain '-' => pure ((on ++ [flag], '-'), rest)
      | .plain ':' => pure ((on ++ [flag], ':'), rest)
      | _ => refusedFlag t rest .missingFlagEnd

def readFlagsOff (off : List Flag) (flag : Flag) : List Token → Read (List Flag × List Token)
  | [] => if flag.isRepertoire then fail .turnedOffRepertoire 0 else fail .missingColon 0
  | t :: rest => do
    if flag.isRepertoire then fail .turnedOffRepertoire (charsLeft (t :: rest))
    noDangling rest
    match flagOf? t with
    | some next => readFlagsOff (off ++ [flag]) next rest
    | none =>
      if t = .plain ':' then pure (off ++ [flag], rest)
      else refusedFlag t rest .missingColon

def readGroupFlags (d : Draft) (start : Nat) (on : List Flag) (separator : Char) (ts : List Token) :
    Read (Draft × List Token) := do
  if on.contains .template then fail .turnedOnGlobalFlag (charsLeft ts + 1)
  let (off, rest) ←
    if separator == ':' then pure ([], ts)
    else match ts with
      | [] => fail .missingFlag 0
      | t :: rest => do
        noDangling rest
        match flagOf? t with
        | some flag => readFlagsOff [] flag rest
        | none => refusedFlag t rest .missingFlag
  if off.contains .template then fail .turnedOffGlobalFlag (charsLeft rest + 1)
  if on.any off.contains then fail .turnedOnAndOff (charsLeft rest + 1)
  pure (d.openFlagged on off start, rest)

def skipComment (start : Nat) : List Token → Read (List Token)
  | [] => fail .unterminatedComment start
  | t :: rest => do
    noDangling rest
    if t = .plain ')' then pure rest else skipComment start rest

def readGroupName (terminator : Char) (ts : List Token) : Read (String × List Token) := do
  let (name, rest) ← readName "group name" terminator [] ts
  if Unicode.isIdentifier name.toList then pure (name, rest)
  else fail (.badGroupName name) (charsLeft rest + name.length + 1)

def readNamedHead (d : Draft) (start : Nat) : List Token → Read (Draft × List Token)
  | [] => fail .unexpectedEnd 0
  | t :: rest => do
    noDangling rest
    if t = .plain '<' then
      let (name, rest) ← readGroupName '>' rest
      pure (← d.openCapture (some name) start (charsLeft rest), rest)
    else if t = .plain '=' then
      let (name, rest) ← readGroupName ')' rest
      pure (← d.referByName name (charsLeft rest), rest)
    else fail (.unknownExtension ("P" ++ t.text)) (charsLeft rest + t.width + 2)

def readBehindHead (d : Draft) (start : Nat) : List Token → Read (Draft × List Token)
  | [] => fail .unexpectedEnd 0
  | t :: rest => do
    noDangling rest
    if t = .plain '=' then pure (d.openBehind false start, rest)
    else if t = .plain '!' then pure (d.openBehind true start, rest)
    else fail (.unknownExtension ("<" ++ t.text)) (charsLeft rest + t.width + 2)

def readConditionHead (d : Draft) (start : Nat) (ts : List Token) : Read (Draft × List Token) := do
  let (name, rest) ← readName "group name" ')' [] ts
  let (index, d) ← d.conditionGroup name (charsLeft rest)
  d.checkBehind index (charsLeft rest)
  pure (d.openFrame (.conditional index none) start d.frame.verbose, rest)

def readExtension (d : Draft) (start : Nat) : List Token → Read (Draft × List Token)
  | [] => fail .unexpectedEnd 0
  | t :: rest => do
    noDangling rest
    let opened (opener : Opener) := (d.openFrame opener start d.frame.verbose, rest)
    match t with
    | .plain 'P' => readNamedHead d start rest
    | .plain ':' => pure (opened .plain)
    | .plain '#' => pure (d, ← skipComment start rest)
    | .plain '=' => pure (opened (.ahead false))
    | .plain '!' => pure (opened (.ahead true))
    | .plain '<' => readBehindHead d start rest
    | .plain '(' => readConditionHead d start rest
    | .plain '>' => pure (opened .atomic)
    | .plain '-' => readGroupFlags d start [] '-' rest
    | _ =>
      match flagOf? t with
      | none => fail (.unknownExtension t.text) (charsLeft rest + t.width + 1)
      | some flag =>
        let ((on, separator), rest) ← readFlagsOn [] flag rest
        if separator == ')' then pure (← d.addGlobalFlags on start, rest)
        else readGroupFlags d start on separator rest

def readGroup (d : Draft) (start : Nat) (rest : List Token) : Read (Draft × List Token) := do
  match ← take? '?' rest with
  | some rest => readExtension d start rest
  | none => pure (← d.openCapture none start (charsLeft rest), rest)

def skipLine : List Token → Read (List Token)
  | [] => pure []
  | t :: rest => do
    noDangling rest
    if t = .plain '\n' then pure rest else skipLine rest

def pushEscape (d : Draft) (escape : Escape) (left : Nat) : Read Draft :=
  match escape with
  | .code n => pure (d.push (.code n))
  | .category kind negated => pure (d.push (.oneOf false [.category kind negated]))
  | .anchor a => pure (d.push (.anchor a) .anchor)
  | .reference index length => d.referByNumber index length left

def readPlain (d : Draft) (c : Char) (rest : List Token) : Read (Draft × List Token) :=
  let place := charsLeft rest + 1
  match c with
  | '[' => do
    match ← take? '^' rest with
    | some rest => pure ({ d with set? := some { start := place, negated := true } }, rest)
    | none => pure ({ d with set? := some { start := place, negated := false } }, rest)
  | '(' => readGroup d place rest
  | '.' => pure (d.push .any, rest)
  | '^' => pure (d.push (.anchor .lineStart) .anchor, rest)
  | '$' => pure (d.push (.anchor .lineEnd) .anchor, rest)
  | '?' => readQuantifier d 0 (some 1) place rest
  | '*' => readQuantifier d 0 none place rest
  | '+' => readQuantifier d 1 none place rest
  | '{' => do
    match ← readBounds rest with
    | none => pure (d.push (.code c.toNat), rest)
    | some ((min, max), rest) => readQuantifier d min max place rest
  | _ => pure (d.push (.code c.toNat), rest)

def readStep (d : Draft) : List Token → Read (Draft × List Token)
  | [] => pure (d, [])
  | t :: rest =>
    match d.set? with
    | some set => readSetStep d set (t :: rest)
    | none =>
      match t with
      | .dangling => fail .danglingBackslash 1
      | .plain '|' => do
        let next ← d.endBranch (charsLeft rest + 1)
        noDangling rest
        pure (next, rest)
      | .plain ')' => do
        let next ← d.closeFrame (charsLeft rest + 1)
        noDangling rest
        pure (next, rest)
      | .escaped c => do
        noDangling rest
        let (escape, rest) ← readEscape c rest
        pure (← pushEscape d escape (charsLeft rest), rest)
      | .plain c => do
        noDangling rest
        if d.frame.verbose && Unicode.isAsciiBlank c then pure (d, rest)
        else if d.frame.verbose && c == '#' then pure (d, ← skipLine rest)
        else readPlain d c rest

/-- Every step takes a token, so that their number is fuel enough. -/
def readSteps : Nat → Draft → List Token → Read Draft
  | _, d, [] => pure d
  | 0, d, _ => pure d
  | fuel + 1, d, ts => do
    let (next, rest) ← readStep d ts
    readSteps fuel next rest

def readTokens (ts : List Token) : Read Compiled := do
  noDangling ts
  (← readSteps ts.length .start ts).finish

def compile (pattern : List Char) : Except Error Compiled :=
  match readTokens (tokenize pattern) with
  | .ok p => .ok p
  | .error fault => .error ⟨fault.cause, fault.left?.map (pattern.length - ·)⟩

end UriRouting.Pattern
