import UriRouting.Converter.Basic
import UriRouting.Proofs.Outcome
import UriRouting.Proofs.Pattern.First
import UriRouting.Proofs.Text.Digits
import UriRouting.Proofs.Unicode.Case

/-! # Dates in the default format

The pattern of the default format has a group for each of its seven directives. Where a date is written
with as many digits as the pattern asks for, each group takes first what its directive has written; what the
directives read from these texts is the date. -/

set_option autoImplicit false

namespace UriRouting

namespace Calendar

/-! ## The pattern -/

namespace DefaultFormat

open Pattern Pattern.Node

def digit : Node := .oneOf false [.category .digit false]

/-- A digit from `low` to `high`. -/
def digitIn (low high : Nat) : Node := .oneOf false [.range (48 + low) (48 + high)]

def char (c : Char) : Node := .code c.toNat

def year : Node := ofSequence [digit, digit, digit, digit]

def month : Node :=
  ofBranches [ofSequence [char '1', digitIn 0 2], ofSequence [char '0', digitIn 1 9], ofSequence [digitIn 1 9]]

def day : Node :=
  ofBranches [ofSequence [char '3', digitIn 0 1], ofSequence [digitIn 1 2, digit],
    ofSequence [char '0', digitIn 1 9], ofSequence [digitIn 1 9], ofSequence [char ' ', digitIn 1 9]]

def hour : Node :=
  ofBranches [ofSequence [char '2', digitIn 0 3], ofSequence [digitIn 0 1, digit], ofSequence [digit]]

def minute : Node := ofBranches [ofSequence [digitIn 0 5, digit], ofSequence [digit]]

def second : Node :=
  ofBranches [ofSequence [char '6', digitIn 0 1], ofSequence [digitIn 0 5, digit], ofSequence [digit]]

def fraction : Node := ofSequence ([char '.', digit] ++ List.replicate 5 (optional digit))

/-- The seconds of an offset, and behind them their fraction. -/
def offsetSeconds : Node := ofSequence [optional (char ':'), digitIn 0 5, digit, optional fraction]

def offset : Node :=
  ofBranches [
    ofSequence [.oneOf false [.code '+'.toNat, .code '-'.toNat], digit, digit, optional (char ':'),
      digitIn 0 5, digit, optional offsetSeconds],
    ofSequence [.flagged [] [.ignoreCase] (ofSequence [char 'Z'])]]

/-- The pattern: a group for each directive, and the characters between them. -/
def nodes : List Node :=
  [.group 1 year, char '-', .group 2 month, char '-', .group 3 day, char 'T', .group 4 hour, char ':',
    .group 5 minute, char ':', .group 6 second, .group 7 offset]

/-- The nodes, each with what is written for it. -/
def parts (t : DateTime) : List (Node × List Char) :=
  [(.group 1 year, Directive.year.write t), (char '-', ['-']), (.group 2 month, Directive.month.write t),
    (char '-', ['-']), (.group 3 day, Directive.day.write t), (char 'T', ['T']),
    (.group 4 hour, Directive.hour.write t), (char ':', [':']), (.group 5 minute, Directive.minute.write t),
    (char ':', [':']), (.group 6 second, Directive.second.write t), (.group 7 offset, Directive.offset.write t)]

def mode : Mode := { ignoreCase := true }

def directives : List Directive := [.year, .month, .day, .hour, .minute, .second, .offset]

theorem formatItems_eq : formatItems Converter.defaultFormat.toList =
    [.directive .year, .literal '-', .directive .month, .literal '-', .directive .day, .literal 'T',
      .directive .hour, .literal ':', .directive .minute, .literal ':', .directive .second,
      .directive .offset] := by decide +kernel

theorem format_eq (t : DateTime) : t.format Converter.defaultFormat.toList = (parts t).flatMap Prod.snd := by
  rw [DateTime.format, formatItems_eq]
  rfl

theorem exists_compile : ∃ p,
    Pattern.compile (formatPattern false (formatItems Converter.defaultFormat.toList)) = .ok p ∧
      p.node = ofSequence nodes := by
  have hNode : (Pattern.compile (formatPattern false (formatItems Converter.defaultFormat.toList))).toOption.any
      fun p => p.node = ofSequence nodes := by decide +kernel
  obtain ⟨p, hCompile, hNode⟩ := exists_ok_of_any hNode
  exact ⟨p, hCompile, of_decide_eq_true hNode⟩

/-! ## Digits -/

section Digits

variable {d low high : Nat} {v : List Char}

theorem caseVariants_digitChar : ∀ d < 10, Unicode.caseVariants d.digitChar.toNat = [48 + d] := by
  decide +kernel

theorem isDecimalDigit_digitChar : ∀ d < 10, Unicode.isDecimalDigit d.digitChar = true := by decide +kernel

theorem inSet_digitIn (hd : d < 10) : mode.inSet d.digitChar false [.range (48 + low) (48 + high)] =
    (decide (low ≤ d) && decide (d ≤ high)) := by
  have hVariants : mode.variants d.digitChar = [48 + d] := caseVariants_digitChar d hd
  simp [Mode.inSet, Mode.inItem, hVariants]

theorem sameCode_digitChar : ∀ d < 10, ∀ e < 10, mode.sameCode e.digitChar.toNat d.digitChar = decide (e = d) := by
  decide +kernel

theorem sameCode_colon : ∀ d < 10, mode.sameCode ':'.toNat d.digitChar = false := by decide +kernel

theorem takes_digit (hd : d < 10) : TakesFirst mode digit [d.digitChar] v := by
  refine .oneOf ?_
  simp [Mode.inSet, Mode.inItem, Mode.inCategory, mode, isDecimalDigit_digitChar d hd]

theorem takes_digitIn (hd : d < 10) (hLow : low ≤ d) (hHigh : d ≤ high) :
    TakesFirst mode (digitIn low high) [d.digitChar] v := by
  refine .oneOf ?_
  rw [inSet_digitIn hd, decide_eq_true hLow, decide_eq_true hHigh]
  rfl

theorem refuses_digitIn (hd : d < 10) (h : d < low ∨ high < d) :
    Refuses mode (digitIn low high) (d.digitChar :: v) := by
  refine .oneOf fun c hc => ?_
  cases hc
  rw [inSet_digitIn hd, Bool.and_eq_false_iff, decide_eq_false_iff_not, decide_eq_false_iff_not]
  omega

theorem takes_char (c : Char) : TakesFirst mode (char c) [c] v := .code (Unicode.equalUpToCase_self c.toNat)

theorem refuses_char (e : Nat) (he : e < 10) (hd : d < 10) (h : e ≠ d) :
    Refuses mode (char e.digitChar) (d.digitChar :: v) := by
  refine .code fun c hc => ?_
  cases hc
  rw [sameCode_digitChar d hd e he, decide_eq_false h]

theorem refuses_colon (hd : d < 10) : Refuses mode (char ':') (d.digitChar :: v) := by
  refine .code fun c hc => ?_
  cases hc
  exact sameCode_colon d hd

theorem refuses_code_nil (n : Nat) : Refuses mode (.code n) [] := by
  refine .code fun c hc => ?_
  cases hc

theorem refuses_oneOf_nil (items : List SetItem) : Refuses mode (.oneOf false items) [] := by
  refine .oneOf fun c hc => ?_
  cases hc

end Digits

/-! ## Fields -/

section Fields

variable {n : Nat} {v : List Char}

theorem two_eq (h : n < 100) : DateTime.two n = [(n / 10).digitChar, (n % 10).digitChar] := by
  have hTens : n / 10 < 10 := Nat.div_lt_of_lt_mul h
  have hDigits : DateTime.two n = [(n / 10 % 10).digitChar, (n % 10).digitChar] :=
    Text.padded_eq_digits (by decide) h
  rw [hDigits, Nat.mod_eq_of_lt hTens]

theorem decimal_eq_padded (h : 1000 ≤ n) : Text.decimal n = Text.padded 10 4 n := by
  have hLength : ¬ (Nat.toDigits 10 n).length ≤ 3 := by
    rw [Nat.length_toDigits_le_iff (by decide) (by decide)]
    omega
  rw [Text.padded, Nat.sub_eq_zero_of_le (Nat.not_le.mp hLength)]
  rfl

theorem takes_year (h : 1000 ≤ n) (h' : n ≤ 9999) : TakesFirst mode year (Text.decimal n) v := by
  have hLess : n < Nat.pow 10 (3 + 1) := Nat.lt_succ_of_le h'
  have hDigit (n : Nat) : n % 10 < 10 := Nat.mod_lt n (by decide)
  rw [decimal_eq_padded h, Text.padded_eq_digits (by decide) hLess]
  exact .cons (takes_digit (hDigit _)) (.cons (takes_digit (hDigit _)) (.cons (takes_digit (hDigit _))
    (.last (takes_digit (hDigit _)))))

theorem takes_month (h : 1 ≤ n) (h' : n ≤ 12) : TakesFirst mode month (DateTime.two n) v := by
  rw [two_eq (by omega)]
  by_cases hTen : 10 ≤ n
  · have hTens : n / 10 = 1 := by omega
    rw [hTens]
    exact .left (.cons (takes_char '1') (.last (takes_digitIn (by omega) (by omega) (by omega))))
  have hTens : n / 10 = 0 := by omega
  rw [hTens]
  refine .right (.seq (refuses_char 1 (by decide) (by decide) (by decide))) (.left ?_)
  exact .cons (takes_char '0') (.last (takes_digitIn (by omega) (by omega) (by omega)))

theorem takes_day (h : 1 ≤ n) (h' : n ≤ 31) : TakesFirst mode day (DateTime.two n) v := by
  rw [two_eq (by omega)]
  by_cases hThirty : 30 ≤ n
  · have hTens : n / 10 = 3 := by omega
    rw [hTens]
    exact .left (.cons (takes_char '3') (.last (takes_digitIn (by omega) (by omega) (by omega))))
  refine .right (.seq (refuses_char 3 (by decide) (by omega) (by omega))) ?_
  by_cases hTen : 10 ≤ n
  · exact .left (.cons (takes_digitIn (by omega) (by omega) (by omega)) (.last (takes_digit (by omega))))
  have hTens : n / 10 = 0 := by omega
  rw [hTens]
  refine .right (.seq (refuses_digitIn (by decide) (by decide))) (.left ?_)
  exact .cons (takes_char '0') (.last (takes_digitIn (by omega) (by omega) (by omega)))

theorem takes_hour (h : n < 24) : TakesFirst mode hour (DateTime.two n) v := by
  rw [two_eq (by omega)]
  by_cases hTwenty : 20 ≤ n
  · have hTens : n / 10 = 2 := by omega
    rw [hTens]
    exact .left (.cons (takes_char '2') (.last (takes_digitIn (by omega) (by omega) (by omega))))
  refine .right (.seq (refuses_char 2 (by decide) (by omega) (by omega))) (.left ?_)
  exact .cons (takes_digitIn (by omega) (by omega) (by omega)) (.last (takes_digit (by omega)))

theorem takes_sixty (h : n < 60) :
    TakesFirst mode (ofSequence [digitIn 0 5, digit]) (DateTime.two n) v := by
  rw [two_eq (by omega)]
  exact .cons (takes_digitIn (by omega) (by omega) (by omega)) (.last (takes_digit (by omega)))

theorem takes_minute (h : n < 60) : TakesFirst mode minute (DateTime.two n) v := .left (takes_sixty h)

theorem takes_second (h : n < 60) : TakesFirst mode second (DateTime.two n) v := by
  have hRefuse : Refuses mode (ofSequence [char '6', digitIn 0 1]) (DateTime.two n ++ v) := by
    rw [two_eq (by omega)]
    exact .seq (refuses_char 6 (by decide) (by omega) (by omega))
  exact .right hRefuse (.left (takes_sixty h))

theorem refuses_offsetSeconds_nil : Refuses mode offsetSeconds [] :=
  .skip (refuses_code_nil _) (.seq (refuses_oneOf_nil _))

theorem takes_offsetSeconds (h : n < 60) : TakesFirst mode offsetSeconds (DateTime.two n) [] := by
  rw [two_eq (by omega)]
  have hFraction : Refuses mode fraction [] := .seq (refuses_code_nil _)
  exact .skip (refuses_colon (by omega)) (.cons (takes_digitIn (by omega) (by omega) (by omega))
    (.cons (takes_digit (by omega)) (.skip hFraction .empty)))

/-- What an offset of whole seconds is written as: the seconds stand there only if they are not zero. -/
def offsetText (sign : Char) (hours minutes seconds : Nat) : List Char :=
  sign :: DateTime.two hours ++ DateTime.two minutes ++ if seconds ≠ 0 then DateTime.two seconds else []

theorem takes_offset {sign : Char} (hSign : sign = '+' ∨ sign = '-') {hours minutes seconds : Nat}
    (hHours : hours < 100) (hMinutes : minutes < 60) (hSeconds : seconds < 60) :
    TakesFirst mode offset (offsetText sign hours minutes seconds) [] := by
  have hSet : mode.inSet sign false [.code '+'.toNat, .code '-'.toNat] = true := by
    rcases hSign with rfl | rfl <;> decide +kernel
  have hRest : TakesFirst mode (optional offsetSeconds) (if seconds ≠ 0 then DateTime.two seconds else []) [] := by
    split
    · exact .optional (takes_offsetSeconds hSeconds)
    · exact .skipped refuses_offsetSeconds_nil
  rw [offsetText, two_eq hHours, two_eq (by omega)]
  refine .left (.cons (.oneOf hSet) (.cons (takes_digit (by omega)) (.cons (takes_digit (by omega)) ?_)))
  refine .skip (refuses_colon (by omega)) (.cons (takes_digitIn (by omega) (by omega) (by omega)) ?_)
  exact .cons (takes_digit (by omega)) (.last hRest)

end Fields

/-! ## What the fields are read as -/

section Reading

variable {n : Nat}

theorem readInteger?_two (h : n < 100) : Text.readInteger? 10 (DateTime.two n) = some (.ofNat n) :=
  Text.readInteger?_padded (by decide) (by decide) h

theorem readInteger?_decimal (h : 1000 ≤ n) (h' : n ≤ 9999) :
    Text.readInteger? 10 (Text.decimal n) = some (.ofNat n) := by
  have hLess : n < Nat.pow 10 (3 + 1) := Nat.lt_succ_of_le h'
  rw [decimal_eq_padded h, Text.readInteger?_padded (by decide) (by decide) hLess]

theorem digitChar_ne_colon : ∀ d < 10, d.digitChar ≠ ':' := by decide

/-- The length of an offset of whole seconds, in microseconds. -/
def offsetLength (hours minutes seconds : Nat) : Int := ((hours * 60 + minutes) * 60 + seconds) * 1000000

theorem offsetOf?_offsetText {sign : Char} {hours minutes seconds : Nat}
    (hHours : hours < 100) (hMinutes : minutes < 60) (hSeconds : seconds < 60) :
    Reading.offsetOf? (offsetText sign hours minutes seconds) =
      some (if sign = '-' then -offsetLength hours minutes seconds else offsetLength hours minutes seconds) := by
  have hHour := readInteger?_two hHours
  have hMinute := readInteger?_two (n := minutes) (by omega)
  have hSecond := readInteger?_two (n := seconds) (by omega)
  have hZero : Text.readInteger? 10 ['0', '0', '0', '0', '0', '0'] = some 0 := by decide +kernel
  have hColon := digitChar_ne_colon (minutes / 10) (by omega)
  rw [two_eq (by omega)] at hHour hMinute hSecond
  unfold Reading.offsetOf? offsetText
  rw [two_eq hHours, two_eq (by omega)]
  by_cases hNone : seconds = 0
  · subst hNone
    simp [hHour, hMinute, hZero, hColon, offsetLength]
  · rw [if_pos hNone, two_eq (by omega)]
    simp [hHour, hMinute, hSecond, hZero, hColon, offsetLength]

end Reading

/-! ## Dates -/

section Dates

variable {t : DateTime} {o : Int}

theorem bounds_of_isValid (h : t.isValid = true) : t.year ≤ 9999 ∧ (1 ≤ t.month ∧ t.month ≤ 12) ∧
    (1 ≤ t.day ∧ t.day ≤ 31) ∧ t.hour < 24 ∧ t.minute < 60 ∧ t.second < 60 ∧
    ∀ o ∈ t.offset?, o.natAbs < microsecondsPerDay := by
  have hDays : daysInMonth t.year t.month ≤ 31 := by
    unfold daysInMonth
    split_ifs <;> decide
  simp only [DateTime.isValid, isDate, Bool.and_eq_true, decide_eq_true_eq, Option.all_eq_true] at h
  obtain ⟨⟨⟨⟨⟨⟨⟨⟨⟨⟨-, hYear⟩, hMonth⟩, hMonth'⟩, hDay⟩, hDay'⟩, hHour⟩, hMinute⟩, hSecond⟩, -⟩, hOffset⟩ := h
  exact ⟨hYear, ⟨hMonth, hMonth'⟩, ⟨hDay, Nat.le_trans hDay' hDays⟩, hHour, hMinute, hSecond,
    fun o ho => of_decide_eq_true (hOffset o ho)⟩

theorem write_offset (hOffset : t.offset? = some o) (hWhole : 1000000 ∣ o) :
    Directive.offset.write t = offsetText (if o < 0 then '-' else '+') (o.natAbs / 1000000 / 3600)
      (o.natAbs / 1000000 / 60 % 60) (o.natAbs / 1000000 % 60) := by
  have hMicros : o.natAbs % 1000000 = 0 := by omega
  simp only [Directive.write, hOffset, DateTime.offsetParts, hMicros]
  rfl

theorem offsetOf?_write (hOffset : t.offset? = some o) (hWhole : 1000000 ∣ o)
    (hLess : o.natAbs < microsecondsPerDay) : Reading.offsetOf? (Directive.offset.write t) = some o := by
  unfold microsecondsPerDay at hLess
  have hLength : offsetLength (o.natAbs / 1000000 / 3600) (o.natAbs / 1000000 / 60 % 60)
      (o.natAbs / 1000000 % 60) = o.natAbs := by
    unfold offsetLength
    omega
  rw [write_offset hOffset hWhole, offsetOf?_offsetText (by omega) (by omega) (by omega), hLength]
  obtain hNegative | hPositive := Int.lt_or_le o 0
  · rw [if_pos hNegative, if_pos rfl]
    exact congrArg some (by omega)
  · rw [if_neg (Int.not_lt.mpr hPositive), if_neg (by decide)]
    exact congrArg some (by omega)

theorem takes_write_offset (hOffset : t.offset? = some o) (hWhole : 1000000 ∣ o)
    (hLess : o.natAbs < microsecondsPerDay) : TakesFirst mode offset (Directive.offset.write t) [] := by
  unfold microsecondsPerDay at hLess
  rw [write_offset hOffset hWhole]
  refine takes_offset ?_ (by omega) (by omega) (by omega)
  split_ifs
  · exact Or.inr rfl
  · exact Or.inl rfl

theorem takesEach (hValid : t.isValid = true) (hYear : 1000 ≤ t.year) (hOffset : t.offset? = some o)
    (hWhole : 1000000 ∣ o) : TakesEach mode (parts t) := by
  obtain ⟨hYear', ⟨hMonth, hMonth'⟩, ⟨hDay, hDay'⟩, hHour, hMinute, hSecond, hLess⟩ := bounds_of_isValid hValid
  exact ⟨.group (takes_year hYear hYear') 1, takes_char '-', .group (takes_month hMonth hMonth') 2,
    takes_char '-', .group (takes_day hDay hDay') 3, takes_char 'T', .group (takes_hour hHour) 4,
    takes_char ':', .group (takes_minute hMinute) 5, takes_char ':', .group (takes_second hSecond) 6,
    .group (takes_write_offset hOffset hWhole (hLess o hOffset)) 7, trivial⟩

/-- Reading with a known match: the directives take in what their groups took. -/
theorem ofFormat?_eq {p : Compiled} (hNode : p.node = ofSequence nodes)
    (hCompile : Pattern.compile (formatPattern false (formatItems Converter.defaultFormat.toList)) = .ok p)
    {s : List Char} {marks : Marks}
    (hMatch : (⟨ofSequence nodes, mode, p.names⟩ : Compiled).firstMatch? s = some marks) {texts : List (List Char)}
    (hTexts : (List.range 7).mapM (fun i => marks.captured? s (i + 1)) = some texts) :
    DateTime.ofFormat? Converter.defaultFormat.toList s =
      .ok (((directives.zip texts).foldlM (fun r field =>
        Reading.add? ((directives.zip texts).lookup .halfDay) r field.1 field.2) {}).bind Reading.dateTime?) := by
  have hPattern : { p with mode := { ignoreCase := true } } = (⟨ofSequence nodes, mode, p.names⟩ : Compiled) := by
    rw [← hNode]
    rfl
  rw [formatItems_eq] at hCompile
  unfold DateTime.ofFormat?
  rw [formatItems_eq]
  simp only [List.any_cons, List.any_nil, Bool.or_self, Bool.false_eq_true, if_false, hCompile, hPattern, hMatch,
    List.filterMap_cons, List.filterMap_nil]
  rw [if_neg (by decide)]
  change Except.ok ((List.mapM (fun i => marks.captured? s (i + 1)) (List.range 7)).bind _) = _
  rw [hTexts]
  rfl

theorem foldlM_add? (hValid : t.isValid = true) (hYear : 1000 ≤ t.year) (hMicrosecond : t.microsecond = 0)
    (hOffset : t.offset? = some o) (hWhole : 1000000 ∣ o) :
    ((directives.zip (directives.map fun d => d.write t)).foldlM (fun r field =>
      Reading.add? none r field.1 field.2) {}).bind Reading.dateTime? = some t := by
  obtain ⟨hYear', ⟨-, hMonth⟩, ⟨-, hDay⟩, hHour, hMinute, hSecond, hLess⟩ := bounds_of_isValid hValid
  have hPositive : t.year ≠ 0 := by omega
  have hRead : (⟨t.year, t.month, t.day, t.hour, t.minute, t.second, 0, some o⟩ : DateTime) = t := by
    rw [← hMicrosecond, ← hOffset]
  have hYearRead : Text.readInteger? 10 (Directive.year.write t) = some (.ofNat t.year) :=
    readInteger?_decimal hYear hYear'
  have hMonthRead : Text.readInteger? 10 (Directive.month.write t) = some (.ofNat t.month) :=
    readInteger?_two (by omega)
  have hDayRead : Text.readInteger? 10 (Directive.day.write t) = some (.ofNat t.day) := readInteger?_two (by omega)
  have hHourRead : Text.readInteger? 10 (Directive.hour.write t) = some (.ofNat t.hour) :=
    readInteger?_two (by omega)
  have hMinuteRead : Text.readInteger? 10 (Directive.minute.write t) = some (.ofNat t.minute) :=
    readInteger?_two (by omega)
  have hSecondRead : Text.readInteger? 10 (Directive.second.write t) = some (.ofNat t.second) :=
    readInteger?_two (by omega)
  have hOffsetRead := offsetOf?_write hOffset hWhole (hLess o hOffset)
  simp [directives, Reading.add?, hYearRead, hMonthRead, hDayRead, hHourRead, hMinuteRead, hSecondRead,
    hOffsetRead, Reading.dateTime?, hPositive, hRead, hValid]

/-- What is written is read: every group takes what its directive wrote, and that is read as the same part. -/
theorem ofFormat?_format (hValid : t.isValid = true) (hYear : 1000 ≤ t.year) (hMicrosecond : t.microsecond = 0)
    (hOffset : t.offset? = some o) (hWhole : 1000000 ∣ o) :
    DateTime.ofFormat? Converter.defaultFormat.toList (t.format Converter.defaultFormat.toList) =
      .ok (some t) := by
  have hNodup : (ofSequence ((parts t).map Prod.fst)).indices.Nodup := by
    change (ofSequence nodes).indices.Nodup
    decide
  obtain ⟨p, hCompile, hNode⟩ := exists_compile
  obtain ⟨marks, hMatch, hCaptured⟩ := (takesEach hValid hYear hOffset hWhole).firstMatch? hNodup p.names
  have hTexts : (List.range 7).mapM (fun i => marks.captured? ((parts t).flatMap Prod.snd) (i + 1)) =
      some (directives.map fun d => d.write t) := by
    have hRange : List.range 7 = [0, 1, 2, 3, 4, 5, 6] := rfl
    simp [hRange, directives, hCaptured 1 year (Directive.year.write t) (by simp [parts]),
      hCaptured 2 month (Directive.month.write t) (by simp [parts]),
      hCaptured 3 day (Directive.day.write t) (by simp [parts]),
      hCaptured 4 hour (Directive.hour.write t) (by simp [parts]),
      hCaptured 5 minute (Directive.minute.write t) (by simp [parts]),
      hCaptured 6 second (Directive.second.write t) (by simp [parts]),
      hCaptured 7 offset (Directive.offset.write t) (by simp [parts])]
  rw [format_eq, ofFormat?_eq hNode hCompile hMatch hTexts]
  exact congrArg Except.ok (foldlM_add? hValid hYear hMicrosecond hOffset hWhole)

end Dates

end DefaultFormat

end Calendar

end UriRouting
