/-! # The calendar

Dates of the proleptic Gregorian calendar, years one to 9999. -/

set_option autoImplicit false

namespace UriRouting.Calendar

def isLeap (year : Nat) : Bool := year % 4 == 0 && (year % 100 != 0 || year % 400 == 0)

def daysInMonth (year month : Nat) : Nat :=
  if month = 2 then (if isLeap year then 29 else 28)
  else if month ∈ [4, 6, 9, 11] then 30
  else 31

def daysInYear (year : Nat) : Nat := if isLeap year then 366 else 365

def daysBeforeMonth (year month : Nat) : Nat :=
  (List.range (month - 1)).foldl (fun days m => days + daysInMonth year (m + 1)) 0

def dayOfYear (year month day : Nat) : Nat := daysBeforeMonth year month + day

/-- Days since the first of January of the year one, which is day one. -/
def dayNumber (year month day : Nat) : Nat :=
  let y := year - 1
  365 * y + y / 4 - y / 100 + y / 400 + dayOfYear year month day

/-- Zero on Monday, six on Sunday. -/
def weekday (year month day : Nat) : Nat := (dayNumber year month day + 6) % 7

def isDate (year month day : Nat) : Bool :=
  1 ≤ year && year ≤ 9999 && 1 ≤ month && month ≤ 12 && 1 ≤ day && day ≤ daysInMonth year month

/-- The month and day of a day of the year, walking at most `fuel` months from `month` on. -/
def monthAndDay (year : Nat) : Nat → Nat → Nat → Nat × Nat
  | fuel + 1, month, day =>
    if daysInMonth year month < day then
      monthAndDay year fuel (month + 1) (day - daysInMonth year month)
    else (month, day)
  | 0, month, day => (month, day)

/-- The date of a day counted from the start of a year; it may fall into the next one. -/
def ofDayOfYear (year day : Nat) : Nat × Nat × Nat :=
  if daysInYear year < day then (year + 1, monthAndDay (year + 1) 11 1 (day - daysInYear year))
  else (year, monthAndDay year 11 1 day)

def monthNames : List String :=
  ["January", "February", "March", "April", "May", "June", "July", "August", "September",
    "October", "November", "December"]

def weekdayNames : List String :=
  ["Monday", "Tuesday", "Wednesday", "Thursday", "Friday", "Saturday", "Sunday"]

end UriRouting.Calendar
