/-!
# Points in time by the calendar

A timestamp is a date and a time of day in universal time with nanoseconds, in the proleptic Gregorian
calendar with a year zero. Second 60 stands for a leap second.
-/

namespace DirectoryGateway.Time

structure Timestamp where
  year : Int
  month : Nat
  day : Nat
  hour : Nat
  minute : Nat
  second : Nat
  nanos : Nat
  deriving Repr, DecidableEq

/-! ### Dates -/

def isLeapYear (year : Int) : Bool :=
  year % 4 == 0 && (year % 100 != 0 || year % 400 == 0)

def monthLength (year : Int) (month : Nat) : Nat :=
  if month = 2 then (if isLeapYear year then 29 else 28)
  else if month = 4 ∨ month = 6 ∨ month = 9 ∨ month = 11 then 30
  else 31

/-- The years that a timestamp may have. -/
def isYear (year : Int) : Bool :=
  -262143 ≤ year && year ≤ 262142

/-- Whether all parts are in their ranges. -/
def Timestamp.valid (t : Timestamp) : Bool :=
  isYear t.year && 1 ≤ t.month && t.month ≤ 12 && 1 ≤ t.day && t.day ≤ monthLength t.year t.month &&
    t.hour ≤ 23 && t.minute ≤ 59 && t.second ≤ 60 && t.nanos < 1000000000

def Timestamp.dayBefore (t : Timestamp) : Timestamp :=
  if 1 < t.day then { t with day := t.day - 1 }
  else if 1 < t.month then { t with month := t.month - 1, day := monthLength t.year (t.month - 1) }
  else { t with year := t.year - 1, month := 12, day := 31 }

def Timestamp.dayAfter (t : Timestamp) : Timestamp :=
  if t.day < monthLength t.year t.month then { t with day := t.day + 1 }
  else if t.month < 12 then { t with month := t.month + 1, day := 1 }
  else { t with year := t.year + 1, month := 1, day := 1 }

/-- The time less than a day of minutes earlier (or later, if negative). -/
def Timestamp.earlierBy (t : Timestamp) (minutes : Int) : Timestamp :=
  -- Offsets are whole minutes, so a second 60 stays one.
  let total : Int := t.hour * 60 + t.minute - minutes
  let clock := (total % 1440).toNat
  let moved := if total < 0 then t.dayBefore else if 1440 ≤ total then t.dayAfter else t
  { moved with hour := clock / 60, minute := clock % 60 }

/-! ### Days since the epoch -/

/-- The date a number of days after 1970-01-01, counted in eras of 400 years from 0000-03-01. -/
def dateOfDays (days : Int) : Int × Nat × Nat :=
  -- Years begin in March, so that a leap day is the last day of one.
  let z := days + 719468
  let era := z.fdiv 146097
  let doe := (z - era * 146097).toNat
  let yoe := (doe - doe / 1460 + doe / 36524 - doe / 146096) / 365
  let doy := doe - (365 * yoe + yoe / 4 - yoe / 100)
  -- From March on, each five months have 153 days.
  let mp := (5 * doy + 2) / 153
  let day := doy - (153 * mp + 2) / 5 + 1
  let month := if mp < 10 then mp + 3 else mp - 9
  let year : Int := (yoe : Int) + era * 400 + if month ≤ 2 then 1 else 0
  (year, month, day)

/-- The time a number of seconds after the epoch, if its year is in range. -/
def Timestamp.ofEpoch? (seconds : Int) (nanos : Nat) : Option Timestamp :=
  let days := seconds.fdiv 86400
  let clock := (seconds - days * 86400).toNat
  let (year, month, day) := dateOfDays days
  if isYear year ∧ nanos < 1000000000 then
    some ⟨year, month, day, clock / 3600, clock / 60 % 60, clock % 60, nanos⟩
  else none

end DirectoryGateway.Time
