namespace ObjectQuery

/-! Days of the Gregorian calendar and instants of universal time. -/

/-- A day by its calendar fields. -/
structure CivilDate where
  year : Int
  month : Nat
  day : Nat
  deriving DecidableEq, Repr

namespace CivilDate

def isLeapYear (year : Int) : Bool :=
  year % 4 == 0 && (year % 100 != 0 || year % 400 == 0)

def daysInMonth (year : Int) (month : Nat) : Nat :=
  if month = 2 then
    if isLeapYear year then 29 else 28
  else if month = 4 ∨ month = 6 ∨ month = 9 ∨ month = 11 then
    30
  else
    31

def isValid (date : CivilDate) : Bool :=
  1 ≤ date.month && date.month ≤ 12 && 1 ≤ date.day &&
    date.day ≤ daysInMonth date.year date.month

/--
The number of days from 1970-01-01. Years are counted from March, so that the
day a leap year adds comes last.
-/
def dayNumber (date : CivilDate) : Int :=
  let year := if date.month ≤ 2 then date.year - 1 else date.year
  let month : Int := if date.month ≤ 2 then date.month + 9 else date.month - 3
  let cycle := year / 400
  let yearOfCycle := year % 400
  let dayOfYear := (153 * month + 2) / 5 + date.day - 1
  cycle * 146097 + yearOfCycle * 365 + yearOfCycle / 4 - yearOfCycle / 100 + dayOfYear - 719468

/-- The day that lies `number` days after 1970-01-01. -/
def ofDayNumber (number : Int) : CivilDate :=
  let shifted := number + 719468
  let cycle := shifted / 146097
  let dayOfCycle := shifted % 146097
  let yearOfCycle :=
    (dayOfCycle - dayOfCycle / 1460 + dayOfCycle / 36524 - dayOfCycle / 146096) / 365
  let dayOfYear := dayOfCycle - (365 * yearOfCycle + yearOfCycle / 4 - yearOfCycle / 100)
  let month := (5 * dayOfYear + 2) / 153
  let year := yearOfCycle + cycle * 400
  { year := if month < 10 then year else year + 1
    month := (if month < 10 then month + 3 else month - 9).toNat
    day := (dayOfYear - (153 * month + 2) / 5 + 1).toNat }

end CivilDate

/-- A time of day. -/
structure ClockTime where
  hour : Nat
  minute : Nat
  second : Nat
  deriving DecidableEq, Repr

namespace ClockTime

def isValid (time : ClockTime) : Bool :=
  time.hour < 24 && time.minute < 60 && time.second < 60

def secondOfDay (time : ClockTime) : Nat :=
  time.hour * 3600 + time.minute * 60 + time.second

end ClockTime

/--
An instant: whole seconds since 1970-01-01T00:00:00Z and nanoseconds after them.
A thousand million nanoseconds and more belong to a leap second.
-/
structure Instant where
  second : Int
  nano : Nat
  deriving DecidableEq, Repr

namespace Instant

/-- The first instant of the year 1970. -/
def epoch : Instant := ⟨0, 0⟩

/-- The instant at which clocks of universal time show the date and the time. -/
def ofCivil (date : CivilDate) (time : ClockTime) (nano : Nat) : Instant :=
  ⟨date.dayNumber * 86400 + time.secondOfDay, nano⟩

def addSeconds (instant : Instant) (seconds : Int) : Instant :=
  { instant with second := instant.second + seconds }

def date (instant : Instant) : CivilDate :=
  CivilDate.ofDayNumber (instant.second / 86400)

/-- The digits of `number`, with zeros before them up to `width` digits. -/
def digits (width number : Nat) : String :=
  let text := toString number
  String.ofList (List.replicate (width - text.length) '0') ++ text

/-- Years of four digits are written plainly, all others with a sign. -/
def yearText (year : Int) : String :=
  if 0 ≤ year ∧ year ≤ 9999 then
    digits 4 year.toNat
  else
    (if year < 0 then "-" else "+") ++ digits 4 year.natAbs

/-- A fraction of a second in as few groups of three digits as show all of it. -/
def fractionText (nano : Nat) : String :=
  if nano = 0 then ""
  else if nano % 1000000 = 0 then "." ++ digits 3 (nano / 1000000)
  else if nano % 1000 = 0 then "." ++ digits 6 (nano / 1000)
  else "." ++ digits 9 nano

/-- The calendar day, as in `2020-01-31`. -/
def renderDate (instant : Instant) : String :=
  let date := instant.date
  yearText date.year ++ "-" ++ digits 2 date.month ++ "-" ++ digits 2 date.day

/-- The time of day, as in `23:59:59.500Z`. -/
def renderTime (instant : Instant) : String :=
  let second := (instant.second % 86400).toNat
  digits 2 (second / 3600) ++ ":" ++ digits 2 (second / 60 % 60) ++ ":" ++
    digits 2 (second % 60 + instant.nano / 1000000000) ++
    fractionText (instant.nano % 1000000000) ++ "Z"

/-- The instant in full, as in `2020-01-31T23:59:59.500Z`. -/
def render (instant : Instant) : String :=
  instant.renderDate ++ "T" ++ instant.renderTime

end Instant

end ObjectQuery
