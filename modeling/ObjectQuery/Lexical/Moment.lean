import ObjectQuery.Calendar.Instant
import ObjectQuery.Lexical.Numeral

namespace ObjectQuery

/-! Dates, times of day, and dates with a time and a zone, brought to universal time. -/

/-- A date, a date with a time, or a time on the first day of 1970. -/
inductive Moment where
  | date (instant : Instant)
  | dateTime (instant : Instant)
  | time (instant : Instant)
  deriving DecidableEq, Repr

namespace Moment

/-- A reader of fixed forms, which takes characters off the head of a list. -/
abbrev Form := StateT (List Char) Option

namespace Form

def oneOf (chars : List Char) : Form Char := do
  match ← get with
  | char :: rest =>
      if chars.contains char then
        set rest
        return char
      else
        failure
  | [] => failure

/-- A number of exactly `count` digits. -/
def digits (count : Nat) : Form Nat := do
  let text ← get
  let digits := text.take count
  if digits.length = count && digits.all Numeral.isDigit then
    set (text.drop count)
    return Digit.number 10 digits
  else
    failure

/-- Nanoseconds written as one to nine digits after a point, zero where there are none. -/
def nano : Form Nat := do
  match ← get with
  | '.' :: rest =>
      let digits := (rest.take 9).takeWhile Numeral.isDigit
      if digits.isEmpty then
        return 0
      else
        set (rest.drop digits.length)
        return Digit.number 10 (digits ++ List.replicate (9 - digits.length) '0')
  | _ => return 0

def date : Form CivilDate := do
  let year ← digits 4
  let _ ← oneOf ['-']
  let month ← digits 2
  let _ ← oneOf ['-']
  let day ← digits 2
  return ⟨year, month, day⟩

def clock : Form ClockTime := do
  let hour ← digits 2
  let _ ← oneOf [':']
  let minute ← digits 2
  let _ ← oneOf [':']
  let second ← digits 2
  return ⟨hour, minute, second⟩

def optional (chars : List Char) : Form Unit := do
  match ← get with
  | char :: rest => if chars.contains char then set rest
  | [] => return ()

/-- A zone: its distance from universal time in minutes, missing where no clock shows it. -/
def zone : Form (Option Int) := do
  let mark ← oneOf ['Z', 'z', '+', '-']
  if mark = 'Z' ∨ mark = 'z' then
    return some 0
  else
    let hours ← digits 2
    optional [':']
    let minutes ← digits 2
    if hours > 23 ∨ minutes > 59 then
      return none
    else
      let distance : Int := hours * 60 + minutes
      return some (if mark = '-' then -distance else distance)

end Form

/-- The instant of a date and a time, where the calendar and the clock have them. -/
def instant? (date : CivilDate) (time : ClockTime) (nano : Nat) : Option Instant :=
  if date.isValid && time.isValid then
    some (.ofCivil date time nano)
  else
    none

/-- A date, a time and a zone. The moment is missing where one of them is out of range. -/
def dateTimeForm : Form (Option Moment) := do
  let date ← Form.date
  let _ ← Form.oneOf ['T', 't']
  let time ← Form.clock
  let nano ← Form.nano
  let zone ← Form.zone
  return do
    let instant ← instant? date time nano
    let distance ← zone
    return .dateTime (instant.addSeconds (-60 * distance))

def dateForm : Form (Option Moment) := do
  let date ← Form.date
  return (instant? date ⟨0, 0, 0⟩ 0).map .date

def timeForm : Form (Option Moment) := do
  let time ← Form.clock
  let nano ← Form.nano
  Form.optional ['Z', 'z']
  return (instant? ⟨1970, 1, 1⟩ time nano).map .time

/-- The first of the forms that fits, and what follows it. -/
def read? (chars : List Char) : Option (Option Moment × List Char) :=
  dateTimeForm chars <|> dateForm chars <|> timeForm chars

end Moment

/--
A date, a time, or both. A word character after it makes it something else;
a date or a time that does not exist is a fault.
-/
def moment (chars : List Char) : Lexeme Moment :=
  match Moment.read? chars with
  | none => .absent
  | some (moment, rest) =>
      let length := chars.length - rest.length
      if isWordEnd rest then
        match moment with
        | some moment => .found moment length
        | none => .spoilt .badMoment 0 length
      else
        .absent

end ObjectQuery
