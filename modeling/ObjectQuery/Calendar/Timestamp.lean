import ObjectQuery.Calendar.Instant
import ObjectQuery.Lexical.Digit
import ObjectQuery.Text.Character

namespace ObjectQuery

/-!
Instants in writing. The strict form has a fixed width up to the seconds; the
loose form allows blanks between its parts and fields of fewer digits.
-/

/-- What is wrong with a written instant. -/
inductive TimestampFault where
  | tooShort
  | badChar
  | outOfRange
  | trailingText
  | impossible
  deriving DecidableEq, Repr

namespace TimestampFault

def message : TimestampFault → String
  | tooShort => "premature end of input"
  | badChar => "input contains invalid characters"
  | outOfRange => "input is out of range"
  | trailingText => "trailing input"
  | impossible => "no possible date and time matching input"

end TimestampFault

/-- A reader of written instants, which takes characters off the head of a list. -/
abbrev Timestamp := StateT (List Char) (Except TimestampFault)

namespace Timestamp

def isDigit (char : Char) : Bool :=
  Digit.isOf 10 char

def oneOf (chars : List Char) : Timestamp Char := do
  match ← get with
  | [] => throw .tooShort
  | char :: rest =>
      if chars.contains char then
        set rest
        return char
      else
        throw .badChar

/-- Exactly `count` digits. -/
def digits : Nat → Timestamp (List Char)
  | 0 => return []
  | count + 1 => do
      match ← get with
      | [] => throw .tooShort
      | char :: rest =>
          if isDigit char then
            set rest
            return char :: (← digits count)
          else
            throw .badChar

/-- A number of exactly `count` digits. -/
def fixed (count : Nat) : Timestamp Nat := do
  return Digit.number 10 (← digits count)

/-- A number of at least one digit, no more than `most` of them read where that is given. -/
def number (most : Option Nat) : Timestamp Nat := do
  let text ← get
  let digits := (match most with
    | some most => text.take most
    | none => text).takeWhile isDigit
  if text.isEmpty then
    throw .tooShort
  else if digits.isEmpty then
    throw .badChar
  else
    set (text.drop digits.length)
    return Digit.number 10 digits

def pair : Timestamp (Char × Char) := do
  match ← get with
  | [] => throw .tooShort
  | [char] => if char.utf8Size < 2 then throw .tooShort else throw .badChar
  | first :: second :: rest =>
      if isDigit first && isDigit second then
        set rest
        return (first, second)
      else
        throw .badChar

def skipSpace : Timestamp Unit :=
  modify (·.dropWhile isWhiteSpace)

/-- Nanoseconds after a point, where one comes next; digits after the ninth are passed over. -/
def fraction : Timestamp Nat := do
  match ← get with
  | '.' :: rest =>
      let digits := rest.takeWhile isDigit
      if rest.isEmpty then
        throw .tooShort
      else if digits.isEmpty then
        throw .badChar
      else
        set (rest.drop digits.length)
        return Digit.number 10 (digits.take 9 ++ List.replicate (9 - digits.length) '0')
  | _ => return 0

/-- A zone in seconds ahead of universal time, `separator` standing between hours and minutes. -/
def zone (separator : Timestamp Unit) : Timestamp Int := do
  let text ← get
  if text.head? == some 'Z' || text.head? == some 'z' then
    set text.tail
    return 0
  else
    let sign ← oneOf ['+', '-', '\u2212']
    let (first, second) ← pair
    let hours := Digit.number 10 [first, second]
    separator
    let (first, second) ← pair
    if '6' ≤ first then throw .outOfRange
    let seconds : Int := hours * 3600 + Digit.number 10 [first, second] * 60
    return if sign = '+' then seconds else -seconds

/-- Seconds and nanoseconds, a leap second being a longer last second. -/
def leapSecond (second nano : Nat) : Nat × Nat :=
  if second = 60 then (59, nano + 1000000000) else (second, nano)

def isZone (zone : Int) : Bool :=
  zone.natAbs < 86400

/-- The strict form: `2020-01-31T23:59:59.5+01:00`. -/
def strict : Timestamp Instant := do
  if byteCount (← get) < 19 then throw .tooShort
  let year ← fixed 4
  let _ ← oneOf ['-']
  let month ← fixed 2
  let _ ← oneOf ['-']
  let day ← fixed 2
  let date : CivilDate := ⟨year, month, day⟩
  unless date.isValid do throw .outOfRange
  let _ ← oneOf ['T', 't', ' ']
  let hour ← fixed 2
  let _ ← oneOf [':']
  let minute ← fixed 2
  let _ ← oneOf [':']
  let (second, nano) := leapSecond (← fixed 2) (← fraction)
  let time : ClockTime := ⟨hour, minute, second⟩
  unless time.isValid do throw .outOfRange
  let zone ← zone (do let _ ← oneOf [':'])
  unless (← get).isEmpty do throw .trailingText
  unless isZone zone do throw .outOfRange
  return (Instant.ofCivil date time nano).addSeconds (-zone)

/-- A year of up to four digits, or of any number of them after a sign. -/
def looseYear : Timestamp Int := do
  skipSpace
  let text ← get
  let year : Int ←
    if text.head? == some '-' then
      set text.tail
      pure (-(← number none : Int))
    else if text.head? == some '+' then
      set text.tail
      pure (← number none : Int)
    else
      pure (← number (some 4) : Int)
  if year < Int32.minValue.toInt ∨ Int32.maxValue.toInt < year then
    throw .outOfRange
  return year

def looseField (least most : Nat) : Timestamp Nat := do
  skipSpace
  let value ← number (some 2)
  if value < least ∨ most < value then
    throw .outOfRange
  return value

def looseMark (mark : Char) : Timestamp Unit := do
  skipSpace
  let _ ← oneOf [mark]

def years : Int × Int :=
  (-262143, 262142)

def isYear (year : Int) : Bool :=
  years.1 ≤ year && year ≤ years.2

/-- A zone in the loose form, which may also be named `UTC`. -/
def looseZone : Timestamp Int := do
  let text ← get
  if (text.take 3).map Char.toUpper == "UTC".toList then
    set (text.drop 3)
    return 0
  else
    zone (modify (·.dropWhile fun char => char == ':' || isWhiteSpace char))

/-- The loose form: `2020-1-31 23 : 59 : 59 UTC`. -/
def loose : Timestamp Instant := do
  let year ← looseYear
  looseMark '-'
  let month ← looseField 1 12
  looseMark '-'
  let day ← looseField 1 31
  let _ ← oneOf ['T', 't', ' ']
  let hour ← looseField 0 23
  looseMark ':'
  let minute ← looseField 0 59
  looseMark ':'
  let (second, nano) := leapSecond (← looseField 0 60) (← fraction)
  skipSpace
  let zone ← looseZone
  skipSpace
  unless (← get).isEmpty do throw .trailingText
  let date : CivilDate := ⟨year, month, day⟩
  unless isYear year && date.isValid && isZone zone do throw .outOfRange
  let instant := (Instant.ofCivil date ⟨hour, minute, second⟩ nano).addSeconds (-zone)
  unless isYear instant.date.year do throw .impossible
  return instant

def read (form : Timestamp Instant) (text : String) : Except TimestampFault Instant :=
  (form text.toList).map (·.1)

end Timestamp

end ObjectQuery
