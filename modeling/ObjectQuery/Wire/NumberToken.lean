import ObjectQuery.Lexical.Digit
import ObjectQuery.Wire.Place

namespace ObjectQuery

/-!
Numbers of a document. Integers of 64 bits, signed or not, are exact; other
numbers are read from as many digits as 64 bits hold, by one multiplication or
division with a power of ten.
-/

/-- What a number of a document stands for. -/
inductive NumberToken where
  | int (value : Int)
  | float (value : Float)
  | outOfRange
  deriving DecidableEq

namespace NumberToken

/-- The parts of a written number. -/
structure Parts where
  negative : Bool
  whole : List Char
  fraction : Option (List Char)
  power : Option Int

def isDigit (char : Char) : Bool :=
  Digit.isOf 10 char

def digits (place : Place) : Except Nat (List Char × Place) :=
  let digits := place.ahead.takeWhile isDigit
  if digits.isEmpty then
    .error place.reached
  else
    .ok (digits, place.advance digits.length)

/-- The digits before the point; a zero stands alone. -/
def whole (place : Place) : Except Nat (List Char × Place) :=
  match place.ahead with
  | '0' :: rest =>
      if rest.head?.any isDigit then .error place.line else .ok (['0'], place.advance 1)
  | _ => digits place

def fraction (place : Place) : Except Nat (Option (List Char) × Place) :=
  if place.ahead.head? = some '.' then
    (digits (place.advance 1)).map fun (digits, place) => (some digits, place)
  else
    .ok (none, place)

/-- A power of ten, if a letter for one comes next. -/
def power (place : Place) : Except Nat (Option Int × Place) :=
  let signed (negative : Bool) (place : Place) : Except Nat (Option Int × Place) :=
    (digits place).map fun (digits, place) =>
      let size : Int := Digit.number 10 digits
      (some (if negative then -size else size), place)
  let unmarked (place : Place) : Except Nat (Option Int × Place) :=
    match place.ahead with
    | '-' :: _ => signed true (place.advance 1)
    | '+' :: _ => signed false (place.advance 1)
    | _ => signed false place
  match place.ahead with
  | 'e' :: _ | 'E' :: _ => unmarked (place.advance 1)
  | _ => .ok (none, place)

def isAhead (place : Place) : Bool :=
  place.ahead.head?.any fun char => char == '-' || isDigit char

/-- The parts of the number that begins here, or the line on which it goes wrong. -/
def parts (place : Place) : Except Nat (Parts × Place) := do
  let negative := place.ahead.head? == some '-'
  let (whole, place) ← whole (if negative then place.advance 1 else place)
  let (fraction, place) ← fraction place
  let (power, place) ← power place
  return (⟨negative, whole, fraction, power⟩, place)

/-- The number with digit after digit appended while 64 bits hold it, and the digits left. -/
def absorb (number : Nat) : List Char → Nat × List Char
  | [] => (number, [])
  | digit :: rest =>
      let longer := number * 10 + Digit.number 10 [digit]
      if longer < UInt64.size then absorb longer rest else (number, digit :: rest)

def powerOfTen (exponent : Nat) : Float :=
  Float.ofScientific 1 false exponent

/-- A size times a power of ten, which is none where it would be infinite. -/
def scaled (size : Float) (exponent : Int) : Option Float :=
  if size == 0.0 then
    some size
  else if 308 < exponent then
    none
  else if 0 ≤ exponent then
    let product := size * powerOfTen exponent.toNat
    if product.isInf then none else some product
  else if -308 ≤ exponent then
    some (size / powerOfTen exponent.natAbs)
  else if -616 ≤ exponent then
    some (size / powerOfTen 308 / powerOfTen (exponent.natAbs - 308))
  else
    some 0.0

def ofParts (parts : Parts) : NumberToken :=
  let (size, left) := absorb 0 parts.whole
  let float : NumberToken :=
    let fraction := parts.fraction.getD []
    let (size, unread) := absorb size fraction
    let read := fraction.length - unread.length
    let exponent : Int := parts.power.getD 0 + left.length - read
    match scaled size.toFloat exponent with
    | some value => .float (if parts.negative then -value else value)
    | none => .outOfRange
  if parts.fraction.isNone && parts.power.isNone && left.isEmpty then
    if !parts.negative then .int size
    else if size = 0 ∨ -(size : Int) < Int64.minValue.toInt then float
    else .int (-size)
  else
    float

/-- The number that begins here, or the line on which it goes wrong. -/
def read (place : Place) : Except Nat (NumberToken × Place) :=
  (parts place).map fun (parts, place) => (ofParts parts, place)

end NumberToken

end ObjectQuery
