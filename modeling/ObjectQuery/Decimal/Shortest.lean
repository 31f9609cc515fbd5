import ObjectQuery.Decimal.Value

namespace ObjectQuery

/-!
The shortest decimal that reads back as a given floating-point number: of the
decimals with the fewest digits in the interval that rounds to the number, the
nearest one.
-/

/-- The size of a finite number: `significand` times two to the power `exponent`. -/
structure BinarySize where
  significand : Nat
  exponent : Int
  /-- The next smaller number is nearer than the next larger one. -/
  lopsided : Bool
  deriving DecidableEq, Repr

/-- A number by its sign and its size. -/
inductive FloatView where
  | nan
  | infinity (negative : Bool)
  | finite (negative : Bool) (size : BinarySize)
  deriving DecidableEq, Repr

namespace FloatView

/-- The highest of the 53 bits of a significand, which normal numbers leave unwritten. -/
def leadingBit : Nat := 0x10000000000000

/-- The parts of a number in the binary format with 64 bits. -/
def ofFloat (value : Float) : FloatView :=
  let bits := value.toBits.toNat
  let negative := bits >>> 63 == 1
  let exponent := (bits >>> 52) % 2048
  let fraction := bits % leadingBit
  if exponent = 2047 then
    if fraction = 0 then infinity negative else nan
  else if exponent = 0 then
    finite negative ⟨fraction, -1074, false⟩
  else
    finite negative
      ⟨leadingBit + fraction, (exponent : Int) - 1075, fraction == 0 && exponent != 1⟩

end FloatView

/-- Which of two decimals is taken where both are equally near. -/
inductive TieRule where
  | toEven
  | up
  deriving DecidableEq, Repr

namespace BinarySize

/-- The rational `significand * base ^ exponent` as a pair of natural numbers. -/
def ratio (significand base : Nat) (exponent : Int) : Nat × Nat :=
  if 0 ≤ exponent then
    (significand * Nat.pow base exponent.toNat, 1)
  else
    (significand, Nat.pow base exponent.natAbs)

/-- Four times the size, its lower and its upper bound, all over one denominator. -/
def bounds (size : BinarySize) : Nat × Nat × Nat × Nat :=
  let (scale, denominator) := ratio 1 2 (size.exponent - 2)
  let middle := 4 * size.significand * scale
  (middle - (if size.lopsided then 1 else 2) * scale, middle, middle + 2 * scale, denominator)

/-- The greatest power of ten not above `numerator / denominator`. -/
def decimalExponent (numerator denominator : Nat) : Int :=
  let estimate := (((numerator.log2 : Int) - denominator.log2) * 30103) / 100000
  let fits (exponent : Int) : Bool :=
    let (power, unit) := ratio 1 10 exponent
    power * denominator ≤ numerator * unit
  ([estimate + 2, estimate + 1, estimate, estimate - 1].find? fits).getD (estimate - 2)

/-- The decimal on the grid of `10 ^ exponent` that the interval holds, if it holds one. -/
def onGrid? (size : BinarySize) (tie : TieRule) (exponent : Int) : Option Nat :=
  let (low, middle, high, denominator) := size.bounds
  let (power, unit) := ratio 1 10 exponent
  let step := power * denominator
  let below := middle * unit / step
  let inside (digits : Nat) : Bool :=
    let place := digits * step
    if size.significand % 2 = 0 then
      low * unit ≤ place && place ≤ high * unit
    else
      low * unit < place && place < high * unit
  let fromBelow := middle * unit - below * step
  let toAbove := (below + 1) * step - middle * unit
  match inside below, inside (below + 1) with
  | false, false => none
  | true, false => some below
  | false, true => some (below + 1)
  | true, true =>
      if fromBelow < toAbove then some below
      else if toAbove < fromBelow then some (below + 1)
      else if tie = .toEven ∧ below % 2 = 0 then some below
      else some (below + 1)

/-- The first hit on grids of `count` digits and more, seventeen at most. -/
def search (size : BinarySize) (tie : TieRule) (exponent : Int) : Nat → Nat × Int
  | 0 => ((size.onGrid? tie (exponent - 16)).getD 0, exponent - 16)
  | more + 1 =>
      let grid := exponent - (16 - (more + 1 : Nat))
      match size.onGrid? tie grid with
      | some digits => (digits, grid)
      | none => search size tie exponent more

/-- Digits without zeros at their end, and the power of ten they count. -/
def trimmed : Nat → Nat → Int → Nat × Int
  | 0, digits, exponent => (digits, exponent)
  | fuel + 1, digits, exponent =>
      if digits ≠ 0 ∧ digits % 10 = 0 then
        trimmed fuel (digits / 10) (exponent + 1)
      else
        (digits, exponent)

/-- The shortest decimal of a size: its digits and the power of ten they count. -/
def shortest (size : BinarySize) (tie : TieRule) : Nat × Int :=
  let (_, middle, _, denominator) := size.bounds
  let (digits, exponent) := size.search tie (decimalExponent middle denominator) 16
  trimmed 20 digits exponent

end BinarySize

end ObjectQuery
