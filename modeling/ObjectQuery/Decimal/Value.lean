namespace ObjectQuery

/-! Decimal numerals as values of the binary floating-point format. -/

/-- The number `digits` times ten to the power `exponent`, with a sign. -/
structure Decimal where
  negative : Bool
  digits : Nat
  exponent : Int
  deriving DecidableEq, Repr

namespace Decimal

def digitCount (number : Nat) : Nat :=
  (toString number).length

/--
The nearest floating-point number. Decimals far outside the range of the format
are infinite or zero, which spares their powers of ten.
-/
def toFloat (decimal : Decimal) : Float :=
  let size : Float :=
    let magnitude := decimal.exponent + digitCount decimal.digits
    if decimal.digits = 0 ∨ magnitude < -400 then
      0.0
    else if magnitude > 400 then
      1.0 / 0.0
    else
      Float.ofScientific decimal.digits (decimal.exponent < 0) decimal.exponent.natAbs
  if decimal.negative then -size else size

end Decimal

end ObjectQuery
