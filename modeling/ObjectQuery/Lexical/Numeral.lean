import ObjectQuery.Decimal.Value
import ObjectQuery.Lexical.Digit
import ObjectQuery.Lexical.Keyword

namespace ObjectQuery

/-!
Numerals: decimal integers, integers in base two, eight and sixteen, decimal
fractions, and the names of infinity and of what is not a number.
-/

/-- The number a numeral stands for. -/
inductive Number where
  | int (value : Int64)
  | float (value : Float)
  deriving DecidableEq, Repr

namespace Numeral

def isDigit (char : Char) : Bool :=
  Digit.isOf 10 char

/-- The sign before a numeral: whether it is a minus, and its length. -/
def sign (chars : List Char) : Bool × Nat :=
  match chars with
  | '-' :: _ => (true, 1)
  | '+' :: _ => (false, 1)
  | _ => (false, 0)

/-- Infinity, with or without a sign, and the name of what is not a number. -/
def special? (chars : List Char) : Option (Float × Nat) :=
  let infinity : Float := 1.0 / 0.0
  let named (keyword : Keyword) (value : Float) :=
    (keyword.length? chars).map (value, ·)
  named .positiveInfinity infinity <|> named .negativeInfinity (-infinity) <|>
    named .infinity infinity <|> named .notANumber (0.0 / 0.0)

def isAhead (chars : List Char) : Bool :=
  (match chars with
  | first :: rest =>
      isDigit first ||
        ((first == '+' || first == '-' || first == '.') &&
          rest.head?.any fun second => isDigit second || second == '.')
  | [] => false) ||
    (special? chars).isSome

def base? (char : Char) : Option Nat :=
  match char with
  | 'b' | 'B' => some 2
  | 'o' | 'O' => some 8
  | 'x' | 'X' => some 16
  | _ => none

/-- An integer with its base written before it, and its length. -/
def based? (chars : List Char) : Option (Option Number × Nat) :=
  let (negative, signLength) := sign chars
  match chars.drop signLength with
  | '0' :: letter :: rest => do
      let base ← base? letter
      let digits := rest.takeWhile (Digit.isOf 16)
      if digits.isEmpty then
        none
      else
        let value :=
          if digits.all (Digit.isOf base) then
            Digit.signed? negative (Digit.number base digits)
          else
            none
        return (value.map .int, signLength + 2 + digits.length)
  | _ => none

/-- A power of ten after a numeral, and its length; none is a power of zero. -/
def power (chars : List Char) : Int × Nat :=
  match chars with
  | 'e' :: rest | 'E' :: rest =>
      let (negative, signLength) := sign rest
      let digits := (rest.drop signLength).takeWhile isDigit
      if digits.isEmpty then
        (0, 0)
      else
        let size : Int := Digit.number 10 digits
        (if negative then -size else size, 1 + signLength + digits.length)
  | _ => (0, 0)

/-- A numeral with a point or a power of ten, and its length. -/
def fraction? (chars : List Char) : Option (Number × Nat) :=
  let (negative, signLength) := sign chars
  let unsigned := chars.drop signLength
  let whole := unsigned.takeWhile isDigit
  let pointed := unsigned.drop whole.length
  let result (part : List Char) (length : Nat) (power : Int × Nat) : Number × Nat :=
    let decimal : Decimal :=
      { negative
        digits := Digit.number 10 (whole ++ part)
        exponent := power.1 - part.length }
    (.float decimal.toFloat, length + power.2)
  match pointed with
  | '.' :: rest =>
      let part := rest.takeWhile isDigit
      if whole.isEmpty && part.isEmpty then
        none
      else
        some (result part (signLength + whole.length + 1 + part.length)
          (power (rest.drop part.length)))
  | _ =>
      let exponent := power pointed
      if whole.isEmpty || exponent.2 = 0 then
        none
      else
        some (result [] (signLength + whole.length) exponent)

def integer? (chars : List Char) : Option (Option Number × Nat) :=
  let (negative, signLength) := sign chars
  let digits := (chars.drop signLength).takeWhile isDigit
  if digits.isEmpty then
    none
  else
    some ((Digit.signed? negative (Digit.number 10 digits)).map .int, signLength + digits.length)

/-- An integer in any base or a fraction; the number is missing where 64 bits do not hold it. -/
def plain? (chars : List Char) : Option (Option Number × Nat) :=
  based? chars <|> (fraction? chars).map (fun (number, length) => (some number, length)) <|>
    integer? chars

end Numeral

def numeral (chars : List Char) : Lexeme Number :=
  match Numeral.special? chars with
  | some (value, length) => .found (.float value) length
  | none =>
      if Numeral.isAhead chars then
        match Numeral.plain? chars with
        | none => .absent
        | some (none, length) => .spoilt .badInteger 0 length
        | some (some number, length) =>
            if isWordEnd (chars.drop length) then
              .found number length
            else
              .spoilt .badNumber 0 length
      else
        .absent

end ObjectQuery
