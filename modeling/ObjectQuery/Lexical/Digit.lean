namespace ObjectQuery

/-! Digits in bases up to sixteen and the numbers they spell. -/

namespace Digit

/-- The value of a digit, letters of either case standing for ten to fifteen. -/
def value? (char : Char) : Option Nat :=
  if '0' ≤ char ∧ char ≤ '9' then some (char.toNat - '0'.toNat)
  else if 'a' ≤ char ∧ char ≤ 'f' then some (char.toNat - 'a'.toNat + 10)
  else if 'A' ≤ char ∧ char ≤ 'F' then some (char.toNat - 'A'.toNat + 10)
  else none

def isOf (base : Nat) (char : Char) : Bool :=
  (value? char).any (· < base)

/-- The number that digits spell in a base, the highest first. -/
def number (base : Nat) (digits : List Char) : Nat :=
  digits.foldl (fun number char => number * base + (value? char).getD 0) 0

theorem foldl_eq_number (base start : Nat) (digits : List Char) :
    digits.foldl (fun number char => number * base + (value? char).getD 0) start =
      start * base.pow digits.length + number base digits := by
  induction digits generalizing start with
  | nil => simp [number]
  | cons digit rest induction =>
      have power : base.pow (rest.length + 1) = base.pow rest.length * base := rfl
      simp only [List.foldl_cons, List.length_cons, number, Nat.zero_mul, Nat.zero_add]
      rw [induction, induction (value? digit |>.getD 0), power, Nat.add_mul, Nat.mul_assoc,
        Nat.mul_comm base, Nat.add_assoc]

/-- Digits before others stand for that many more powers of the base. -/
theorem number_append (base : Nat) (left right : List Char) :
    number base (left ++ right) =
      number base left * base.pow right.length + number base right := by
  rw [number, List.foldl_append, foldl_eq_number, ← number]

/-- The number with the given size and sign, where 64 bits hold it. -/
def signed? (negative : Bool) (size : Nat) : Option Int64 :=
  let number : Int := if negative then -size else size
  if Int64.minValue.toInt ≤ number ∧ number ≤ Int64.maxValue.toInt then
    some (Int64.ofInt number)
  else
    none

end Digit

end ObjectQuery
