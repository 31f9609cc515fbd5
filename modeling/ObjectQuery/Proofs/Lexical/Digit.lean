import Mathlib.Algebra.Group.Nat.Defs
import ObjectQuery.Calendar.Instant
import ObjectQuery.Lexical.Digit

namespace ObjectQuery

/-! The decimal digits of a number, which spell it again. -/

/-- A run of characters stops before something that does not go on with it. -/
theorem takeWhile_append_of_head? {test : Char → Bool} (text : List Char) {rest : List Char}
    (stops : rest.head?.any test = false) :
    (text ++ rest).takeWhile test = text.takeWhile test := by
  induction text with
  | nil =>
      cases rest with
      | nil => rfl
      | cons first others => simp_all
  | cons first others induction =>
      simp only [List.cons_append, List.takeWhile_cons, induction]

namespace Digit

/-- Digits before something that begins with none stop where they stop on their own. -/
theorem takeWhile_append {base : Nat} (text : List Char) {rest : List Char}
    (stops : rest.head?.any (isOf base) = false) :
    (text ++ rest).takeWhile (isOf base) = text.takeWhile (isOf base) :=
  takeWhile_append_of_head? text stops

theorem isOf_ten_iff (char : Char) :
    isOf 10 char = true ↔ 48 ≤ char.toNat ∧ char.toNat ≤ 57 := by
  have lower (other : Char) : other ≤ char ↔ other.toNat ≤ char.toNat := Iff.rfl
  have upper (other : Char) : char ≤ other ↔ char.toNat ≤ other.toNat := Iff.rfl
  have codes : '0'.toNat = 48 ∧ '9'.toNat = 57 ∧ 'a'.toNat = 97 ∧ 'A'.toNat = 65 := by decide
  simp only [isOf, value?, lower, upper]
  split
  · simp only [Option.any_some, decide_eq_true_eq]
    omega
  · split
    · simp only [Option.any_some, decide_eq_true_eq]
      omega
    · split
      · simp only [Option.any_some, decide_eq_true_eq]
        omega
      · simp only [Option.any_none, Bool.false_eq_true, false_iff]
        omega

theorem value?_digitChar {digit : Nat} (small : digit < 10) :
    value? digit.digitChar = some digit := by
  have spelled : ∀ digit : Fin 10, value? digit.val.digitChar = some digit.val := by decide
  exact spelled ⟨digit, small⟩

theorem isOf_digitChar {digit : Nat} (small : digit < 10) : isOf 10 digit.digitChar = true := by
  simp [isOf, value?_digitChar small, small]

theorem number_toDigits (number : Nat) : Digit.number 10 (Nat.toDigits 10 number) = number := by
  induction number using Nat.strongRecOn with
  | ind number induction =>
      rw [Nat.toDigits_eq_if (by decide)]
      split
      · rename_i small
        simp [Digit.number, value?_digitChar small]
      · have last := value?_digitChar (Nat.mod_lt number (by decide : 10 > 0))
        rw [number_append, induction _ (by omega)]
        simp only [Digit.number, List.foldl_cons, List.foldl_nil, last, List.length_cons,
          List.length_nil, Option.getD_some, Nat.zero_mul, Nat.zero_add, Nat.pow_eq, Nat.pow_one]
        omega

theorem all_toDigits (number : Nat) : (Nat.toDigits 10 number).all (isOf 10) = true := by
  induction number using Nat.strongRecOn with
  | ind number induction =>
      rw [Nat.toDigits_eq_if (by decide)]
      split
      · rename_i small
        simp [isOf_digitChar small]
      · simp [induction (number / 10) (by omega), isOf_digitChar (Nat.mod_lt number _)]

theorem toDigits_eq_zero_cons {number : Nat} {rest : List Char}
    (digits : Nat.toDigits 10 number = '0' :: rest) : number = 0 := by
  induction number using Nat.strongRecOn generalizing rest with
  | ind number induction =>
      rw [Nat.toDigits_eq_if (by decide)] at digits
      split at digits
      · simpa using (List.cons.inj digits).1
      · obtain ⟨first, others, front⟩ := List.exists_cons_of_ne_nil
          (Nat.toDigits_ne_nil (n := number / 10) (b := 10))
        rw [front, List.cons_append] at digits
        rw [(List.cons.inj digits).1] at front
        have := induction (number / 10) (by omega) front
        omega

theorem number_lt {digits : List Char} (spelled : ∀ char ∈ digits, isOf 10 char = true) :
    Digit.number 10 digits < 10 ^ digits.length := by
  induction digits with
  | nil => decide
  | cons first others induction =>
      obtain ⟨isFirst, areOthers⟩ := List.forall_mem_cons.1 spelled
      have small : Digit.number 10 [first] < 10 := by
        cases found : value? first with
        | none => simp [isOf, found] at isFirst
        | some value => simpa [isOf, found, Digit.number] using isFirst
      have later := induction areOthers
      rw [← List.singleton_append, number_append, List.length_append, List.length_singleton]
      simp only [Nat.pow_eq, Nat.pow_add, Nat.pow_one]
      calc Digit.number 10 [first] * 10 ^ others.length + Digit.number 10 others
          < Digit.number 10 [first] * 10 ^ others.length + 10 ^ others.length := by omega
        _ = (Digit.number 10 [first] + 1) * 10 ^ others.length := by rw [Nat.add_mul, Nat.one_mul]
        _ ≤ 10 * 10 ^ others.length := Nat.mul_le_mul_right _ small

theorem number_zeros (count : Nat) : Digit.number 10 (List.replicate count '0') = 0 := by
  induction count with
  | zero => rfl
  | succ count induction =>
      have zero : Digit.number 10 ['0'] = 0 := by decide
      rw [List.replicate_succ', number_append, induction, zero, Nat.zero_mul]

theorem number_zeros_append (count : Nat) (digits : List Char) :
    Digit.number 10 (List.replicate count '0' ++ digits) = Digit.number 10 digits := by
  rw [number_append, number_zeros, Nat.zero_mul, Nat.zero_add]

/-- Zeros after the digits of a number count as powers of ten. -/
theorem number_append_zeros (digits : List Char) (count : Nat) :
    Digit.number 10 (digits ++ List.replicate count '0') =
      Digit.number 10 digits * 10 ^ count := by
  rw [number_append, number_zeros, List.length_replicate, Nat.add_zero, Nat.pow_eq]

end Digit

namespace Instant

/-- A number in a field of digits: `width` of them, which spell the number. -/
theorem digits_spell {width number : Nat} (positive : 0 < width) (fits : number < 10 ^ width) :
    (digits width number).toList.length = width ∧
      (digits width number).toList.all (Digit.isOf 10) = true ∧
      Digit.number 10 (digits width number).toList = number := by
  have short : (Nat.toDigits 10 number).length ≤ width :=
    (Nat.length_toDigits_le_iff (by decide) positive).2 fits
  have shown : (digits width number).toList =
      List.replicate (width - (Nat.toDigits 10 number).length) '0' ++ Nat.toDigits 10 number := by
    simp [digits, ← String.length_toList]
  refine ⟨?_, ?_, ?_⟩
  · rw [shown, List.length_append, List.length_replicate]
    omega
  · have zero : Digit.isOf 10 '0' = true := by decide
    simp [shown, Digit.all_toDigits, zero]
  · rw [shown, Digit.number_zeros_append, Digit.number_toDigits]

end Instant

end ObjectQuery
