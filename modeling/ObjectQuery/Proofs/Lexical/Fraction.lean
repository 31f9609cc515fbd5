import ObjectQuery.Decimal.Layout
import ObjectQuery.Proofs.Decimal.Special
import ObjectQuery.Proofs.Lexical.Numeral

namespace ObjectQuery

/-! Numbers in print, which are read as the decimals that their digits spell. -/

namespace Numeral

theorem power_toString (value : Int) :
    power ('e' :: (toString value).toList) = (value, ('e' :: (toString value).toList).length) := by
  have some_ := Nat.toDigits_ne_nil (n := value.natAbs) (b := 10)
  have digits : (Nat.toDigits 10 value.natAbs).takeWhile isDigit = Nat.toDigits 10 value.natAbs :=
    List.takeWhile_eq_self_iff.2 (List.all_eq_true.1 (Digit.all_toDigits value.natAbs))
  rw [toString_eq]
  split
  · have sign : sign ('-' :: Nat.toDigits 10 value.natAbs) = (true, 1) := rfl
    simp only [power, sign, List.drop_succ_cons, List.drop_zero, digits, List.isEmpty_iff, some_,
      if_false, if_true, Digit.number_toDigits, List.length_cons]
    exact Prod.ext (by dsimp only; omega) (by dsimp only; omega)
  · simp only [power, sign_toDigits, List.drop_zero, digits, List.isEmpty_iff, some_, if_false,
      Bool.false_eq_true, Digit.number_toDigits, List.length_cons]
    exact Prod.ext (by dsimp only; omega) (by dsimp only; omega)

/-- A power of ten in print, or nothing. -/
inductive IsPower : List Char → Int → Prop where
  | none : IsPower [] 0
  | some (value : Int) : IsPower ('e' :: (toString value).toList) value

theorem IsPower.power_eq {chars : List Char} {value : Int} (isPower : IsPower chars value) :
    power chars = (value, chars.length) := by
  cases isPower with
  | none => rfl
  | some => exact power_toString value

theorem IsPower.takeWhile_append {chars digits : List Char} {value : Int}
    (isPower : IsPower chars value) (spelled : ∀ char ∈ digits, isDigit char = true) :
    (digits ++ chars).takeWhile isDigit = digits := by
  have letter : isDigit 'e' = false := by decide
  rw [List.takeWhile_append_of_pos spelled]
  cases isPower with
  | none => exact List.append_nil _
  | some => rw [List.takeWhile_cons_of_neg (by simp [letter]), List.append_nil]

/-- Digits with a point or a power of ten, the number that they spell and its power of ten. -/
inductive IsFraction : List Char → Nat → Int → Prop where
  | pointed {whole part after : List Char} {power : Int} (some : whole ≠ [])
      (wholeDigits : ∀ char ∈ whole, isDigit char = true)
      (partDigits : ∀ char ∈ part, isDigit char = true) (last : IsPower after power) :
      IsFraction (whole ++ '.' :: (part ++ after)) (Digit.number 10 (whole ++ part))
        (power - part.length)
  | powered {whole : List Char} (some : whole ≠ [])
      (wholeDigits : ∀ char ∈ whole, isDigit char = true) (power : Int) :
      IsFraction (whole ++ 'e' :: (toString power).toList) (Digit.number 10 whole) power

/-- Digits with a point and no power of ten. -/
theorem IsFraction.unpowered {whole : List Char} (some : whole ≠ [])
    (wholeDigits : ∀ char ∈ whole, isDigit char = true) {part : List Char}
    (partDigits : ∀ char ∈ part, isDigit char = true) :
    IsFraction (whole ++ '.' :: part) (Digit.number 10 (whole ++ part)) (0 - part.length) := by
  have fraction := IsFraction.pointed some wholeDigits partDigits .none
  rwa [List.append_nil] at fraction

variable {chars : List Char} {digits : Nat} {exponent : Int}

theorem fraction?_of_isFraction {text : List Char} (unsigned : text.drop (sign text).2 = chars)
    (isFraction : IsFraction chars digits exponent) :
    fraction? text = some (.float (Decimal.toFloat ⟨(sign text).1, digits, exponent⟩),
      text.length) := by
  have length : text.length = (sign text).2 + chars.length := by
    have bound := sign_length_le text
    rw [← unsigned, List.length_drop]
    omega
  cases isFraction with
  | @pointed whole part after power some wholeDigits partDigits last =>
      have front : (whole ++ '.' :: (part ++ after)).takeWhile isDigit = whole := by
        have point : isDigit '.' = false := by decide
        rw [List.takeWhile_append_of_pos wholeDigits,
          List.takeWhile_cons_of_neg (by simp [point]), List.append_nil]
      have filled : whole.isEmpty = false := by simp [some]
      simp only [fraction?, unsigned, front, List.drop_left, last.takeWhile_append partDigits,
        filled, Bool.false_and, Bool.false_eq_true, if_false, last.power_eq, length,
        List.length_append, List.length_cons]
      exact congrArg Option.some (Prod.ext rfl (by dsimp only; omega))
  | @powered whole some wholeDigits =>
      have last := IsPower.some exponent
      have filled : whole.isEmpty = false := by simp [some]
      simp only [fraction?, unsigned, last.takeWhile_append wholeDigits, List.drop_left, filled,
        last.power_eq, length]
      simp [Nat.add_assoc]

theorem plain?_of_isFraction (text : List Char) (unsigned : text.drop (sign text).2 = chars)
    (isFraction : IsFraction chars digits exponent) :
    plain? text = some (some (.float (Decimal.toFloat ⟨(sign text).1, digits, exponent⟩)),
      text.length) := by
  have based : based? text = none := by
    cases isFraction with
    | pointed some wholeDigits =>
        exact based?_of_digits unsigned wholeDigits some (by simp [base?])
    | powered some wholeDigits =>
        exact based?_of_digits unsigned wholeDigits some (by simp [base?])
  simp [plain?, based, fraction?_of_isFraction unsigned isFraction]

theorem IsFraction.exists_digit (isFraction : IsFraction chars digits exponent) :
    ∃ first others, chars = first :: others ∧ isDigit first = true := by
  cases isFraction with
  | @pointed whole _ _ _ some wholeDigits =>
      obtain ⟨first, others, rfl⟩ := List.exists_cons_of_ne_nil some
      exact ⟨first, _, rfl, wholeDigits first List.mem_cons_self⟩
  | @powered whole some wholeDigits =>
      obtain ⟨first, others, rfl⟩ := List.exists_cons_of_ne_nil some
      exact ⟨first, _, rfl, wholeDigits first List.mem_cons_self⟩

theorem IsFraction.begins (isFraction : IsFraction chars digits exponent) (negative : Bool) :
    Begins (if negative then '-' :: chars else chars) := by
  obtain ⟨first, others, rfl, digit⟩ := isFraction.exists_digit
  cases negative with
  | true => exact .minus digit others
  | false => exact .digit digit others

/-- A fraction is read as the decimal that its digits spell. -/
theorem numeral_of_isFraction (isFraction : IsFraction chars digits exponent) (negative : Bool) :
    numeral (if negative then '-' :: chars else chars) =
      .found (.float (Decimal.toFloat ⟨negative, digits, exponent⟩))
        (if negative then '-' :: chars else chars).length := by
  rw [numeral_eq_found_iff (isFraction.begins negative), List.drop_length]
  refine ⟨?_, rfl⟩
  cases negative with
  | true => exact plain?_of_isFraction ('-' :: chars) rfl isFraction
  | false =>
      have sign : sign chars = (false, 0) := by
        obtain ⟨first, others, rfl, digit⟩ := isFraction.exists_digit
        have unsigned : "0123456789".toList.all (fun char => char != '-' && char != '+') = true := by
          decide
        have other := forall_digit unsigned digit
        simp only [Bool.and_eq_true, bne_iff_ne] at other
        exact sign_of_head?_ne (by simp [other.1]) (by simp [other.2])
      have plain := plain?_of_isFraction chars (by rw [sign, List.drop_zero]) isFraction
      rw [sign] at plain
      exact plain

end Numeral

namespace DecimalLayout

open Numeral

section

variable {digits : List Char} (exponent : Int)

theorem zeros_succ (count : Nat) : zeros count ++ ['0'] = zeros (count + 1) :=
  List.replicate_succ'.symm

theorem forall_isDigit_zeros (count : Nat) : ∀ char ∈ zeros count, isDigit char = true := by
  intro char member
  obtain rfl := List.eq_of_mem_replicate member
  decide

/-- Digits with a point spell their number, perhaps with zeros after them. -/
theorem isFraction_positional (some : digits ≠ [])
    (spelled : ∀ char ∈ digits, isDigit char = true) (below : exponent < 16) :
    ∃ zeros : Nat, zeros ≤ 16 ∧ IsFraction (positional digits exponent)
      (Digit.number 10 digits * 10 ^ zeros) (exponent + 1 - digits.length - zeros) := by
  have positive := List.length_pos_iff.2 some
  unfold positional
  split
  · have partDigits := List.forall_mem_append.2
      ⟨forall_isDigit_zeros (exponent.natAbs - 1), spelled⟩
    have zero : zeros 1 ≠ [] := List.cons_ne_nil _ _
    have fraction := IsFraction.unpowered zero (forall_isDigit_zeros 1) partDigits
    have number : Digit.number 10 (zeros 1 ++ (zeros (exponent.natAbs - 1) ++ digits)) =
        Digit.number 10 digits * 10 ^ 0 := by
      rw [zeros, zeros, Digit.number_zeros_append, Digit.number_zeros_append, Nat.pow_zero,
        Nat.mul_one]
    have power : (0 : Int) - (zeros (exponent.natAbs - 1) ++ digits).length =
        exponent + 1 - digits.length - (0 : Nat) := by
      rw [List.length_append, zeros, List.length_replicate]
      omega
    rw [number, power] at fraction
    exact ⟨0, Nat.zero_le _, fraction⟩
  · dsimp only
    split
    · have wholeDigits := List.forall_mem_append.2
        ⟨spelled, forall_isDigit_zeros (exponent.toNat + 1 - digits.length)⟩
      have fraction := IsFraction.unpowered (List.append_ne_nil_of_left_ne_nil some _) wholeDigits
        (forall_isDigit_zeros 1)
      have number : Digit.number 10
          (digits ++ zeros (exponent.toNat + 1 - digits.length) ++ zeros 1) =
            Digit.number 10 digits * 10 ^ (exponent.toNat + 1 - digits.length + 1) := by
        rw [List.append_assoc, show zeros 1 = ['0'] from rfl, zeros_succ, zeros,
          Digit.number_append_zeros]
      have power : (0 : Int) - (zeros 1).length = exponent + 1 - digits.length -
          (exponent.toNat + 1 - digits.length + 1 : Nat) := by
        rw [zeros, List.length_replicate]
        omega
      rw [number, power] at fraction
      exact ⟨_, by omega, fraction⟩
    · have some_ : digits.take (exponent.toNat + 1) ≠ [] := by simp [some]
      have wholeDigits : ∀ char ∈ digits.take (exponent.toNat + 1), isDigit char = true :=
        fun char member => spelled char (List.mem_of_mem_take member)
      have partDigits : ∀ char ∈ digits.drop (exponent.toNat + 1), isDigit char = true :=
        fun char member => spelled char (List.mem_of_mem_drop member)
      have fraction := IsFraction.unpowered some_ wholeDigits partDigits
      have power : (0 : Int) - (digits.drop (exponent.toNat + 1)).length =
          exponent + 1 - digits.length - (0 : Nat) := by
        rw [List.length_drop]
        omega
      rw [List.take_append_drop, power] at fraction
      exact ⟨0, Nat.zero_le _, by simpa using fraction⟩

theorem isFraction_scientific (some : digits ≠ [])
    (spelled : ∀ char ∈ digits, isDigit char = true) :
    IsFraction (display.scientific digits exponent) (Digit.number 10 digits)
      (exponent + 1 - digits.length) := by
  have signed : (if exponent < 0 then "-" else display.plus).toList ++
      (toString exponent.natAbs).toList = (toString exponent).toList := by
    rw [toString_eq, Nat.toString_eq_repr, Nat.toList_repr]
    split <;> rfl
  have last : 'e' :: (if exponent < 0 then "-" else display.plus).toList ++
      (toString exponent.natAbs).toList = 'e' :: (toString exponent).toList := by
    rw [List.cons_append, signed]
  match digits with
  | [] => exact absurd rfl some
  | [digit] =>
      have fraction := IsFraction.powered some spelled exponent
      rw [← last] at fraction
      simpa [scientific] using fraction
  | first :: second :: others =>
      obtain ⟨isFirst, areOthers⟩ := List.forall_mem_cons.1 spelled
      have fraction := IsFraction.pointed (List.cons_ne_nil first [])
        (List.forall_mem_singleton.2 isFirst) areOthers (.some exponent)
      have power : exponent - (second :: others).length =
          exponent + 1 - (first :: second :: others).length := by
        simp only [List.length_cons]
        omega
      rw [power, ← last] at fraction
      simpa [scientific] using fraction

end

/-- The number of a size in print is its shortest decimal, perhaps with zeros after it. -/
theorem isFraction_renderSize {size : BinarySize} (significant : size.significand ≠ 0) :
    ∃ zeros : Nat, zeros ≤ 16 ∧ IsFraction (display.renderSize size)
      ((size.shortest .up).1 * 10 ^ zeros) ((size.shortest .up).2 - zeros) := by
  unfold renderSize
  rw [if_neg significant, show display.tie = .up from rfl]
  generalize size.shortest .up = shortest
  obtain ⟨number, unit⟩ := shortest
  have shown : (toString number).toList = Nat.toDigits 10 number := by
    rw [Nat.toString_eq_repr, Nat.toList_repr]
  have some := Nat.toDigits_ne_nil (n := number) (b := 10)
  have spelled := List.all_eq_true.1 (Digit.all_toDigits number)
  have value := Digit.number_toDigits number
  simp only [shown]
  generalize Nat.toDigits 10 number = digits at some spelled value
  have power : unit + digits.length - 1 + 1 - digits.length = unit := by omega
  split
  · rename_i within
    have fraction := isFraction_positional _ some spelled within.2
    rwa [value, power] at fraction
  · have fraction := isFraction_scientific (unit + digits.length - 1) some spelled
    rw [value, power] at fraction
    exact ⟨0, Nat.zero_le _, by simpa using fraction⟩

/--
The shortest decimal of a number is read as this number, with the zeros after it
that a text without an exponent may have.
-/
def PrintsBack (value : Float) : Prop :=
  ∀ negative size, FloatView.ofFloat value = .finite negative size →
    ∀ zeros : Nat, zeros ≤ 16 → Decimal.toFloat ⟨negative, (size.shortest .up).1 * 10 ^ zeros,
      (size.shortest .up).2 - zeros⟩ = value

theorem isFraction_zero : IsFraction "0.0".toList 0 (-1) :=
  .unpowered (List.cons_ne_nil '0' []) (forall_isDigit_zeros 1) (forall_isDigit_zeros 1)

theorem begins_display {value : Float} {negative : Bool} {size : BinarySize}
    (view : FloatView.ofFloat value = .finite negative size) :
    Numeral.Begins (display.render value).toList := by
  simp only [render, view, String.toList_ofList]
  by_cases zero : size.significand = 0
  · rw [show display.renderSize size = "0.0".toList from if_pos zero]
    exact isFraction_zero.begins negative
  · obtain ⟨zeros, few, fraction⟩ := isFraction_renderSize zero
    exact fraction.begins negative

/-- A number in print is read as this number. -/
theorem numeral_display {value : Float} (printsBack : PrintsBack value) :
    numeral (display.render value).toList =
      .found (.float value) (display.render value).toList.length := by
  cases view : FloatView.ofFloat value with
  | nan =>
      have special : Numeral.special? "NaN".toList = some (0.0 / 0.0, 3) := by decide +kernel
      rw [show display.render value = "NaN" by simp only [render, view], FloatView.eq_of_nan view]
      simp only [numeral, special]
      rfl
  | infinity negative =>
      have shown : (display.render value).toList =
          if negative then '-' :: "Infinity".toList else "Infinity".toList := by
        simp only [render, view, String.toList_ofList]
      have special : Numeral.special?
          (if negative then '-' :: "Infinity".toList else "Infinity".toList) =
            some (if negative then -1.0 / 0.0 else 1.0 / 0.0, if negative then 9 else 8) := by
        cases negative <;> decide +kernel
      rw [shown, FloatView.eq_of_infinity view]
      simp only [numeral, special]
      cases negative <;> rfl
  | finite negative size =>
      have shown : (display.render value).toList =
          if negative then '-' :: display.renderSize size else display.renderSize size := by
        simp only [render, view, String.toList_ofList]
      by_cases zero : size.significand = 0
      · have zeroFloat : Decimal.toFloat ⟨negative, 0, -1⟩ = if negative then -0.0 else 0.0 := rfl
        rw [shown, show display.renderSize size = "0.0".toList from if_pos zero,
          numeral_of_isFraction isFraction_zero, zeroFloat, FloatView.eq_of_zero view zero]
      · obtain ⟨zeros, few, fraction⟩ := isFraction_renderSize zero
        rw [shown, numeral_of_isFraction fraction, printsBack negative size view zeros few]

end DecimalLayout

end ObjectQuery
