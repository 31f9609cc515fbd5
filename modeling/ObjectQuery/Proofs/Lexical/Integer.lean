import Mathlib.Data.Nat.Digits.Defs
import ObjectQuery.Proofs.Lexical.Numeral
import ObjectQuery.Proofs.Syntax.Consume

namespace ObjectQuery

/-!
Integers as they are written: a sign or none, a mark for a base other than ten,
and digits. They are read as the number that the digits stand for, however many
there are, and refused where 64 bits do not hold it.
-/

namespace Digit

/-- The character is the digit of the value; letters of either case have ten to fifteen. -/
def Marks (char : Char) (value : Nat) : Prop :=
  value < 16 ∧ (char = value.digitChar ∨ char = value.digitChar.toUpper)

instance : DecidableRel Marks :=
  fun char value => inferInstanceAs
    (Decidable (value < 16 ∧ (char = value.digitChar ∨ char = value.digitChar.toUpper)))

variable {char : Char} {value : Nat} {digits : List Char} {values : List Nat}

theorem Marks.value?_eq (marks : Marks char value) : value? char = some value := by
  have all : ∀ value < 16, value? value.digitChar = some value ∧
      value? value.digitChar.toUpper = some value := by
    decide
  obtain ⟨small, rfl | rfl⟩ := marks
  · exact (all value small).1
  · exact (all value small).2

theorem Marks.isOf_iff (marks : Marks char value) (base : Nat) :
    isOf base char = true ↔ value < base := by
  rw [isOf, marks.value?_eq, Option.any_some, decide_eq_true_eq]

theorem forall_isOf_iff (marked : List.Forall₂ Marks digits values) (base : Nat) :
    (∀ char ∈ digits, isOf base char = true) ↔ ∀ value ∈ values, value < base := by
  induction marked with
  | nil => simp
  | cons marks later induction =>
      rw [List.forall_mem_cons, List.forall_mem_cons, marks.isOf_iff, induction]

/-- The number that digits spell is the sum of their values, each times its power of the base. -/
theorem number_eq_ofDigits (marked : List.Forall₂ Marks digits values) (base : Nat) :
    number base digits = Nat.ofDigits base values.reverse := by
  induction marked with
  | nil => rfl
  | @cons digit value digits values marks later induction =>
      have first : number base [digit] = value := by simp [number, marks.value?_eq]
      rw [← List.singleton_append, number_append, first, induction, later.length_eq,
        List.reverse_cons, Nat.ofDigits_append, Nat.ofDigits_singleton, List.length_reverse,
        Nat.pow_eq, Nat.add_comm, Nat.mul_comm]

/-- A size with a sign, as an integer of any length. -/
abbrev signedSize (negative : Bool) (size : Nat) : Int :=
  if negative then -size else size

theorem exists_signed? (negative : Bool) (size : Nat) (least : -2 ^ 63 ≤ signedSize negative size)
    (most : signedSize negative size < 2 ^ 63) :
    ∃ value : Int64, signed? negative size = some value ∧ value.toInt = signedSize negative size := by
  have within : Int64.minValue.toInt ≤ signedSize negative size ∧
      signedSize negative size ≤ Int64.maxValue.toInt :=
    ⟨least, Int.le_sub_one_of_lt most⟩
  exact ⟨.ofInt (signedSize negative size), if_pos within, Int64.toInt_ofInt_of_le least most⟩

theorem signed?_eq_none (negative : Bool) (size : Nat)
    (beyond : ¬(-2 ^ 63 ≤ signedSize negative size ∧ signedSize negative size < 2 ^ 63)) :
    signed? negative size = none := by
  have outside : ¬(Int64.minValue.toInt ≤ signedSize negative size ∧
      signedSize negative size ≤ Int64.maxValue.toInt) :=
    fun ⟨least, most⟩ => beyond ⟨least, Int.lt_of_le_sub_one most⟩
  exact if_neg outside

end Digit

namespace Numeral

/-- The sign of an integer, and whether it is a minus. -/
inductive Signs : List Char → Bool → Prop
  | unsigned : Signs [] false
  | plus : Signs ['+'] false
  | minus : Signs ['-'] true

/-- The letter that stands after a zero for the base of the digits behind it. -/
inductive Bases : Char → Nat → Prop
  | two {letter : Char} (known : letter = 'b' ∨ letter = 'B') : Bases letter 2
  | eight {letter : Char} (known : letter = 'o' ∨ letter = 'O') : Bases letter 8
  | sixteen {letter : Char} (known : letter = 'x' ∨ letter = 'X') : Bases letter 16

/--
The text begins with an integer in the base, the values of whose digits are
given, the highest first. The rest goes on neither with a word nor, where the
base is not marked, with a point. Digits after a mark need not be of its base.
-/
inductive Writes : List Char → Bool → Nat → List Nat → List Char → Prop
  | decimal {mark digits rest : List Char} {negative : Bool} {values : List Nat}
      (signs : Signs mark negative) (some_ : digits ≠ [])
      (marked : List.Forall₂ Digit.Marks digits values) (proper : ∀ value ∈ values, value < 10)
      (ends : isWordEnd rest = true) (unpointed : rest.head? ≠ some '.') :
      Writes (mark ++ (digits ++ rest)) negative 10 values rest
  | based {mark digits rest : List Char} {negative : Bool} {letter : Char} {base : Nat}
      {values : List Nat} (signs : Signs mark negative) (bases : Bases letter base)
      (some_ : digits ≠ []) (marked : List.Forall₂ Digit.Marks digits values)
      (ends : isWordEnd rest = true) :
      Writes (mark ++ ('0' :: letter :: (digits ++ rest))) negative base values rest

variable {mark digits text rest chars : List Char} {negative : Bool} {base : Nat}
  {values : List Nat}

/-- A sign before a digit is read as such. -/
theorem Signs.sign_eq (signs : Signs mark negative) {first : Char} (digit : isDigit first = true)
    (others : List Char) : sign (mark ++ first :: others) = (negative, mark.length) := by
  cases signs with
  | unsigned =>
      have other {char : Char} (sign : isDigit char = false) : first ≠ char := by
        rintro rfl
        rw [digit] at sign
        cases sign
      exact sign_of_head?_ne (by simpa using other rfl) (by simpa using other rfl)
  | plus | minus => rfl

theorem Signs.drop_eq (signs : Signs mark negative) {first : Char} (digit : isDigit first = true)
    (others : List Char) :
    (mark ++ first :: others).drop (sign (mark ++ first :: others)).2 = first :: others := by
  rw [signs.sign_eq digit, List.drop_left]

/-- A digit after a sign begins a numeral, but none of those that have names. -/
theorem Signs.begins (signs : Signs mark negative) {first : Char} (digit : isDigit first = true)
    (others : List Char) :
    special? (mark ++ first :: others) = none ∧ isAhead (mark ++ first :: others) = true := by
  cases signs with
  | unsigned => exact ⟨(special?_of_digit digit others).1, by simp [isAhead, digit]⟩
  | minus => exact ⟨(special?_of_digit digit others).2, by simp [isAhead, digit]⟩
  | plus =>
      have common : isCommon first = true := forall_digit (by decide) digit
      have plus : sameUpper '+' '+' = true ∧ sameUpper '+' 'I' = false ∧
          sameUpper '+' 'N' = false ∧ sameUpper '+' '-' = false := by decide
      simp only [isCommon, Bool.and_eq_true, Bool.not_eq_true'] at common
      refine ⟨?_, by simp [isAhead, digit]⟩
      simp [special?, Keyword.length?, Keyword.wordsLength?, Keyword.wordLength?,
        Keyword.positiveInfinity, Keyword.negativeInfinity, Keyword.infinity,
        Keyword.notANumber, common, plus]

theorem Bases.base?_eq {letter : Char} (bases : Bases letter base) : base? letter = some base := by
  cases bases with
  | two known | eight known | sixteen known => rcases known with rfl | rfl <;> rfl

theorem isWordChar_of_isOf {char : Char} (digit : Digit.isOf base char = true) :
    isWordChar char = true := by
  have all : ∀ code < 128, (Digit.value? (Char.ofNat code)).isSome = true →
      isWordChar (Char.ofNat code) = true := by
    decide +kernel
  have some_ : (Digit.value? char).isSome = true := Option.isSome_of_any digit
  have small : char.toNat < 128 := by
    have upper (other : Char) : char ≤ other ↔ char.toNat ≤ other.toNat := Iff.rfl
    have codes : '9'.toNat = 57 ∧ 'f'.toNat = 102 ∧ 'F'.toNat = 70 := by decide
    simp only [Digit.value?, upper] at some_
    split at some_
    · omega
    · split at some_
      · omega
      · split at some_
        · omega
        · cases some_
  have code := all char.toNat small
  rw [Char.ofNat_toNat] at code
  exact code some_

/-- Neither a digit nor a letter of a base or of a power of ten follows where a word is over. -/
theorem apart_of_isWordEnd (ends : isWordEnd rest = true) : ∀ char ∈ rest.head?,
    (∀ base, Digit.isOf base char = false) ∧ base? char = none ∧ char ≠ 'e' ∧ char ≠ 'E' := by
  intro char head
  have apart : isWordChar char = false := by simpa [isWordEnd, Option.mem_def.1 head] using ends
  have ne {letter : Char} (word : isWordChar letter = true) : char ≠ letter := by
    rintro rfl
    rw [apart] at word
    cases word
  refine ⟨fun base => ?_, ?_, ne (by decide +kernel), ne (by decide +kernel)⟩
  · cases digit : Digit.isOf base char with
    | false => rfl
    | true => exact absurd (isWordChar_of_isOf digit) (by simp [apart])
  · unfold base?
    split
    all_goals first
      | rfl
      | exact absurd rfl (ne (by decide +kernel))

theorem Signs.plain?_decimal (signs : Signs mark negative) (some_ : digits ≠ [])
    (marked : List.Forall₂ Digit.Marks digits values) (proper : ∀ value ∈ values, value < 10)
    (ends : isWordEnd rest = true) (unpointed : rest.head? ≠ some '.') :
    plain? (mark ++ (digits ++ rest)) =
      some ((Digit.signed? negative (Nat.ofDigits 10 values.reverse)).map .int,
        mark.length + digits.length) := by
  have areDigits := (Digit.forall_isOf_iff marked 10).2 proper
  obtain ⟨first, others, rfl⟩ := List.exists_cons_of_ne_nil some_
  have digit : isDigit first = true := areDigits first List.mem_cons_self
  have unsigned : (mark ++ (first :: others ++ rest)).drop
      (sign (mark ++ (first :: others ++ rest))).2 = first :: others ++ rest :=
    signs.drop_eq digit (others ++ rest)
  have sign : sign (mark ++ (first :: others ++ rest)) = (negative, mark.length) :=
    signs.sign_eq digit (others ++ rest)
  rw [plain?_of_digits unsigned areDigits some_, sign, Digit.number_eq_ofDigits marked]
  intro char head
  obtain ⟨digit, base, small, capital⟩ := apart_of_isWordEnd ends char head
  refine ⟨digit 10, base, ?_, small, capital⟩
  rintro rfl
  exact unpointed head

theorem Signs.plain?_based (signs : Signs mark negative) {letter : Char} (bases : Bases letter base)
    (some_ : digits ≠ []) (marked : List.Forall₂ Digit.Marks digits values)
    (ends : isWordEnd rest = true) :
    plain? (mark ++ ('0' :: letter :: (digits ++ rest))) =
      some ((if ∀ value ∈ values, value < base then
          Digit.signed? negative (Nat.ofDigits base values.reverse) else none).map .int,
        mark.length + 2 + digits.length) := by
  have zero : isDigit '0' = true := by decide
  have areHex : ∀ char ∈ digits, Digit.isOf 16 char = true :=
    (Digit.forall_isOf_iff marked 16).2 fun value member => by
      obtain ⟨char, _, marks⟩ := Step.exists_of_forall₂ marked member
      exact marks.1
  have taken : (digits ++ rest).takeWhile (Digit.isOf 16) = digits := by
    rw [List.takeWhile_append_of_pos areHex]
    cases rest with
    | nil => exact List.append_nil _
    | cons char others =>
        have other := (apart_of_isWordEnd ends char rfl).1 16
        rw [List.takeWhile_cons_of_neg (by simp [other]), List.append_nil]
  have proper : digits.all (Digit.isOf base) = true ↔ ∀ value ∈ values, value < base := by
    rw [List.all_eq_true]
    exact Digit.forall_isOf_iff marked base
  have based : based? (mark ++ ('0' :: letter :: (digits ++ rest))) =
      some ((if ∀ value ∈ values, value < base then
          Digit.signed? negative (Nat.ofDigits base values.reverse) else none).map .int,
        mark.length + 2 + digits.length) := by
    rw [based?, signs.sign_eq zero]
    simp only [List.drop_left]
    rw [bases.base?_eq]
    simp only [Option.bind_eq_bind, Option.bind_some, taken, proper,
      Digit.number_eq_ofDigits marked]
    simp [some_]
  rw [plain?, based]
  rfl

/-- An integer is read over all of its digits, and as a number only where this is exact. -/
theorem Writes.plain?_eq (writes : Writes chars negative base values rest) :
    plain? chars = some ((if ∀ value ∈ values, value < base then
        Digit.signed? negative (Nat.ofDigits base values.reverse) else none).map .int,
      chars.length - rest.length) := by
  cases writes with
  | decimal signs some_ marked proper ends unpointed =>
      rw [signs.plain?_decimal some_ marked proper ends unpointed, if_pos proper]
      simp only [List.length_append]
      congr 2
      omega
  | based signs bases some_ marked ends =>
      rw [signs.plain?_based bases some_ marked ends]
      simp only [List.length_append, List.length_cons]
      congr 2
      omega

theorem Writes.begins (writes : Writes chars negative base values rest) :
    special? chars = none ∧ isAhead chars = true := by
  cases writes with
  | @decimal _ digits _ _ values signs some_ marked proper _ _ =>
      obtain ⟨first, others, rfl⟩ := List.exists_cons_of_ne_nil some_
      have areDigits := (Digit.forall_isOf_iff marked 10).2 proper
      exact signs.begins (areDigits first List.mem_cons_self) _
  | based signs => exact signs.begins (by decide) _

theorem Writes.exists_append (writes : Writes chars negative base values rest) :
    isWordEnd rest = true ∧ ∃ text, chars = text ++ rest := by
  cases writes with
  | @decimal mark digits _ _ _ _ _ _ _ ends _ =>
      exact ⟨ends, mark ++ digits, (List.append_assoc _ _ _).symm⟩
  | @based mark digits _ _ letter _ _ _ _ _ _ ends =>
      exact ⟨ends, mark ++ '0' :: letter :: digits, by simp⟩

theorem Writes.drop_eq (writes : Writes chars negative base values rest) :
    chars.drop (chars.length - rest.length) = rest := by
  obtain ⟨_, text, rfl⟩ := writes.exists_append
  rw [List.length_append, Nat.add_sub_cancel, List.drop_left]

end Numeral

open Numeral (Writes)

/--
An integer is read exactly, however long it is: the cursor stops behind its last
digit with the number that the digits stand for, if all of them are of the base
and 64 bits hold the number. Otherwise the integer is a fault.
-/
theorem lexeme_numeral_of_writes {cursor : Cursor} {negative : Bool} {base : Nat}
    {values : List Nat} {rest : List Char}
    (writes : Writes cursor.ahead negative base values rest) :
    let number := Digit.signedSize negative (Nat.ofDigits base values.reverse)
    let after := cursor.advance (cursor.ahead.length - rest.length)
    after.ahead = rest ∧
      ((∀ value ∈ values, value < base) ∧ -2 ^ 63 ≤ number ∧ number < 2 ^ 63 →
        ∃ value : Int64, value.toInt = number ∧
          Parser.lexeme numeral cursor = .ok (some (.int value)) after) ∧
      (¬((∀ value ∈ values, value < base) ∧ -2 ^ 63 ≤ number ∧ number < 2 ^ 63) →
        Parser.lexeme numeral cursor =
          .error (.atCursor .badInteger cursor.position after) after) := by
  intro number after
  obtain ⟨unnamed, ahead⟩ := writes.begins
  obtain ⟨ends, _⟩ := writes.exists_append
  have plain := writes.plain?_eq
  refine ⟨writes.drop_eq, ?_, ?_⟩
  · rintro ⟨proper, least, most⟩
    obtain ⟨value, found, same⟩ := Digit.exists_signed? _ _ least most
    rw [if_pos proper, found] at plain
    refine ⟨value, same, ?_⟩
    simp only [Parser.lexeme_run, numeral, unnamed, ahead, if_true, plain, Option.map_some,
      writes.drop_eq, ends]
    rfl
  · intro beyond
    have unread : (if ∀ value ∈ values, value < base then
        Digit.signed? negative (Nat.ofDigits base values.reverse) else none) =
          none := by
      split
      · rename_i proper
        exact Digit.signed?_eq_none _ _ fun within => beyond ⟨proper, within⟩
      · rfl
    rw [unread] at plain
    simp only [Parser.lexeme_run, numeral, unnamed, ahead, if_true, plain, Option.map_none]
    rfl

/-- The least number that 64 bits hold, in base sixteen and before a point. -/
def leastNumber : Cursor :=
  .ofText "-0x8000000000000000.5" none

theorem lexeme_numeral_leastNumber :
    Writes leastNumber.ahead true 16 (8 :: List.replicate 15 0) ['.', '5'] ∧
      ∃ value : Int64, value.toInt = -2 ^ 63 ∧
        Parser.lexeme numeral leastNumber = .ok (some (.int value)) (leastNumber.advance 19) := by
  have marked : List.Forall₂ Digit.Marks "8000000000000000".toList (8 :: List.replicate 15 0) := by
    decide
  have writes : Writes leastNumber.ahead true 16 (8 :: List.replicate 15 0) ['.', '5'] :=
    .based .minus (.sixteen (.inl rfl)) (by decide) marked (by decide)
  refine ⟨writes, ?_⟩
  exact (lexeme_numeral_of_writes writes).2.1 (by decide)

end ObjectQuery
