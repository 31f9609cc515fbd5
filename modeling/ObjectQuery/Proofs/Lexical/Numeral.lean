import Mathlib.Data.Option.Basic
import ObjectQuery.Lexical.Numeral
import ObjectQuery.Proofs.Lexical.Digit
import ObjectQuery.Proofs.Lexical.Word

namespace ObjectQuery

/-! Numerals, which are read up to a blank, a comma or a closing bracket, and integers in print. -/

/-- Nothing is left, or what is left begins with a mark that ends every value. -/
def Stops (rest : List Char) : Prop :=
  ∀ char ∈ rest.head?, " ,)".toList.contains char = true

theorem forall_stop {test : Char → Bool} (all : " ,)".toList.all test = true) {char : Char}
    (stop : " ,)".toList.contains char = true) : test char = true :=
  List.all_eq_true.1 all char (List.contains_iff_mem.1 stop)

namespace Stops

variable {rest : List Char}

theorem breaks (stops : Stops rest) : Breaks rest :=
  fun char given => forall_stop (by decide) (stops char given)

theorem isWordEnd (stops : Stops rest) : isWordEnd rest = true :=
  stops.breaks.isWordEnd

theorem head?_ne (stops : Stops rest) {char : Char} (other : " ,)".toList.contains char = false) :
    rest.head? ≠ some char := by
  intro head
  rw [stops char head] at other
  cases other

end Stops

/-- What is left goes on with no numeral that has begun. -/
structure Quiet (rest : List Char) : Prop where
  head : ∀ char ∈ rest.head?, " ,)-/'\"".toList.contains char = true
  second : ∀ others, rest = '-' :: others → others.head? = some '-'

theorem Stops.quiet {rest : List Char} (stops : Stops rest) : Quiet rest where
  head char given := by
    have all : " ,)".toList.all (" ,)-/'\"".toList.contains ·) = true := by decide
    exact forall_stop all (stops char given)
  second others same := by
    have minus : " ,)".toList.contains '-' = false := by decide
    exact absurd (by rw [same]; rfl) (stops.head?_ne minus)

namespace Quiet

variable {rest : List Char}

theorem head?_any {test : Char → Bool} (quiet : Quiet rest)
    (all : " ,)-/'\"".toList.all (!test ·) = true) : rest.head?.any test = false := by
  cases head : rest.head? with
  | none => rfl
  | some char =>
      simpa using List.all_eq_true.1 all char (List.contains_iff_mem.1 (quiet.head char head))

theorem head?_ne (quiet : Quiet rest) {char : Char}
    (other : " ,)-/'\"".toList.contains char = false) : rest.head? ≠ some char := by
  intro head
  rw [quiet.head char head] at other
  cases other

end Quiet

namespace Numeral

variable {text rest : List Char}

theorem sign_of_head?_ne {chars : List Char} (minus : chars.head? ≠ some '-')
    (plus : chars.head? ≠ some '+') : sign chars = (false, 0) := by
  unfold sign
  split
  · exact absurd rfl minus
  · exact absurd rfl plus
  · rfl

theorem sign_append (some_ : text ≠ []) (rest : List Char) : sign (text ++ rest) = sign text := by
  obtain ⟨first, others, rfl⟩ := List.exists_cons_of_ne_nil some_
  unfold sign
  split <;> simp_all

theorem sign_length_le (text : List Char) : (sign text).2 ≤ text.length := by
  unfold sign
  split <;> simp

theorem drop_sign_append (text rest : List Char) :
    (text ++ rest).drop (sign text).2 = text.drop (sign text).2 ++ rest :=
  List.drop_append_of_le_length (sign_length_le text)

theorem digits_append (quiet : Quiet rest) (text : List Char) :
    (text ++ rest).takeWhile isDigit = text.takeWhile isDigit :=
  Digit.takeWhile_append text (quiet.head?_any (by decide))

theorem drop_digits_append (text rest : List Char) :
    (text ++ rest).drop (text.takeWhile isDigit).length =
      text.drop (text.takeWhile isDigit).length ++ rest :=
  List.drop_append_of_le_length (List.takeWhile_sublist _).length_le

theorem based?_append (quiet : Quiet rest) (some_ : text ≠ []) :
    based? (text ++ rest) = based? text := by
  simp only [based?, sign_append some_, drop_sign_append]
  cases text.drop (sign text).2 with
  | nil =>
      have zero : " ,)-/'\"".toList.contains '0' = false := by decide
      rw [List.nil_append]
      split
      · exact absurd rfl (quiet.head?_ne zero)
      · rfl
  | cons first others =>
      by_cases zero : first = '0'
      · subst zero
        cases others with
        | nil =>
            cases rest with
            | nil => rfl
            | cons char others =>
                have noBase : " ,)-/'\"".toList.all (fun char => !(base? char).isSome) = true := by
                  decide
                have none : (base? char).isSome = false := quiet.head?_any noBase
                simp [Option.isNone_iff_eq_none.1 (Option.isSome_eq_false_iff.1 none)]
        | cons second others =>
            have digits : (others ++ rest).takeWhile (Digit.isOf 16) =
                others.takeWhile (Digit.isOf 16) :=
              Digit.takeWhile_append others (quiet.head?_any (by decide))
            simp only [List.cons_append, digits]
      · simp [zero]

theorem power_of_head?_ne {chars : List Char} (small : chars.head? ≠ some 'e')
    (capital : chars.head? ≠ some 'E') : power chars = (0, 0) := by
  unfold power
  split
  · exact absurd rfl small
  · exact absurd rfl capital
  · rfl

/-- A power of ten after its letter. -/
def powerAfter (rest : List Char) : Int × Nat :=
  let (negative, signLength) := sign rest
  let digits := (rest.drop signLength).takeWhile isDigit
  if digits.isEmpty then
    (0, 0)
  else
    let size : Int := Digit.number 10 digits
    (if negative then -size else size, 1 + signLength + digits.length)

/-- No digits follow, not even after a minus. -/
theorem powerAfter_of_quiet (quiet : Quiet rest) : powerAfter rest = (0, 0) := by
  have noDigits : (rest.drop (sign rest).2).takeWhile isDigit = [] := by
    by_cases minus : ∃ others, rest = '-' :: others
    · obtain ⟨others, rfl⟩ := minus
      obtain ⟨more, rfl⟩ := List.head?_eq_some_iff.1 (quiet.second others rfl)
      rfl
    · have plus : " ,)-/'\"".toList.contains '+' = false := by decide
      rw [sign_of_head?_ne (fun head => minus (List.head?_eq_some_iff.1 head))
        (quiet.head?_ne plus), List.drop_zero]
      exact digits_append quiet []
  simp [powerAfter, noDigits]

theorem powerAfter_append (quiet : Quiet rest) : powerAfter (text ++ rest) = powerAfter text := by
  cases text with
  | nil => exact powerAfter_of_quiet quiet
  | cons first others =>
      simp only [powerAfter, sign_append (List.cons_ne_nil first others), drop_sign_append,
        digits_append quiet]

theorem power_append (quiet : Quiet rest) : power (text ++ rest) = power text := by
  cases text with
  | nil =>
      have small : " ,)-/'\"".toList.contains 'e' = false := by decide
      have capital : " ,)-/'\"".toList.contains 'E' = false := by decide
      exact power_of_head?_ne (quiet.head?_ne small) (quiet.head?_ne capital)
  | cons first others =>
      by_cases letter : first = 'e' ∨ first = 'E'
      · have after (others : List Char) : power (first :: others) = powerAfter others := by
          rcases letter with rfl | rfl <;> rfl
        rw [List.cons_append, after, after, powerAfter_append quiet]
      · obtain ⟨small, capital⟩ := not_or.1 letter
        have none (others : List Char) : power (first :: others) = (0, 0) :=
          power_of_head?_ne (by simpa using small) (by simpa using capital)
        rw [List.cons_append, none, none]

theorem fraction?_append (quiet : Quiet rest) (some_ : text ≠ []) :
    fraction? (text ++ rest) = fraction? text := by
  simp only [fraction?, sign_append some_, drop_sign_append, digits_append quiet,
    drop_digits_append]
  generalize text.drop (sign text).2 = unsigned
  cases unsigned.drop (unsigned.takeWhile isDigit).length with
  | nil =>
      have point : " ,)-/'\"".toList.contains '.' = false := by decide
      have ends : power ([] ++ rest) = power [] := power_append quiet
      rw [← ends, List.nil_append]
      split
      · exact absurd rfl (quiet.head?_ne point)
      · rfl
  | cons first others =>
      by_cases point : first = '.'
      · subst point
        simp only [List.cons_append, digits_append quiet, drop_digits_append, power_append quiet]
      · have same : power (first :: others ++ rest) = power (first :: others) := power_append quiet
        rw [List.cons_append] at same ⊢
        simp [point, same]

theorem integer?_append (quiet : Quiet rest) (some_ : text ≠ []) :
    integer? (text ++ rest) = integer? text := by
  simp only [integer?, sign_append some_, drop_sign_append, digits_append quiet]

theorem plain?_append (quiet : Quiet rest) (some_ : text ≠ []) :
    plain? (text ++ rest) = plain? text := by
  simp only [plain?, based?_append quiet some_, fraction?_append quiet some_,
    integer?_append quiet some_]

theorem special?_append (breaks : Breaks rest) : special? (text ++ rest) = special? text := by
  have same {word : List Char} (lettered : Keyword.isLettered ⟨[word], true⟩ = true) :
      Keyword.length? ⟨[word], true⟩ (text ++ rest) = Keyword.length? ⟨[word], true⟩ text :=
    Keyword.length?_append lettered breaks
  have above := same (show Keyword.positiveInfinity.isLettered = true by decide)
  have below := same (show Keyword.negativeInfinity.isLettered = true by decide)
  have unsigned := same (show Keyword.infinity.isLettered = true by decide)
  have none := same (show Keyword.notANumber.isLettered = true by decide)
  simp only [special?, Keyword.positiveInfinity, Keyword.negativeInfinity, Keyword.infinity,
    Keyword.notANumber, above, below, unsigned, none]

theorem special?_eq_none_of_append (absent : special? (text ++ rest) = none)
    (past : isWordEnd rest = true) : special? text = none := by
  have alone {word : List Char} (absent : Keyword.length? ⟨[word], true⟩ (text ++ rest) = none) :
      Keyword.length? ⟨[word], true⟩ text = none :=
    Keyword.length?_eq_none_of_append absent past
  simp only [special?, Option.orElse_eq_none, Option.map_eq_none_iff] at absent ⊢
  obtain ⟨above, below, unsigned, other⟩ := absent
  exact ⟨alone above, alone below, alone unsigned, alone other⟩

theorem isAhead_append (stops : Stops rest) (ahead : isAhead text = true) :
    isAhead (text ++ rest) = true := by
  simp only [isAhead, special?_append stops.breaks, Bool.or_eq_true] at ahead ⊢
  refine ahead.imp_left fun begins => ?_
  match text with
  | [] => cases begins
  | [first] =>
      have digit : isDigit first = true := by simpa using begins
      simp [digit]
  | first :: second :: others => exact begins

theorem based?_of_digits {digits after : List Char}
    (unsigned : text.drop (sign text).2 = digits ++ after)
    (spelled : ∀ char ∈ digits, isDigit char = true) (some_ : digits ≠ [])
    (ends : ∀ char ∈ after.head?, base? char = none) : based? text = none := by
  have noBase {char : Char} (digit : isDigit char = true) : base? char = none := by
    have bounds := (Digit.isOf_ten_iff char).1 digit
    unfold base?
    split <;> first | rfl | exact absurd bounds (by decide)
  simp only [based?, unsigned]
  split
  · rename_i letter others same
    have none : base? letter = none := by
      match digits with
      | [] => exact absurd rfl some_
      | [first] =>
          obtain ⟨-, rfl⟩ := List.cons.inj same
          exact ends letter rfl
      | first :: second :: digits =>
          obtain ⟨-, same⟩ := List.cons.inj same
          obtain ⟨rfl, -⟩ := List.cons.inj same
          exact noBase (spelled _ (by simp))
    simp [none]
  · rfl

/-- Digits alone, with a sign or without, are an integer. -/
theorem plain?_of_digits {digits after : List Char}
    (unsigned : text.drop (sign text).2 = digits ++ after)
    (spelled : ∀ char ∈ digits, isDigit char = true) (some_ : digits ≠ [])
    (ends : ∀ char ∈ after.head?,
      isDigit char = false ∧ base? char = none ∧ char ≠ '.' ∧ char ≠ 'e' ∧ char ≠ 'E') :
    plain? text = some ((Digit.signed? (sign text).1 (Digit.number 10 digits)).map .int,
      (sign text).2 + digits.length) := by
  have whole : (digits ++ after).takeWhile isDigit = digits := by
    rw [List.takeWhile_append_of_pos spelled]
    cases after with
    | nil => exact List.append_nil _
    | cons char others =>
        rw [List.takeWhile_cons_of_neg (by simp [(ends char rfl).1]), List.append_nil]
  have based : based? text = none :=
    based?_of_digits unsigned spelled some_ fun char given => (ends char given).2.1
  have fraction : fraction? text = none := by
    have exponent : power after = (0, 0) :=
      power_of_head?_ne (fun letter => (ends 'e' letter).2.2.2.1 rfl)
        fun letter => (ends 'E' letter).2.2.2.2 rfl
    simp only [fraction?, unsigned, whole, List.drop_left]
    split
    · exact absurd rfl (ends '.' rfl).2.2.1
    · simp [exponent]
  have integer : integer? text = some ((Digit.signed? (sign text).1
      (Digit.number 10 digits)).map .int, (sign text).2 + digits.length) := by
    simp [integer?, unsigned, whole, some_]
  simp [plain?, based, fraction, integer]

theorem forall_digit {test : Char → Bool} (all : "0123456789".toList.all test = true) {char : Char}
    (digit : isDigit char = true) : test char = true := by
  have bounds := (Digit.isOf_ten_iff char).1 digit
  have listed : ∀ code < 10, Char.ofNat (48 + code) ∈ "0123456789".toList := by decide
  have code : 48 + (char.toNat - 48) = char.toNat := by omega
  have member := listed (char.toNat - 48) (by omega)
  rw [code, Char.ofNat_toNat] at member
  exact List.all_eq_true.1 all char member

/-- No name of a special number begins like that. -/
def isCommon (first : Char) : Bool :=
  !sameUpper first '+' && !sameUpper first '-' && !sameUpper first 'I' && !sameUpper first 'N'

theorem special?_of_isCommon {first : Char} (common : isCommon first = true)
    (others : List Char) : special? (first :: others) = none := by
  simp only [isCommon, Bool.and_eq_true, Bool.not_eq_true'] at common
  obtain ⟨⟨⟨plus, minus⟩, infinity⟩, none⟩ := common
  simp [special?, Keyword.length?, Keyword.wordsLength?, Keyword.wordLength?,
    Keyword.positiveInfinity, Keyword.negativeInfinity, Keyword.infinity, Keyword.notANumber,
    plus, minus, infinity, none]

theorem special?_of_digit {first : Char} (digit : isDigit first = true) (others : List Char) :
    special? (first :: others) = none ∧ special? ('-' :: first :: others) = none := by
  have common : isCommon first = true := forall_digit (by decide) digit
  refine ⟨special?_of_isCommon common others, ?_⟩
  have minus : sameUpper '-' '+' = false ∧ sameUpper '-' 'I' = false ∧
      sameUpper '-' 'N' = false ∧ sameUpper '-' '-' = true := by decide
  simp only [isCommon, Bool.and_eq_true, Bool.not_eq_true'] at common
  simp [special?, Keyword.length?, Keyword.wordsLength?, Keyword.wordLength?,
    Keyword.positiveInfinity, Keyword.negativeInfinity, Keyword.infinity, Keyword.notANumber,
    common, minus]

/-- A text begins like a written number: with a digit, or with a minus and a digit. -/
inductive Begins : List Char → Prop where
  | digit {first : Char} (digit : isDigit first = true) (others : List Char) :
      Begins (first :: others)
  | minus {first : Char} (digit : isDigit first = true) (others : List Char) :
      Begins ('-' :: first :: others)

theorem numeral_eq_found_iff {chars : List Char} {number : Number} {length : Nat}
    (begins : Begins chars) : numeral chars = .found number length ↔
      plain? chars = some (some number, length) ∧ isWordEnd (chars.drop length) = true := by
  have none : special? chars = none := by
    cases begins with
    | digit digit others => exact (special?_of_digit digit others).1
    | minus digit others => exact (special?_of_digit digit others).2
  have ahead : isAhead chars = true := by
    cases begins with
    | digit digit others => simp [isAhead, digit]
    | minus digit others => simp [isAhead, digit]
  simp only [numeral, none, ahead, if_true]
  split
  · simp [*]
  · simp [*]
  · rename_i plain
    simp only [plain, Option.some.injEq, Prod.mk.injEq]
    split
    · rename_i ends
      refine ⟨fun found => ?_, fun ⟨⟨same, length⟩, _⟩ => by rw [same, length]⟩
      cases found
      exact ⟨⟨rfl, rfl⟩, ends⟩
    · rename_i continues
      refine ⟨fun found => (by cases found), ?_⟩
      rintro ⟨⟨-, rfl⟩, ends⟩
      exact absurd ends continues

theorem signed?_toInt {value : Int64} {negative : Bool} {size : Nat}
    (shown : (if negative then -size else size : Int) = value.toInt) :
    Digit.signed? negative size = some value := by
  have least := value.minValue_le_toInt
  have most := value.toInt_le
  simp only [Digit.signed?, shown, least, most, and_self, if_true, Int64.ofInt_toInt]

end Numeral

/-- What is no special number and does not begin like another is no numeral. -/
theorem numeral_of_head {chars : List Char} (none : Numeral.special? chars = none)
    (head : ∀ char ∈ chars.head?, (!Numeral.isDigit char && !"+-.".toList.contains char) = true) :
    numeral chars = .absent := by
  have ahead : Numeral.isAhead chars = false := by
    cases chars with
    | nil => simp [Numeral.isAhead, none]
    | cons first others =>
        have other := head first rfl
        simp_all [Numeral.isAhead]
  rw [numeral, none, ahead]
  rfl

/-- A numeral that takes up all of a text is read before what ends a value. -/
theorem numeral_append {text rest : List Char} {number : Number} (stops : Stops rest)
    (found : numeral text = .found number text.length) :
    numeral (text ++ rest) = .found number text.length := by
  unfold numeral at found ⊢
  rw [Numeral.special?_append stops.breaks]
  split at found
  · exact found
  · split at found
    · rename_i ahead
      have some_ : text ≠ [] := by
        rintro rfl
        cases ahead
      rw [if_pos (Numeral.isAhead_append stops ahead), Numeral.plain?_append stops.quiet some_]
      split at found
      · cases found
      · cases found
      · split at found
        · cases found
          simp only [List.drop_left, stops.isWordEnd, if_true]
        · cases found
    · cases found

namespace Numeral

open Plain

theorem quote_not_mem_take_sign (chars : List Char) : '\'' ∉ chars.take (sign chars).2 := by
  unfold sign
  split <;> simp

theorem quote_not_mem_take_power (chars : List Char) : '\'' ∉ chars.take (power chars).2 := by
  have after {letter : Char} (unquoted : letter ≠ '\'') (rest : List Char) :
      '\'' ∉ (letter :: rest).take (powerAfter rest).2 := by
    simp only [powerAfter]
    split
    · exact List.not_mem_nil
    · refine quote_not_mem_take_add (quote_not_mem_take_add (by simpa using unquoted.symm) ?_) ?_
      · exact quote_not_mem_take_sign rest
      · rw [Nat.add_comm 1, List.drop_succ_cons]
        exact quote_not_mem_take_takeWhile (by decide) _
  unfold power
  split
  · exact after (by decide) _
  · exact after (by decide) _
  · exact List.not_mem_nil

theorem quote_not_mem_take_based? {chars : List Char} {number : Option Number} {length : Nat}
    (found : based? chars = some (number, length)) : '\'' ∉ chars.take length := by
  simp only [based?] at found
  split at found
  · rename_i letter rest spelled
    obtain ⟨base, isBase, found⟩ := Option.bind_eq_some_iff.1 found
    have unquoted : '\'' ≠ letter := by
      rintro rfl
      cases isBase
    split at found
    · cases found
    · cases found
      rw [Nat.add_assoc]
      refine quote_not_mem_take_add (quote_not_mem_take_sign chars) ?_
      rw [spelled]
      refine quote_not_mem_take_add (by simp [unquoted]) ?_
      exact quote_not_mem_take_takeWhile (by decide) rest
  · cases found

theorem quote_not_mem_take_fraction? {chars : List Char} {number : Number} {length : Nat}
    (found : fraction? chars = some (number, length)) : '\'' ∉ chars.take length := by
  simp only [fraction?] at found
  have whole : '\'' ∉ (chars.drop (sign chars).2).take
      ((chars.drop (sign chars).2).takeWhile isDigit).length :=
    quote_not_mem_take_takeWhile (by decide) _
  split at found
  · rename_i rest pointed
    split at found
    · cases found
    · cases found
      rw [Nat.add_assoc, Nat.add_assoc, Nat.add_assoc]
      refine quote_not_mem_take_add (quote_not_mem_take_sign chars) ?_
      refine quote_not_mem_take_add whole ?_
      rw [pointed]
      refine quote_not_mem_take_add (by simp) (quote_not_mem_take_add ?_ ?_)
      · exact quote_not_mem_take_takeWhile (by decide) rest
      · exact quote_not_mem_take_power _
  · split at found
    · cases found
    · cases found
      rw [Nat.add_assoc]
      refine quote_not_mem_take_add (quote_not_mem_take_sign chars) ?_
      exact quote_not_mem_take_add whole (quote_not_mem_take_power _)

theorem quote_not_mem_take_integer? {chars : List Char} {number : Option Number} {length : Nat}
    (found : integer? chars = some (number, length)) : '\'' ∉ chars.take length := by
  simp only [integer?] at found
  split at found
  · cases found
  · cases found
    refine quote_not_mem_take_add (quote_not_mem_take_sign chars) ?_
    exact quote_not_mem_take_takeWhile (by decide) _

theorem quote_not_mem_take_plain? {chars : List Char} {number : Option Number} {length : Nat}
    (found : plain? chars = some (number, length)) : '\'' ∉ chars.take length := by
  simp only [plain?, Option.orElse_eq_some, Option.map_eq_some_iff] at found
  rcases found with based | ⟨-, ⟨⟨value, count⟩, fraction, same⟩ | ⟨-, integer⟩⟩
  · exact quote_not_mem_take_based? based
  · cases same
    exact quote_not_mem_take_fraction? fraction
  · exact quote_not_mem_take_integer? integer

theorem quote_not_mem_take_special? {chars : List Char} {value : Float} {length : Nat}
    (found : special? chars = some (value, length)) : '\'' ∉ chars.take length := by
  have named {keyword : Keyword} (lettered : keyword.isLettered = true) {named : Float}
      (found : (keyword.length? chars).map (named, ·) = some (value, length)) :
      '\'' ∉ chars.take length := by
    obtain ⟨count, spelled, same⟩ := Option.map_eq_some_iff.1 found
    cases same
    exact Keyword.quote_not_mem lettered spelled
  simp only [special?, Option.orElse_eq_some] at found
  rcases found with above | ⟨-, below | ⟨-, unsigned | ⟨-, none⟩⟩⟩
  · exact named (by decide) above
  · exact named (by decide) below
  · exact named (by decide) unsigned
  · exact named (by decide) none

end Numeral

/-- A numeral holds no quotes. -/
theorem quote_not_mem_of_numeral {chars : List Char} {number : Number} {length : Nat}
    (found : numeral chars = .found number length) : '\'' ∉ chars.take length := by
  unfold numeral at found
  split at found
  · cases found
    exact Numeral.quote_not_mem_take_special? ‹_›
  · split at found
    · split at found
      · cases found
      · cases found
      · split at found
        · cases found
          exact Numeral.quote_not_mem_take_plain? ‹_›
        · cases found
    · cases found

namespace Numeral

theorem toString_eq (value : Int) : (toString value).toList =
    if value < 0 then '-' :: Nat.toDigits 10 value.natAbs else Nat.toDigits 10 value.natAbs := by
  rw [Int.toString_eq_repr, Int.repr_eq_if]
  split
  · rename_i positive
    rw [if_neg (by omega), Nat.toList_repr, show value.toNat = value.natAbs by omega]
  · rename_i negative
    rw [if_pos (by omega), String.toList_append, Nat.toList_repr,
      show (-value).toNat = value.natAbs by omega]
    rfl

theorem begins_toDigits (number : Nat) :
    Begins (Nat.toDigits 10 number) ∧ Begins ('-' :: Nat.toDigits 10 number) := by
  have digits := List.all_eq_true.1 (Digit.all_toDigits number)
  obtain ⟨first, others, spelled⟩ := List.exists_cons_of_ne_nil
    (Nat.toDigits_ne_nil (n := number) (b := 10))
  have digit := digits first (by simp [spelled])
  rw [spelled]
  exact ⟨.digit digit others, .minus digit others⟩

theorem begins_toString (value : Int) : Begins (toString value).toList := by
  obtain ⟨plain, signed⟩ := begins_toDigits value.natAbs
  rw [toString_eq]
  split
  · exact signed
  · exact plain

theorem sign_toDigits (number : Nat) : sign (Nat.toDigits 10 number) = (false, 0) := by
  have digits := List.all_eq_true.1 (Digit.all_toDigits number)
  have absent {mark : Char} (other : Digit.isOf 10 mark = false) :
      (Nat.toDigits 10 number).head? ≠ some mark := by
    intro head
    rw [digits mark (List.mem_of_head? head)] at other
    cases other
  exact sign_of_head?_ne (absent (by decide)) (absent (by decide))

end Numeral

/-- An integer in print is read as this integer. -/
theorem numeral_toString (value : Int64) :
    numeral (toString value.toInt).toList =
      .found (.int value) (toString value.toInt).toList.length := by
  have digits := List.all_eq_true.1 (Digit.all_toDigits value.toInt.natAbs)
  have some_ := Nat.toDigits_ne_nil (n := value.toInt.natAbs) (b := 10)
  rw [Numeral.numeral_eq_found_iff (Numeral.begins_toString _), List.drop_length,
    Numeral.toString_eq]
  refine ⟨?_, rfl⟩
  split
  · rename_i negative
    have shown : (if true then -value.toInt.natAbs else value.toInt.natAbs : Int) =
        value.toInt := by
      simp only [if_true]
      omega
    have sign : Numeral.sign ('-' :: Nat.toDigits 10 value.toInt.natAbs) = (true, 1) := rfl
    have unsigned : ('-' :: Nat.toDigits 10 value.toInt.natAbs).drop
        (Numeral.sign ('-' :: Nat.toDigits 10 value.toInt.natAbs)).2 =
          Nat.toDigits 10 value.toInt.natAbs ++ [] := by simp [sign]
    rw [Numeral.plain?_of_digits unsigned digits some_ (by simp), sign,
      Digit.number_toDigits, Numeral.signed?_toInt shown, List.length_cons, Nat.add_comm]
    rfl
  · rename_i positive
    have shown : (if false then -value.toInt.natAbs else value.toInt.natAbs : Int) =
        value.toInt := by
      simp only [Bool.false_eq_true, if_false]
      omega
    have sign := Numeral.sign_toDigits value.toInt.natAbs
    have unsigned : (Nat.toDigits 10 value.toInt.natAbs).drop
        (Numeral.sign (Nat.toDigits 10 value.toInt.natAbs)).2 =
          Nat.toDigits 10 value.toInt.natAbs ++ [] := by simp [sign]
    rw [Numeral.plain?_of_digits unsigned digits some_ (by simp), sign,
      Digit.number_toDigits, Numeral.signed?_toInt shown, Nat.zero_add]
    rfl

end ObjectQuery
