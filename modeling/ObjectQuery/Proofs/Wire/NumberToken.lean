import Mathlib.Data.List.TakeWhile
import Mathlib.Tactic.Ring
import ObjectQuery.Proofs.Lexical.Digit
import ObjectQuery.Proofs.Step
import ObjectQuery.Wire.NumberToken

namespace ObjectQuery

/-! Numbers of a document, which are read up to where they end. -/

namespace NumberToken

def Ends (rest : List Char) : Prop :=
  ∀ char ∈ rest.head?, isDigit char = false ∧ char ≠ '.' ∧ char ≠ 'e' ∧ char ≠ 'E'

theorem Ends.stops {rest : List Char} (ends : Ends rest) : rest.head?.any isDigit = false := by
  cases head : rest.head? with
  | none => rfl
  | some char => simpa using (ends char head).1

/-- What a part takes of a text it takes before anything that continues no number. -/
def Local (part : Place → Except Nat (α × Place)) : Prop :=
  ∀ ⦃text rest : List Char⦄ ⦃line other : Nat⦄ ⦃value : α⦄ ⦃place : Place⦄, Ends rest →
    part ⟨text, line⟩ = .ok (value, place) →
      part ⟨text ++ rest, other⟩ = .ok (value, ⟨place.ahead ++ rest, other⟩)

theorem digits_local : Local digits := by
  intro text rest line other value place ends found
  have same : (text ++ rest).takeWhile isDigit = text.takeWhile isDigit :=
    Digit.takeWhile_append text ends.stops
  have within := (List.takeWhile_sublist isDigit (l := text)).length_le
  simp only [digits, same] at found ⊢
  split at found
  · cases found
  · rename_i some
    cases found
    rw [if_neg some]
    simp [Place.advance, List.drop_append_of_le_length within]

theorem Local.map {α β : Type} {part : Place → Except Nat (α × Place)} (isLocal : Local part)
    (f : α → β) :
    Local fun place => (part place).map fun taken => (f taken.1, taken.2) := by
  intro text rest line other value place ends found
  obtain ⟨⟨read, after⟩, taken, same⟩ := Except.map_eq_ok_iff.1 found
  cases same
  simp only [isLocal ends taken, Except.map]

theorem Local.pure {α : Type} (value : α) : Local fun place => Except.ok (value, place) := by
  intro text rest line other read place ends found
  cases found
  rfl

theorem Local.bind {α β : Type} {part : Place → Except Nat (α × Place)}
    {next : α → Place → Except Nat (β × Place)} (isLocal : Local part)
    (nextLocal : ∀ value, Local (next value)) :
    Local fun place => part place >>= fun taken => next taken.1 taken.2 := by
  intro text rest line other value place ends found
  obtain ⟨⟨read, after⟩, taken, found⟩ := Except.bind_eq_ok_iff.1 found
  simp only [isLocal ends taken]
  exact nextLocal read ends found

theorem whole_of_ne {first : Char} (others : List Char) (line : Nat) (positive : first ≠ '0') :
    whole ⟨first :: others, line⟩ = digits ⟨first :: others, line⟩ := by
  unfold whole
  split
  · rename_i zero
    exact absurd (List.cons.inj zero).1 positive
  · rfl

theorem whole_local : Local whole := by
  intro text rest line other value place ends found
  cases text with
  | nil => cases found
  | cons first others =>
      by_cases zero : first = '0'
      · subst zero
        have alone : others.head?.any isDigit = false := by
          simp only [whole] at found
          split at found
          · cases found
          · simp_all
        have together : (others ++ rest).head?.any isDigit = false := by
          cases others with
          | nil => exact ends.stops
          | cons next others => exact alone
        simp only [whole, List.cons_append, alone, together, Bool.false_eq_true, if_false]
          at found ⊢
        cases found
        rfl
      · rw [whole_of_ne others line zero] at found
        rw [List.cons_append, whole_of_ne _ other zero]
        exact digits_local ends found

theorem fraction_local : Local fraction := by
  intro text rest line other value place ends found
  cases text with
  | nil =>
      cases found
      have plain : rest.head? ≠ some '.' := fun point => (ends '.' point).2.1 rfl
      simp [fraction, plain]
  | cons first others =>
      by_cases point : first = '.'
      · subst point
        exact digits_local.map some ends found
      · simp only [fraction, List.cons_append, List.head?_cons, Option.some.injEq, point,
          if_false] at found ⊢
        cases found
        rfl

def signedPower (negative : Bool) (place : Place) : Except Nat (Option Int × Place) :=
  (digits place).map fun taken =>
    (some (if negative then -(Digit.number 10 taken.1 : Int) else Digit.number 10 taken.1),
      taken.2)

/-- A power of ten after its letter, with a sign or without. -/
def powerAfter (place : Place) : Except Nat (Option Int × Place) :=
  match place.ahead with
  | '-' :: _ => signedPower true (place.advance 1)
  | '+' :: _ => signedPower false (place.advance 1)
  | _ => signedPower false place

theorem power_of_letter {letter : Char} (isLetter : letter = 'e' ∨ letter = 'E')
    (others : List Char) (line : Nat) :
    power ⟨letter :: others, line⟩ = powerAfter ⟨others, line⟩ := by
  rcases isLetter with rfl | rfl
  · rfl
  · rfl

theorem power_of_ne {first : Char} (plain : ¬(first = 'e' ∨ first = 'E')) (others : List Char)
    (line : Nat) : power ⟨first :: others, line⟩ = .ok (none, ⟨first :: others, line⟩) := by
  unfold power
  split
  · simp_all
  · simp_all
  · rfl

theorem signedPower_local (negative : Bool) : Local (signedPower negative) :=
  digits_local.map fun read =>
    some (if negative then -(Digit.number 10 read : Int) else Digit.number 10 read)

theorem powerAfter_local : Local powerAfter := by
  intro text rest line other value place ends found
  cases text with
  | nil => cases found
  | cons first others =>
      by_cases minus : first = '-'
      · subst minus
        exact signedPower_local true ends found
      · by_cases plus : first = '+'
        · subst plus
          exact signedPower_local false ends found
        · have unsigned (others : List Char) (line : Nat) :
              powerAfter ⟨first :: others, line⟩ = signedPower false ⟨first :: others, line⟩ := by
            unfold powerAfter
            split
            · simp_all
            · simp_all
            · rfl
          rw [unsigned] at found
          rw [List.cons_append, unsigned]
          exact signedPower_local false ends found

theorem power_local : Local power := by
  intro text rest line other value place ends found
  cases text with
  | nil =>
      cases found
      cases rest with
      | nil => rfl
      | cons first others =>
          obtain ⟨-, -, small, capital⟩ := ends first rfl
          exact power_of_ne (not_or.2 ⟨small, capital⟩) others other
  | cons first others =>
      by_cases letter : first = 'e' ∨ first = 'E'
      · rw [power_of_letter letter] at found
        rw [List.cons_append, power_of_letter letter]
        exact powerAfter_local ends found
      · rw [power_of_ne letter] at found
        rw [List.cons_append, power_of_ne letter]
        cases found
        rfl

def unsignedParts (negative : Bool) (place : Place) : Except Nat (Parts × Place) := do
  let (whole, place) ← whole place
  let (fraction, place) ← fraction place
  let (power, place) ← power place
  return (⟨negative, whole, fraction, power⟩, place)

theorem unsignedParts_local (negative : Bool) : Local (unsignedParts negative) :=
  whole_local.bind fun _ => fraction_local.bind fun _ => power_local.bind fun _ => .pure _

theorem parts_of_ne {first : Char} (plain : first ≠ '-') (others : List Char) (line : Nat) :
    parts ⟨first :: others, line⟩ = unsignedParts false ⟨first :: others, line⟩ := by
  have unsigned : (some first == some '-') = false := by simpa using plain
  simp only [parts, unsignedParts, List.head?_cons, unsigned, Bool.false_eq_true, if_false]

theorem parts_local : Local parts := by
  intro text rest line other value place ends found
  cases text with
  | nil => cases found
  | cons first others =>
      by_cases minus : first = '-'
      · subst minus
        exact unsignedParts_local true ends found
      · rw [parts_of_ne minus] at found
        rw [List.cons_append, parts_of_ne minus]
        exact unsignedParts_local false ends found

theorem read_local : Local read :=
  parts_local.map ofParts

theorem absorb_eq {digits : List Char} {start : Nat}
    (fits : start * 10 ^ digits.length + Digit.number 10 digits < UInt64.size) :
    absorb start digits = (start * 10 ^ digits.length + Digit.number 10 digits, []) := by
  induction digits generalizing start with
  | nil => simp [absorb, Digit.number]
  | cons digit rest induction =>
      have regroup : start * 10 ^ (digit :: rest).length + Digit.number 10 (digit :: rest) =
          (start * 10 + Digit.number 10 [digit]) * 10 ^ rest.length + Digit.number 10 rest := by
        rw [← List.singleton_append, Digit.number_append, List.length_append,
          List.length_singleton, Nat.pow_add, Nat.pow_eq, Nat.add_mul]
        ring
      have least : start * 10 + Digit.number 10 [digit] ≤
          (start * 10 + Digit.number 10 [digit]) * 10 ^ rest.length :=
        Nat.le_mul_of_pos_right _ (Nat.pow_pos (by decide))
      rw [regroup] at fits ⊢
      rw [absorb, if_pos (by omega), induction fits]

theorem unsignedParts_toDigits (negative : Bool) (number line : Nat) :
    unsignedParts negative ⟨Nat.toDigits 10 number, line⟩ =
      .ok (⟨negative, Nat.toDigits 10 number, none, none⟩, ⟨[], line⟩) := by
  have taken : whole ⟨Nat.toDigits 10 number, line⟩ =
      .ok (Nat.toDigits 10 number, ⟨[], line⟩) := by
    have all : (Nat.toDigits 10 number).takeWhile isDigit = Nat.toDigits 10 number :=
      List.takeWhile_eq_self_iff.2 (List.all_eq_true.1 (Digit.all_toDigits number))
    obtain ⟨first, others, spelled⟩ := List.exists_cons_of_ne_nil
      (Nat.toDigits_ne_nil (n := number) (b := 10))
    by_cases zero : first = '0'
    · subst zero
      have zero := Digit.toDigits_eq_zero_cons spelled
      subst zero
      rfl
    · rw [spelled] at all ⊢
      rw [whole_of_ne others line zero, digits]
      simp [all, Place.advance]
  simp [unsignedParts, taken]
  rfl

theorem absorb_toDigits {number : Nat} (fits : number < UInt64.size) :
    absorb 0 (Nat.toDigits 10 number) = (number, []) := by
  have total : 0 * 10 ^ (Nat.toDigits 10 number).length +
      Digit.number 10 (Nat.toDigits 10 number) = number := by
    rw [Digit.number_toDigits, Nat.zero_mul, Nat.zero_add]
  rw [absorb_eq (total.symm ▸ fits), total]

theorem parts_toDigits (number line : Nat) :
    parts ⟨Nat.toDigits 10 number, line⟩ =
      .ok (⟨false, Nat.toDigits 10 number, none, none⟩, ⟨[], line⟩) := by
  obtain ⟨first, others, spelled⟩ := List.exists_cons_of_ne_nil
    (Nat.toDigits_ne_nil (n := number) (b := 10))
  have plain : first ≠ '-' := by
    rintro rfl
    have digits := Digit.all_toDigits number
    rw [spelled] at digits
    exact absurd (List.all_eq_true.1 digits '-' (by simp)) (by decide)
  rw [spelled, parts_of_ne plain, ← spelled, unsignedParts_toDigits]

/-- A whole number that 64 bits hold, with a sign or without, is read. -/
theorem read_toString {value : Int} (least : Int64.minValue.toInt ≤ value)
    (most : value < UInt64.size) (line : Nat) :
    read ⟨(toString value).toList, line⟩ = .ok (.int value, ⟨[], line⟩) := by
  have bits : Int64.minValue.toInt = -9223372036854775808 := by decide
  have size : (UInt64.size : Int) = 18446744073709551616 := by decide
  rw [Int.toString_eq_repr, Int.repr_eq_if]
  split
  · rename_i positive
    have fits : value.toNat < UInt64.size := by omega
    simp [read, parts_toDigits, ofParts, absorb_toDigits fits, Except.map, positive]
  · rename_i negative
    have fits : (-value).toNat < UInt64.size := by
      have : UInt64.size = 18446744073709551616 := by decide
      omega
    have signed : parts ⟨'-' :: Nat.toDigits 10 (-value).toNat, line⟩ =
        .ok (⟨true, Nat.toDigits 10 (-value).toNat, none, none⟩, ⟨[], line⟩) :=
      unsignedParts_toDigits true _ line
    have held : ¬((-value).toNat = 0 ∨ value < Int64.minValue.toInt) := by omega
    have back : -((-value).toNat : Int) = value := by omega
    simp only [read, String.toList_append, Nat.toList_repr]
    rw [show "-".toList = ['-'] from rfl, List.singleton_append, signed]
    simp only [Except.map, ofParts, absorb_toDigits fits, Option.isNone_none, List.isEmpty_nil,
      Bool.and_self, Bool.not_true, Bool.false_eq_true, if_true, if_false, held, back]

end NumberToken

end ObjectQuery
