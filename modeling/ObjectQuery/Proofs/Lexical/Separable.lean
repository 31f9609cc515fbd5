import ObjectQuery.Proofs.Lexical.Halt
import ObjectQuery.Proofs.Lexical.Moment

namespace ObjectQuery

/-! Relative dates, numerals and moments, which are over where a blank or a comment begins. -/

variable {text rest : List Char}

/-- What holds no quote stops before the quote that follows the text. -/
theorem length_le_of_quote_not_mem {count : Nat} (unquoted : '\'' ∉ (text ++ ['\'']).take count) :
    count ≤ text.length := by
  by_contra past
  refine unquoted (List.mem_of_getElem? (i := text.length) ?_)
  rw [List.getElem?_take_of_lt (by omega), List.getElem?_concat_length]

namespace RelativeDate

theorem readCount_of_head?_ne (other : text.head? ≠ some ':') : readCount text = .ok (0, 0) := by
  unfold readCount
  split
  · exact absurd rfl other
  · rfl

theorem readCount_halts (halts : Halts rest) : readCount (text ++ rest) = readCount text := by
  cases text with
  | nil =>
      have none : readCount [] = .ok (0, 0) := rfl
      rw [none]
      exact readCount_of_head?_ne (halts.head?_ne (by decide))
  | cons char others =>
      by_cases colon : char = ':'
      · subst colon
        have taken : (others ++ rest).takeWhile Numeral.isDigit = others.takeWhile Numeral.isDigit :=
          halts.takeWhile_append (by decide) others
        have inside := (List.takeWhile_sublist Numeral.isDigit (l := others)).length_le
        simp only [List.cons_append, readCount, taken, isWordEnd_drop inside halts.isWordEnd]
      · rw [List.cons_append, readCount_of_head?_ne (by simpa using colon),
          readCount_of_head?_ne (by simpa using colon)]

theorem isWordEnd_of_readCount {value : Int64} {count : Nat}
    (found : readCount text = .ok (value, count)) :
    count = 0 ∨ count ≤ text.length ∧ isWordEnd (text.drop count) = true := by
  unfold readCount at found
  split at found
  · rename_i others
    dsimp only at found
    split at found
    · cases found
    · rename_i more
      simp only [Bool.or_eq_true, not_or, Bool.not_eq_true', Bool.not_eq_false] at more
      split at found
      · cases found
        exact .inr ⟨Nat.succ_le_succ (List.takeWhile_sublist _).length_le, more.2⟩
      · cases found
  · cases found
    exact .inl rfl

end RelativeDate

theorem relativeDate_halts (halts : Halts rest) : relativeDate (text ++ rest) = relativeDate text := by
  have taken : (text ++ rest).takeWhile isWordChar = text.takeWhile isWordChar :=
    halts.takeWhile_append (by decide) text
  have inside := (List.takeWhile_sublist isWordChar (l := text)).length_le
  have ahead : ((text ++ rest).head?.any fun char => char.isAlpha || char == '_') =
      text.head?.any fun char => char.isAlpha || char == '_' := by
    cases text with
    | nil => exact halts.head?_any (by decide)
    | cons char others => rfl
  simp only [relativeDate, ahead, taken, List.drop_append_of_le_length inside,
    RelativeDate.readCount_halts halts]

theorem isWordEnd_of_relativeDate {value : RelativeDate} {count : Nat}
    (found : relativeDate text = .found value count) :
    count ≤ text.length ∧ isWordEnd (text.drop count) = true := by
  have inside := (List.takeWhile_sublist isWordChar (l := text)).length_le
  have past := isWordEnd_drop_takeWhile text
  unfold relativeDate at found
  split at found
  · dsimp only at found
    split at found
    · cases found
    · rename_i keyword counts _
      split at found
      · rename_i number length counted
        cases found
        cases counts with
        | false =>
            cases counted
            exact ⟨inside, past⟩
        | true =>
            rcases RelativeDate.isWordEnd_of_readCount counted with rfl | ⟨fits, ends⟩
            · exact ⟨inside, past⟩
            · rw [List.length_drop] at fits
              rw [List.drop_drop] at ends
              exact ⟨by omega, ends⟩
      · cases found
  · cases found

theorem separable_relativeDate : Separable relativeDate where
  append _ _ parted := relativeDate_halts parted.halts
  length_le _ _ _ found := (isWordEnd_of_relativeDate found).1
  ends _ _ _ found := .inl (isWordEnd_of_relativeDate found).2

theorem Halts.quiet (halts : Halts rest) : Quiet rest where
  head := by
    obtain ⟨char, others, rfl, known⟩ := halts.exists_cons
    have all : haltChars.all (" ,)-/'\"".toList.contains ·) = true := by decide
    rintro _ ⟨⟩
    exact List.all_eq_true.1 all char known
  second := by
    rintro others rfl
    rcases halts with _ | ⟨⟨_⟩ | _⟩
    rfl

namespace Numeral

/-- The one name of a number that begins with a minus is over before a comment too. -/
theorem negativeInfinity_halts (halts : Halts rest) :
    Keyword.negativeInfinity.length? (text ++ rest) = Keyword.negativeInfinity.length? text := by
  refine Keyword.length?_append_of_word ?_ halts.isWordEnd
  cases text with
  | nil => rcases halts with _ | _ | _ | _ | _ <;> rfl
  | cons char others =>
      have steady : Keyword.infinity.isSteady = true := by decide +kernel
      have alien : Keyword.Alien "INFINITY".toList rest :=
        Keyword.alien_of_isSteady steady List.mem_cons_self halts
      have after (chars : List Char) : Keyword.wordLength? "-INFINITY".toList (char :: chars) =
          if sameUpper char '-' then
            (Keyword.wordLength? "INFINITY".toList chars).map (· + 1)
          else none := rfl
      rw [List.cons_append, after, after, Keyword.wordLength?_append alien]

theorem special?_halts (halts : Halts rest) : special? (text ++ rest) = special? text := by
  have single {word : List Char} (steady : Keyword.isSteady ⟨[word], true⟩ = true) :
      Keyword.length? ⟨[word], true⟩ (text ++ rest) = Keyword.length? ⟨[word], true⟩ text :=
    Keyword.length?_append_of_word
      (Keyword.wordLength?_append (Keyword.alien_of_isSteady steady List.mem_cons_self halts))
      halts.isWordEnd
  have above := single (show Keyword.positiveInfinity.isSteady = true by decide +kernel)
  have unsigned := single (show Keyword.infinity.isSteady = true by decide +kernel)
  have none := single (show Keyword.notANumber.isSteady = true by decide +kernel)
  have below : Keyword.negativeInfinity.length? (text ++ rest) = _ := negativeInfinity_halts halts
  simp only [special?, Keyword.positiveInfinity, Keyword.infinity, Keyword.notANumber, above,
    below, unsigned, none]

theorem isAhead_halts (halts : Halts rest) : isAhead (text ++ rest) = isAhead text := by
  simp only [isAhead, special?_halts halts]
  rcases text with _ | ⟨first, _ | ⟨second, others⟩⟩
  · rcases halts with _ | _ | _ | _ | _ <;> rfl
  · have none : (rest.head?.any fun second => isDigit second || second == '.') = false :=
      halts.head?_any (by decide)
    simp [none]
  · rfl

theorem plain?_le {number : Option Number} {count : Nat} (some_ : text ≠ [])
    (found : plain? text = some (number, count)) : count ≤ text.length := by
  rw [← plain?_append (Halts.bars (.text [])).quiet some_] at found
  exact length_le_of_quote_not_mem (quote_not_mem_take_plain? found)

theorem isWordEnd_of_special? {value : Float} {count : Nat}
    (found : special? text = some (value, count)) : isWordEnd (text.drop count) = true := by
  have named {keyword : Keyword} (ends : keyword.ends = true) {named : Float}
      (found : (keyword.length? text).map (named, ·) = some (value, count)) :
      isWordEnd (text.drop count) = true := by
    obtain ⟨length, spelled, same⟩ := Option.map_eq_some_iff.1 found
    cases same
    exact Keyword.ends_of_length? ends spelled
  simp only [special?, Option.orElse_eq_some] at found
  rcases found with above | ⟨-, below | ⟨-, unsigned | ⟨-, none⟩⟩⟩
  · exact named rfl above
  · exact named rfl below
  · exact named rfl unsigned
  · exact named rfl none

end Numeral

theorem numeral_halts (halts : Halts rest) : numeral (text ++ rest) = numeral text := by
  simp only [numeral, Numeral.special?_halts halts, Numeral.isAhead_halts halts]
  split
  · rfl
  · split
    · rename_i ahead
      have some_ : text ≠ [] := by
        rintro rfl
        cases ahead
      rw [Numeral.plain?_append halts.quiet some_]
      cases found : Numeral.plain? text with
      | none => rfl
      | some reading =>
          obtain ⟨_ | number, count⟩ := reading
          · rfl
          · simp only [isWordEnd_drop (Numeral.plain?_le some_ found) halts.isWordEnd]
    · rfl

theorem separable_numeral : Separable numeral where
  append _ _ parted := numeral_halts parted.halts
  length_le text _ _ found := by
    rw [← numeral_halts (.bars (.text []))] at found
    exact length_le_of_quote_not_mem (quote_not_mem_of_numeral found)
  ends text _ _ found := by
    unfold numeral at found
    split at found
    · rename_i special
      cases found
      exact .inl (Numeral.isWordEnd_of_special? special)
    · split at found
      · split at found
        · cases found
        · cases found
        · split at found
          · rename_i ends
            cases found
            exact .inl ends
          · cases found
      · cases found

namespace Moment

namespace Form

variable {α β : Type}

/-- What halts a text is left behind by the form, as it is by the form read on its own. -/
def Halting (form : Form α) : Prop :=
  ∀ ⦃text rest⦄, Halts rest →
    form (text ++ rest) = (form text).map fun taken => (taken.1, taken.2 ++ rest)

namespace Halting

theorem pure (value : α) : Halting (Pure.pure value) :=
  fun _ _ _ => rfl

theorem bind {form : Form α} {next : α → Form β} (first : form.Halting)
    (later : ∀ value, (next value).Halting) : Halting (form >>= next) := by
  intro text rest halts
  rw [bind_apply, bind_apply, first halts]
  cases form text with
  | none => rfl
  | some taken => exact later taken.1 halts

end Halting

theorem digits_minus (count : Nat) (next : Nat → Form β) (rest : List Char) :
    (digits (count + 1) >>= next) ('-' :: rest) = none := by
  have minus : Numeral.isDigit '-' = false := by decide
  simp [bind_apply, digits_apply, minus]

theorem digits_halting (count : Nat) : (digits count).Halting := by
  intro text rest halts
  rw [digits_apply, digits_apply]
  rcases Nat.lt_or_ge text.length count with short | inside
  · obtain ⟨char, others, rfl, known⟩ := halts.exists_cons
    have solid : Numeral.isDigit char = false := by
      have all : haltChars.all (!Numeral.isDigit ·) = true := by decide
      simpa using List.all_eq_true.1 all char known
    have reached : char ∈ (text ++ char :: others).take count := by
      refine List.mem_of_getElem? (i := text.length) ?_
      rw [List.getElem?_take_of_lt short, List.getElem?_append_right (Nat.le_refl _), Nat.sub_self]
      rfl
    have stopped : ((text ++ char :: others).take count).all Numeral.isDigit = false :=
      List.all_eq_false.2 ⟨char, reached, by simp [solid]⟩
    have few : decide ((text.take count).length = count) = false := by
      rw [List.length_take, decide_eq_false_iff_not]
      omega
    rw [stopped, few, Bool.and_false, Bool.false_and]
    rfl
  · rw [List.take_append_of_le_length inside, List.drop_append_of_le_length inside]
    split <;> rfl

theorem oneOf_of_not_mem {marks : List Char} {char : Char} (other : char ∉ marks)
    (rest : List Char) : oneOf marks (char :: rest) = none := by
  simp [oneOf, bind_apply, get_apply, failure_apply, other]

/-- A mark, after which the form does not go on with the second minus of a comment. -/
theorem mark_halting {marks : List Char} {next : Char → Form β}
    (others : haltChars.all (fun char => char == '-' || !marks.contains char) = true)
    (later : ∀ mark, (next mark).Halting) (stops : ∀ rest, next '-' ('-' :: rest) = none) :
    (oneOf marks >>= next).Halting := by
  intro text rest halts
  cases text with
  | nil =>
      have absent : (oneOf marks >>= next) [] = none := rfl
      rw [absent, List.nil_append, bind_apply]
      obtain ⟨first, more, rfl, known⟩ := halts.exists_cons
      by_cases marked : first ∈ marks
      · have minus := List.all_eq_true.1 others first known
        obtain rfl : first = '-' := by simpa [marked] using minus
        rw [oneOf_cons marked, Option.bind_some]
        rcases halts with _ | ⟨⟨_⟩ | _⟩
        exact stops _
      · rw [oneOf_of_not_mem marked]
        rfl
  | cons char chars =>
      rw [List.cons_append, bind_apply, bind_apply]
      by_cases marked : char ∈ marks
      · rw [oneOf_cons marked, oneOf_cons marked]
        exact later char halts
      · rw [oneOf_of_not_mem marked, oneOf_of_not_mem marked]
        rfl

theorem optional_halting {marks : List Char} (apart : haltChars.all (!marks.contains ·) = true) :
    (optional marks).Halting := by
  intro text rest halts
  cases text with
  | nil =>
      obtain ⟨first, more, rfl, known⟩ := halts.exists_cons
      have absent : first ∉ marks := by simpa using List.all_eq_true.1 apart first known
      simp [optional, bind_apply, get_apply, pure_apply, absent]
  | cons char chars =>
      simp only [optional, bind_apply, get_apply, Option.bind_some, List.cons_append]
      split <;> rfl

theorem nano_of_head?_ne {chars : List Char} (other : chars.head? ≠ some '.') :
    nano chars = some (0, chars) := by
  simp only [nano, bind_apply, get_apply, Option.bind_some]
  split
  · exact absurd rfl other
  · rfl

theorem nano_halting : nano.Halting := by
  intro text rest halts
  cases text with
  | nil =>
      rw [List.nil_append, nano_of_head?_ne (halts.head?_ne (by decide)),
        nano_of_head?_ne (by simp)]
      rfl
  | cons char others =>
      by_cases point : char = '.'
      · subst point
        have stops : (rest.take (9 - others.length)).head?.any Numeral.isDigit = false := by
          obtain ⟨first, more, rfl, _⟩ := halts.exists_cons
          cases 9 - others.length with
          | zero => rfl
          | succ fewer => exact halts.head?_any (by decide)
        have taken : ((others ++ rest).take 9).takeWhile Numeral.isDigit =
            (others.take 9).takeWhile Numeral.isDigit := by
          rw [List.take_append]
          exact takeWhile_append_of_head? _ stops
        have inside : ((others.take 9).takeWhile Numeral.isDigit).length ≤ others.length :=
          Nat.le_trans (List.takeWhile_sublist _).length_le (List.take_sublist _ _).length_le
        simp only [nano, bind_apply, get_apply, Option.bind_some, List.cons_append, taken,
          List.drop_append_of_le_length inside]
        split <;> rfl
      · rw [nano_of_head?_ne (by simpa using point), List.cons_append,
          nano_of_head?_ne (by simpa using point)]
        rfl

theorem date_halting : date.Halting :=
  (digits_halting 4).bind fun _ => mark_halting (by decide)
    (fun _ => (digits_halting 2).bind fun _ => mark_halting (by decide)
      (fun _ => (digits_halting 2).bind fun _ => .pure _) (digits_minus 1 _)) (digits_minus 1 _)

theorem clock_halting : clock.Halting :=
  (digits_halting 2).bind fun _ => mark_halting (by decide)
    (fun _ => (digits_halting 2).bind fun _ => mark_halting (by decide)
      (fun _ => (digits_halting 2).bind fun _ => .pure _) (digits_minus 1 _)) (digits_minus 1 _)

theorem zone_halting : zone.Halting := by
  refine mark_halting (by decide) (fun mark => ?_) fun rest => ?_
  · split
    · exact .pure _
    · refine (digits_halting 2).bind fun hours => (optional_halting (by decide)).bind fun _ => ?_
      refine (digits_halting 2).bind fun minutes => ?_
      split
      · exact .pure _
      · exact .pure _
  · rw [if_neg (by decide)]
    exact digits_minus 1 _ rest

end Form

theorem dateTimeForm_halting : dateTimeForm.Halting := by
  refine Form.date_halting.bind fun _ => Form.mark_halting (by decide) (fun _ => ?_) fun rest => ?_
  · exact Form.clock_halting.bind fun _ => Form.nano_halting.bind fun _ =>
      Form.zone_halting.bind fun _ => .pure _
  · have stopped : Form.clock ('-' :: rest) = none := Form.digits_minus 1 _ rest
    rw [Form.bind_apply, stopped]
    rfl

theorem dateForm_halting : dateForm.Halting :=
  Form.date_halting.bind fun _ => .pure _

theorem timeForm_halting : timeForm.Halting :=
  Form.clock_halting.bind fun _ => Form.nano_halting.bind fun _ =>
    (Form.optional_halting (by decide)).bind fun _ => .pure _

theorem read?_halts (halts : Halts rest) :
    read? (text ++ rest) = (read? text).map fun taken => (taken.1, taken.2 ++ rest) := by
  simp only [read?, dateTimeForm_halting halts, dateForm_halting halts, timeForm_halting halts]
  cases dateTimeForm text with
  | some taken => rfl
  | none =>
      cases dateForm text with
      | some taken => rfl
      | none => rfl

end Moment

theorem moment_halts (halts : Halts rest) : moment (text ++ rest) = moment text := by
  unfold moment
  rw [Moment.read?_halts halts]
  cases Moment.read? text with
  | none => rfl
  | some taken =>
      obtain ⟨value, after⟩ := taken
      have ends : isWordEnd (after ++ rest) = isWordEnd after :=
        isWordEnd_drop (Nat.zero_le _) halts.isWordEnd
      have length : (text ++ rest).length - (after ++ rest).length = text.length - after.length := by
        simp only [List.length_append]
        omega
      simp only [Option.map_some, ends, length]

theorem separable_moment : Separable moment where
  append _ _ parted := moment_halts parted.halts
  length_le text _ _ found := by
    rw [← moment_halts (.bars (.text []))] at found
    exact length_le_of_quote_not_mem (exists_of_moment found).2
  ends text _ _ found := by
    unfold moment at found
    split at found
    · cases found
    · rename_i read
      obtain ⟨_, taken, rfl, _⟩ := Moment.read?_yields read
      simp only at found
      split at found
      · rename_i ends
        split at found
        · cases found
          rw [List.length_append, Nat.add_sub_cancel, List.drop_left]
          exact .inl ends
        · cases found
      · cases found

end ObjectQuery
