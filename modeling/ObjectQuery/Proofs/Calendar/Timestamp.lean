import Mathlib.Data.List.TakeWhile
import Mathlib.Tactic.IntervalCases
import Mathlib.Tactic.MkIffOfInductiveProp
import ObjectQuery.Calendar.Instant
import ObjectQuery.Calendar.Timestamp
import ObjectQuery.Proofs.Lexical.Digit

namespace ObjectQuery

/-! Days by their numbers, and back. -/

namespace CivilDate

theorem daysInMonth_le (year : Int) (month : Nat) : daysInMonth year month ≤ 31 := by
  unfold daysInMonth
  split
  · split <;> decide
  · split <;> decide

/--
A day of a cycle of four hundred years by centuries, spans of four years and
years, all counted from March. The last day of a leap year is the day 365.
-/
structure CycleDay (number century span year day : Int) : Prop where
  sum : number = 36524 * century + 1461 * span + 365 * year + day
  centuries : 0 ≤ century ∧ century ≤ 3
  spans : 0 ≤ span ∧ span ≤ 24
  years : 0 ≤ year ∧ year ≤ 3
  days : 0 ≤ day ∧ day ≤ 365
  leap : day = 365 → year = 3 ∧ (span < 24 ∨ century = 3)

theorem exists_cycleDay {number : Int} (least : 0 ≤ number) (most : number < 146097) :
    ∃ century span year day, CycleDay number century span year day := by
  by_cases last : number = 146096
  · exact ⟨3, 24, 3, 365, by omega, by omega, by omega, by omega, by omega, by omega⟩
  · by_cases leap : number % 36524 % 1461 = 1460
    · exact ⟨number / 36524, number % 36524 / 1461, 3, 365, by omega, by omega, by omega,
        by omega, by omega, by omega⟩
    · exact ⟨number / 36524, number % 36524 / 1461, number % 36524 % 1461 / 365,
        number % 36524 % 1461 % 365, by omega, by omega, by omega, by omega, by omega, by omega⟩

theorem CycleDay.year_eq {number century span year day : Int}
    (split : CycleDay number century span year day) :
    (number - number / 1460 + number / 36524 - number / 146096) / 365 =
      100 * century + 4 * span + year := by
  obtain ⟨sum, centuries, spans, years, days, leap⟩ := split
  by_cases last : number = 146096
  · omega
  · have cycle : number / 146096 = 0 := by omega
    have hundreds : number / 36524 = century := by omega
    by_cases late : 1460 ≤ 24 * century + span + 365 * year + day
    · have fours : number / 1460 = 25 * century + span + 1 := by omega
      omega
    · have fours : number / 1460 = 25 * century + span := by omega
      omega

theorem CycleDay.day_eq {number century span year day : Int}
    (split : CycleDay number century span year day) :
    number - (365 * (100 * century + 4 * span + year) + (100 * century + 4 * span + year) / 4 -
      (100 * century + 4 * span + year) / 100) = day := by
  obtain ⟨rfl, centuries, spans, years, days, leap⟩ := split
  omega

/-- The month and its days, from March on, that a day of a year lies in. -/
theorem month_split {day : Int} (least : 0 ≤ day) (most : day ≤ 365) :
    0 ≤ (5 * day + 2) / 153 ∧ (5 * day + 2) / 153 ≤ 11 ∧
      (153 * ((5 * day + 2) / 153) + 2) / 5 ≤ day := by
  omega

/-- A day by its number in a year counted from March. -/
theorem ofDayNumber_eq (number : Int) :
    ∃ century span year day, CycleDay ((number + 719468) % 146097) century span year day ∧
      ofDayNumber number =
        let month := (5 * day + 2) / 153
        let start := 100 * century + 4 * span + year + (number + 719468) / 146097 * 400
        { year := if month < 10 then start else start + 1
          month := (if month < 10 then month + 3 else month - 9).toNat
          day := (day - (153 * month + 2) / 5 + 1).toNat } := by
  have least : 0 ≤ (number + 719468) % 146097 := by omega
  have most : (number + 719468) % 146097 < 146097 := by omega
  obtain ⟨century, span, year, day, split⟩ := exists_cycleDay least most
  refine ⟨century, span, year, day, split, ?_⟩
  simp only [ofDayNumber, split.year_eq, split.day_eq]

theorem isValid_ofDayNumber (number : Int) : (ofDayNumber number).isValid = true := by
  obtain ⟨century, span, year, day, split, same⟩ := ofDayNumber_eq number
  rw [same]
  obtain ⟨sum, centuries, spans, years, days, leap⟩ := split
  obtain ⟨least, most, start⟩ := month_split days.1 days.2
  generalize shown : (5 * day + 2) / 153 = month at least most start ⊢
  interval_cases month <;> simp [isValid, daysInMonth, isLeapYear] <;> omega

theorem dayNumber_ofDayNumber (number : Int) : (ofDayNumber number).dayNumber = number := by
  obtain ⟨century, span, year, day, split, same⟩ := ofDayNumber_eq number
  rw [same]
  obtain ⟨sum, centuries, spans, years, days, leap⟩ := split
  obtain ⟨least, most, start⟩ := month_split days.1 days.2
  generalize shown : (5 * day + 2) / 153 = month at least most start ⊢
  generalize first : 100 * century + 4 * span + year + (number + 719468) / 146097 * 400 = start
  have cycles : start / 400 = (number + 719468) / 146097 := by omega
  have rest : start % 400 = 100 * century + 4 * span + year := by omega
  have fours : start % 400 / 4 = 25 * century + span := by omega
  have hundreds : start % 400 / 100 = century := by omega
  clear first
  interval_cases month <;> simp [dayNumber] <;> omega

end CivilDate

/-! Written instants, which both forms read back. -/

namespace Instant

/--
The instant has a year of four digits, and more nanoseconds than a second has
only where a minute ends.
-/
@[mk_iff]
structure IsWritable (instant : Instant) : Prop where
  year : 0 ≤ instant.date.year ∧ instant.date.year ≤ 9999
  nano : instant.nano < 1000000000 ∨
    instant.second % 60 = 59 ∧ instant.nano < 2000000000

instance : DecidablePred IsWritable :=
  fun instant => decidable_of_iff _ (isWritable_iff instant).symm

@[simp]
theorem addSeconds_neg_zero (instant : Instant) : instant.addSeconds (-0) = instant := by
  simp [addSeconds]

end Instant

namespace Timestamp

variable {α β : Type}

@[simp]
theorem bind_apply (form : Timestamp α) (next : α → Timestamp β) (text : List Char) :
    (form >>= next) text = form text >>= fun taken => next taken.1 taken.2 := rfl

@[simp]
theorem pure_apply (value : α) (text : List Char) :
    (pure value : Timestamp α) text = .ok (value, text) := rfl

@[simp]
theorem map_apply (f : α → β) (form : Timestamp α) (text : List Char) :
    (f <$> form) text = form text >>= fun taken => .ok (f taken.1, taken.2) := rfl

@[simp]
theorem get_apply (text : List Char) : (get : Timestamp (List Char)) text = .ok (text, text) := rfl

@[simp]
theorem set_apply (rest text : List Char) : (set rest : Timestamp PUnit) text = .ok (⟨⟩, rest) :=
  rfl

@[simp]
theorem ok_bind (value : α) (next : α → Except TimestampFault β) :
    Except.ok value >>= next = next value := rfl

theorem oneOf_cons {chars : List Char} {char : Char} (rest : List Char)
    (known : char ∈ chars) : oneOf chars (char :: rest) = .ok (char, rest) := by
  simp [oneOf, known]

theorem skipSpace_cons {char : Char} (rest : List Char) (solid : isWhiteSpace char = false) :
    skipSpace (char :: rest) = .ok ((), char :: rest) := by
  change Except.ok ((), (char :: rest).dropWhile isWhiteSpace) = _
  simp [solid]

/-- A field of digits that spell a number. -/
structure Shows (width : Nat) (text : List Char) (number : Nat) : Prop where
  length : text.length = width
  digits : ∀ char ∈ text, isDigit char = true
  spells : Digit.number 10 text = number

theorem shows_digits {width number : Nat} (positive : 0 < width) (fits : number < 10 ^ width) :
    Shows width (Instant.digits width number).toList number := by
  obtain ⟨length, digits, spells⟩ := Instant.digits_spell positive fits
  exact ⟨length, fun char member => List.all_eq_true.1 digits char member, spells⟩

theorem Shows.lt {width number : Nat} {text : List Char} (shows : Shows width text number) :
    number < 10 ^ width := by
  obtain ⟨rfl, digits, rfl⟩ := shows
  exact Digit.number_lt digits

namespace Shows

variable {width number : Nat} {text : List Char}

theorem digits_append (shows : Shows width text number) (rest : List Char) :
    Timestamp.digits width (text ++ rest) = .ok (text, rest) := by
  obtain ⟨rfl, digits, -⟩ := shows
  induction text with
  | nil => rfl
  | cons first others induction =>
      obtain ⟨isFirst, areOthers⟩ := List.forall_mem_cons.1 digits
      simp [Timestamp.digits, isFirst, induction areOthers]

theorem fixed_append (shows : Shows width text number) (rest : List Char) :
    fixed width (text ++ rest) = .ok (number, rest) := by
  simp [fixed, shows.digits_append, shows.spells]

theorem number_append (shows : Shows (width + 1) text number) (rest : List Char) :
    Timestamp.number (some (width + 1)) (text ++ rest) = .ok (number, rest) := by
  obtain ⟨first, others, rfl⟩ := List.exists_cons_of_length_eq_add_one shows.length
  have most : (first :: others ++ rest).take (width + 1) = first :: others := by
    rw [← shows.length, List.take_left]
  have all : (first :: others).takeWhile isDigit = first :: others :=
    List.takeWhile_eq_self_iff.2 shows.digits
  have left : (first :: others ++ rest).drop (first :: others).length = rest := List.drop_left
  simp only [Timestamp.number, bind_apply, get_apply, ok_bind, most, all, left]
  simp [shows.spells]

end Shows

theorem fraction_digits {width number : Nat} (positive : 0 < width) (most : width ≤ 9)
    (fits : number < 10 ^ width) :
    fraction ('.' :: ((Instant.digits width number).toList ++ ['Z'])) =
      .ok (number * 10 ^ (9 - width), ['Z']) := by
  have shows := shows_digits positive fits
  generalize (Instant.digits width number).toList = text at shows ⊢
  have all : (text ++ ['Z']).takeWhile isDigit = text :=
    (Digit.takeWhile_append text (by decide)).trans (List.takeWhile_eq_self_iff.2 shows.digits)
  have some : text ≠ [] := List.ne_nil_of_length_pos (shows.length.symm ▸ positive)
  have short : text.take 9 = text := List.take_of_length_le (shows.length.symm ▸ most)
  simp only [fraction, bind_apply, get_apply, ok_bind, all]
  simp [some, short, Digit.number_append_zeros, shows.spells, shows.length]

/-- The fraction of a second before the mark of universal time. -/
theorem fraction_fractionText {nano : Nat} (fits : nano < 1000000000) :
    fraction ((Instant.fractionText nano).toList ++ ['Z']) = .ok (nano, ['Z']) := by
  unfold Instant.fractionText
  split
  · subst_vars
    rfl
  · split
    · have group := fraction_digits (by decide : 0 < 3) (by decide)
        (by omega : nano / 1000000 < 10 ^ 3)
      have whole : nano / 1000000 * 1000000 = nano := by omega
      simpa [whole] using group
    · split
      · have group := fraction_digits (by decide : 0 < 6) (by decide)
          (by omega : nano / 1000 < 10 ^ 6)
        have whole : nano / 1000 * 1000 = nano := by omega
        simpa [whole] using group
      · have group := fraction_digits (by decide : 0 < 9) (by decide)
          (by omega : nano < 10 ^ 9)
        simpa using group

/-- A text shows a date and a time in universal time, each in a field of fixed width. -/
inductive Written : List Char → CivilDate → ClockTime → Nat → Prop where
  | intro {year month day hour minute second nano : Nat}
      {years months days hours minutes seconds fractions : List Char}
      (year_shown : Shows 4 years year) (month_shown : Shows 2 months month)
      (day_shown : Shows 2 days day) (hour_shown : Shows 2 hours hour)
      (minute_shown : Shows 2 minutes minute) (second_shown : Shows 2 seconds second)
      (fraction_shown : fraction (fractions ++ ['Z']) = .ok (nano, ['Z'])) :
      Written (years ++ '-' :: (months ++ '-' :: (days ++ 'T' :: (hours ++ ':' ::
          (minutes ++ ':' :: (seconds ++ (fractions ++ ['Z'])))))))
        ⟨year, month, day⟩ ⟨hour, minute, second⟩ nano

theorem Shows.byteCount_eq {width number : Nat} {text : List Char}
    (shows : Shows width text number) : width ≤ byteCount text := by
  obtain ⟨rfl, -, -⟩ := shows
  induction text with
  | nil => exact Nat.zero_le _
  | cons char rest induction =>
      have size := char.utf8Size_pos
      simp only [List.length_cons, byteCount]
      omega

theorem zone_universal (separator : Timestamp Unit) : zone separator ['Z'] = .ok (0, []) := rfl

theorem strict_written {text : List Char} {date : CivilDate} {time : ClockTime} {nano : Nat}
    {last : Nat × Nat} (written : Written text date time nano) (valid : date.isValid = true)
    (leap : leapSecond time.second nano = last)
    (clock : ClockTime.isValid ⟨time.hour, time.minute, last.1⟩ = true) :
    strict text = .ok (.ofCivil date ⟨time.hour, time.minute, last.1⟩ last.2, []) := by
  obtain ⟨year, month, day, hour, minute, second, fraction⟩ := written
  unfold strict
  rw [bind_apply, get_apply, ok_bind, if_neg]
  · simp only [bind_apply, get_apply, ok_bind, year.fixed_append,
      month.fixed_append, day.fixed_append, hour.fixed_append, minute.fixed_append,
      second.fixed_append, fraction, valid, leap, clock, if_true, zone_universal,
      oneOf_cons _ (show '-' ∈ ['-'] by decide), oneOf_cons _ (show ':' ∈ [':'] by decide),
      oneOf_cons _ (show 'T' ∈ ['T', 't', ' '] by decide)]
    simp [isZone, Instant.addSeconds]
  · have widths := year.byteCount_eq
    have := month.byteCount_eq
    have := day.byteCount_eq
    have := hour.byteCount_eq
    have := minute.byteCount_eq
    have := second.byteCount_eq
    have dash : '-'.utf8Size = 1 := rfl
    have colon : ':'.utf8Size = 1 := rfl
    have mark : 'T'.utf8Size = 1 := rfl
    simp only [byteCount_append, byteCount, dash, colon, mark]
    omega

theorem solid_of_isDigit {char : Char} (digit : isDigit char = true) :
    isWhiteSpace char = false ∧ char ≠ '-' ∧ char ≠ '+' := by
  obtain ⟨least, most⟩ := (Digit.isOf_ten_iff char).1 digit
  refine ⟨?_, ?_, ?_⟩
  · simp only [isWhiteSpace]
    interval_cases char.toNat <;> decide
  · rintro rfl
    exact absurd least (by decide)
  · rintro rfl
    exact absurd least (by decide)

theorem Shows.skipSpace_append {width number : Nat} {text : List Char}
    (shows : Shows (width + 1) text number) (rest : List Char) :
    skipSpace (text ++ rest) = .ok ((), text ++ rest) := by
  obtain ⟨first, others, rfl⟩ := List.exists_cons_of_length_eq_add_one shows.length
  have solid := (solid_of_isDigit (shows.digits first (by simp))).1
  exact skipSpace_cons (others ++ rest) solid

theorem Shows.looseYear_append {number : Nat} {text : List Char}
    (shows : Shows 4 text number) (rest : List Char) :
    looseYear (text ++ rest) = .ok ((number : Int), rest) := by
  have taken := shows.number_append rest
  have skipped := shows.skipSpace_append rest
  have small : number < 10 ^ 4 := shows.lt
  obtain ⟨first, others, rfl⟩ := List.exists_cons_of_length_eq_add_one shows.length
  obtain ⟨-, minus, plus⟩ := solid_of_isDigit (shows.digits first (by simp))
  have bounded : ¬((number : Int) < Int32.minValue.toInt ∨ Int32.maxValue.toInt < number) := by
    have least : Int32.minValue.toInt = -2147483648 := by decide
    have most : Int32.maxValue.toInt = 2147483647 := by decide
    omega
  have noMinus : ((first :: others ++ rest).head? == some '-') = false := by simp [minus]
  have noPlus : ((first :: others ++ rest).head? == some '+') = false := by simp [plus]
  simp only [looseYear, bind_apply, skipped, ok_bind, get_apply, noMinus, noPlus,
    Bool.false_eq_true, if_false, taken, bounded, pure_apply]

theorem Shows.looseField_append {number least most : Nat} {text : List Char}
    (shows : Shows 2 text number) (rest : List Char) (above : least ≤ number)
    (below : number ≤ most) : looseField least most (text ++ rest) = .ok (number, rest) := by
  have inside : ¬(number < least ∨ most < number) := by omega
  simp only [looseField, bind_apply, shows.skipSpace_append, ok_bind, shows.number_append,
    inside, if_false]
  rfl

theorem looseZone_universal : looseZone ['Z'] = .ok (0, []) := rfl

theorem skipSpace_nil : skipSpace [] = .ok ((), []) := rfl

theorem isYear_of_lt {year : Nat} (small : year < 10 ^ 4) : isYear (year : Int) = true := by
  simp [isYear, years]
  omega

theorem isZone_zero : isZone 0 = true := by decide

theorem looseMark_cons {mark : Char} (rest : List Char) (solid : isWhiteSpace mark = false) :
    looseMark mark (mark :: rest) = .ok ((), rest) := by
  simp [looseMark, skipSpace_cons rest solid, oneOf_cons]

theorem loose_written {text : List Char} {date : CivilDate} {time : ClockTime} {nano : Nat}
    {last : Nat × Nat} {instant : Instant} (written : Written text date time nano)
    (valid : date.isValid = true) (clock : time.hour ≤ 23 ∧ time.minute ≤ 59 ∧ time.second ≤ 60)
    (leap : leapSecond time.second nano = last)
    (shown : Instant.ofCivil date ⟨time.hour, time.minute, last.1⟩ last.2 = instant)
    (same : instant.date = date) : loose text = .ok (instant, []) := by
  obtain ⟨year, month, day, hour, minute, second, fraction⟩ := written
  have calendar := valid
  simp only [CivilDate.isValid, Bool.and_eq_true, decide_eq_true_eq] at calendar
  obtain ⟨⟨⟨leastMonth, mostMonth⟩, leastDay⟩, mostDay⟩ := calendar
  have shortMonth := Nat.le_trans mostDay (CivilDate.daysInMonth_le _ _)
  have inCalendar := isYear_of_lt year.lt
  have stays : isYear instant.date.year = true := by rwa [same]
  have inRange := congrArg₂ Bool.and (congrArg₂ Bool.and inCalendar valid) isZone_zero
  simp only [loose, bind_apply, year.looseYear_append, ok_bind, get_apply,
    looseMark_cons _ (show isWhiteSpace '-' = false by decide),
    looseMark_cons _ (show isWhiteSpace ':' = false by decide),
    oneOf_cons _ (show 'T' ∈ ['T', 't', ' '] by decide),
    month.looseField_append _ leastMonth mostMonth,
    day.looseField_append _ leastDay shortMonth,
    hour.looseField_append _ (Nat.zero_le _) clock.1,
    minute.looseField_append _ (Nat.zero_le _) clock.2.1,
    second.looseField_append _ (Nat.zero_le _) clock.2.2, fraction, leap,
    skipSpace_cons _ (show isWhiteSpace 'Z' = false by decide), looseZone_universal,
    skipSpace_nil, List.isEmpty_nil, if_true, inRange, Bool.and_true,
    Instant.addSeconds_neg_zero, shown,
    stays, pure_apply]

end Timestamp

namespace Instant

/-- What clocks of universal time show at an instant, a leap second as the second sixty. -/
def shownTime (instant : Instant) : ClockTime :=
  let second := (instant.second % 86400).toNat
  ⟨second / 3600, second / 60 % 60, second % 60 + instant.nano / 1000000000⟩

theorem shownTime_bounds {instant : Instant} (writable : instant.IsWritable) :
    instant.shownTime.hour ≤ 23 ∧ instant.shownTime.minute ≤ 59 ∧
      instant.shownTime.second ≤ 60 := by
  obtain ⟨-, nano⟩ := writable
  simp only [shownTime]
  omega

theorem written_render {instant : Instant} (writable : instant.IsWritable) :
    Timestamp.Written instant.render.toList instant.date instant.shownTime
      (instant.nano % 1000000000) := by
  obtain ⟨least, most⟩ := writable.year
  have valid : instant.date.isValid = true := CivilDate.isValid_ofDayNumber _
  simp only [CivilDate.isValid, Bool.and_eq_true, decide_eq_true_eq] at valid
  obtain ⟨⟨⟨leastMonth, mostMonth⟩, leastDay⟩, mostDay⟩ := valid
  have shortMonth := Nat.le_trans mostDay (CivilDate.daysInMonth_le _ _)
  have clock := shownTime_bounds writable
  have text : instant.render.toList =
      (digits 4 instant.date.year.toNat).toList ++ '-' ::
        ((digits 2 instant.date.month).toList ++ '-' ::
          ((digits 2 instant.date.day).toList ++ 'T' ::
            ((digits 2 instant.shownTime.hour).toList ++ ':' ::
              ((digits 2 instant.shownTime.minute).toList ++ ':' ::
                ((digits 2 instant.shownTime.second).toList ++
                  ((fractionText (instant.nano % 1000000000)).toList ++ ['Z'])))))) := by
    simp [render, renderDate, renderTime, yearText, least, most, shownTime]
  have date : instant.date =
      ⟨(instant.date.year.toNat : Int), instant.date.month, instant.date.day⟩ := by
    rw [Int.toNat_of_nonneg least]
  have written := Timestamp.Written.intro
    (Timestamp.shows_digits (by decide : 0 < 4) (by omega : instant.date.year.toNat < 10 ^ 4))
    (Timestamp.shows_digits (by decide : 0 < 2) (by omega : instant.date.month < 10 ^ 2))
    (Timestamp.shows_digits (by decide : 0 < 2) (by omega : instant.date.day < 10 ^ 2))
    (Timestamp.shows_digits (by decide : 0 < 2) (by omega : instant.shownTime.hour < 10 ^ 2))
    (Timestamp.shows_digits (by decide : 0 < 2) (by omega : instant.shownTime.minute < 10 ^ 2))
    (Timestamp.shows_digits (by decide : 0 < 2) (by omega : instant.shownTime.second < 10 ^ 2))
    (Timestamp.fraction_fractionText (by omega : instant.nano % 1000000000 < 1000000000))
  rw [← date] at written
  rwa [text]

/-- The second of a minute that a clock without leap seconds shows, and the nanoseconds. -/
theorem leapSecond_shown {instant : Instant} (writable : instant.IsWritable) :
    Timestamp.leapSecond instant.shownTime.second (instant.nano % 1000000000) =
      ((instant.second % 86400).toNat % 60, instant.nano) := by
  obtain ⟨-, nano⟩ := writable
  unfold Timestamp.leapSecond
  split
  · simp only [shownTime, Prod.mk.injEq] at *
    omega
  · simp only [shownTime, Prod.mk.injEq] at *
    omega

theorem ofCivil_shown (instant : Instant) :
    ofCivil instant.date ⟨instant.shownTime.hour, instant.shownTime.minute,
      (instant.second % 86400).toNat % 60⟩ instant.nano = instant := by
  have days : instant.date.dayNumber = instant.second / 86400 :=
    CivilDate.dayNumber_ofDayNumber _
  cases instant with
  | mk second nano =>
      simp only [ofCivil, days, ClockTime.secondOfDay, shownTime, Instant.mk.injEq, and_true]
      omega

theorem read_strict_render {instant : Instant} (writable : instant.IsWritable) :
    Timestamp.read Timestamp.strict instant.render = .ok instant := by
  have clock := shownTime_bounds writable
  have valid : ClockTime.isValid ⟨instant.shownTime.hour, instant.shownTime.minute,
      (instant.second % 86400).toNat % 60⟩ = true := by
    simp only [ClockTime.isValid, Bool.and_eq_true, decide_eq_true_eq]
    omega
  rw [Timestamp.read, Timestamp.strict_written (written_render writable)
    (CivilDate.isValid_ofDayNumber _) (leapSecond_shown writable) valid, ofCivil_shown]
  rfl

theorem read_loose_render {instant : Instant} (writable : instant.IsWritable) :
    Timestamp.read Timestamp.loose instant.render = .ok instant := by
  rw [Timestamp.read, Timestamp.loose_written (written_render writable)
    (CivilDate.isValid_ofDayNumber _) (shownTime_bounds writable) (leapSecond_shown writable)
    (ofCivil_shown instant) rfl]
  rfl

end Instant

end ObjectQuery
