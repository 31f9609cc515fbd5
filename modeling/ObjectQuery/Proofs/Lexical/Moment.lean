import ObjectQuery.Lexical.Moment
import ObjectQuery.Proofs.Calendar.Timestamp
import ObjectQuery.Proofs.Lexical.Numeral

namespace ObjectQuery

/-! Dates and times, which are read again from their text. -/

namespace Moment

/-- What the reading of a moment makes of its instant. -/
def IsRead : Moment → Prop
  | date instant => instant.second % 86400 = 0 ∧ instant.nano = 0
  | dateTime instant => instant.nano < 1000000000
  | time instant =>
      0 ≤ instant.second ∧ instant.second < 86400 ∧ instant.nano < 1000000000

def instant : Moment → Instant
  | date instant | dateTime instant | time instant => instant

def render : Moment → String
  | date instant => instant.renderDate
  | dateTime instant => instant.render
  | time instant => instant.renderTime

namespace Form

variable {α β : Type} {property : α → Prop} {result : β → Prop}

theorem bind_apply (form : Form α) (next : α → Form β) (chars : List Char) :
    (form >>= next) chars = (form chars).bind fun taken => next taken.1 taken.2 := rfl

theorem pure_apply (value : α) (chars : List Char) :
    (pure value : Form α) chars = some (value, chars) := rfl

theorem get_apply (chars : List Char) : (get : Form (List Char)) chars = some (chars, chars) := rfl

theorem set_apply (rest chars : List Char) : (set rest : Form PUnit) chars = some (⟨⟩, rest) := rfl

theorem failure_apply (chars : List Char) : (failure : Form α) chars = none := rfl

theorem digits_apply (count : Nat) (chars : List Char) :
    digits count chars = if (chars.take count).length = count &&
        (chars.take count).all Numeral.isDigit then
      some (Digit.number 10 (chars.take count), chars.drop count)
    else
      none := by
  simp only [digits, bind_apply, get_apply, Option.bind_some]
  split <;> rfl

/--
The form takes characters off the head of a list, of which none is a quote, and
makes a value with the property of them.
-/
def Yields (form : Form α) (property : α → Prop) : Prop :=
  ∀ ⦃chars value rest⦄, form chars = some (value, rest) →
    property value ∧ ∃ taken, chars = taken ++ rest ∧ '\'' ∉ taken

namespace Yields

theorem pure {value : α} (holds : property value) : Yields (Pure.pure value) property := by
  intro chars read rest taken
  cases taken
  exact ⟨holds, [], rfl, List.not_mem_nil⟩

theorem bind {form : Form α} {next : α → Form β} (first : form.Yields property)
    (later : ∀ value, property value → (next value).Yields result) :
    Yields (form >>= next) result := by
  intro chars value rest found
  rw [bind_apply] at found
  obtain ⟨⟨read, middle⟩, taken, followed⟩ := Option.bind_eq_some_iff.1 found
  obtain ⟨holds, before, rfl, unquoted⟩ := first taken
  obtain ⟨holds, after, rfl, alsoUnquoted⟩ := later read holds followed
  refine ⟨holds, before ++ after, (List.append_assoc _ _ _).symm, ?_⟩
  rw [List.mem_append, not_or]
  exact ⟨unquoted, alsoUnquoted⟩

end Yields

theorem digits_yields (count : Nat) : (digits count).Yields fun _ => True := by
  intro chars value rest found
  rw [digits_apply] at found
  split at found
  · rename_i spelled
    cases found
    refine ⟨trivial, _, (List.take_append_drop count chars).symm, ?_⟩
    exact Plain.quote_not_mem (List.all_eq_true.1 (Bool.and_eq_true_iff.1 spelled).2) (by decide)
  · cases found

theorem oneOf_yields {marks : List Char} (unquoted : '\'' ∉ marks) :
    (oneOf marks).Yields (· ∈ marks) := by
  intro chars value rest found
  simp only [oneOf, bind_apply, get_apply, Option.bind_some] at found
  cases chars with
  | nil => cases found
  | cons char others =>
      simp only at found
      split at found
      · rename_i known
        cases found
        have member : value ∈ marks := List.contains_iff_mem.1 known
        refine ⟨member, [value], rfl, ?_⟩
        rintro (_ | ⟨_, ⟨⟩⟩)
        exact unquoted member
      · cases found

theorem optional_yields {marks : List Char} (unquoted : '\'' ∉ marks) :
    (optional marks).Yields fun _ => True := by
  intro chars value rest found
  simp only [optional, bind_apply, get_apply, Option.bind_some] at found
  cases chars with
  | nil =>
      cases found
      exact ⟨trivial, [], rfl, List.not_mem_nil⟩
  | cons char others =>
      simp only at found
      split at found
      · rename_i known
        cases found
        refine ⟨trivial, [char], rfl, ?_⟩
        rintro (_ | ⟨_, ⟨⟩⟩)
        exact unquoted (List.contains_iff_mem.1 known)
      · cases found
        exact ⟨trivial, [], rfl, List.not_mem_nil⟩

theorem nano_yields : nano.Yields (· < 1000000000) := by
  intro chars value rest found
  have none : (0 : Nat) < 1000000000 ∧ ∃ taken, chars = taken ++ chars ∧ '\'' ∉ taken :=
    ⟨by decide, [], rfl, List.not_mem_nil⟩
  simp only [nano, bind_apply, get_apply, Option.bind_some] at found
  split at found
  · rename_i others
    split at found
    · cases found
      exact none
    · cases found
      have digits : ∀ char ∈ (others.take 9).takeWhile Numeral.isDigit,
          Numeral.isDigit char = true := fun _ => List.mem_takeWhile_imp
      have short : ((others.take 9).takeWhile Numeral.isDigit).length ≤ 9 :=
        Nat.le_trans (List.takeWhile_sublist _).length_le (by simp)
      have zeros : ∀ char ∈ List.replicate
          (9 - ((others.take 9).takeWhile Numeral.isDigit).length) '0',
          Numeral.isDigit char = true := by
        intro char member
        rw [List.eq_of_mem_replicate member]
        decide
      have fits := Digit.number_lt (List.forall_mem_append.2 ⟨digits, zeros⟩)
      refine ⟨?_, '.' :: (others.take 9).takeWhile Numeral.isDigit, ?_, ?_⟩
      · rwa [List.length_append, List.length_replicate, Nat.add_sub_cancel' short] at fits
      · have prefixed := (List.takeWhile_prefix Numeral.isDigit).trans (List.take_prefix 9 others)
        rw [List.cons_append, List.prefix_iff_eq_append.1 prefixed]
      · rw [List.mem_cons, not_or]
        exact ⟨by decide, Plain.quote_not_mem digits (by decide)⟩
  · cases found
    exact none

theorem date_yields : date.Yields fun _ => True :=
  (digits_yields 4).bind fun _ _ => (oneOf_yields (by decide)).bind fun _ _ =>
    (digits_yields 2).bind fun _ _ => (oneOf_yields (by decide)).bind fun _ _ =>
      (digits_yields 2).bind fun _ _ => .pure trivial

theorem clock_yields : clock.Yields fun _ => True :=
  (digits_yields 2).bind fun _ _ => (oneOf_yields (by decide)).bind fun _ _ =>
    (digits_yields 2).bind fun _ _ => (oneOf_yields (by decide)).bind fun _ _ =>
      (digits_yields 2).bind fun _ _ => .pure trivial

theorem zone_yields : zone.Yields fun _ => True := by
  refine (oneOf_yields (by decide)).bind fun mark _ => ?_
  split
  · exact .pure trivial
  · refine (digits_yields 2).bind fun hours _ => (optional_yields (by decide)).bind fun _ _ => ?_
    refine (digits_yields 2).bind fun minutes _ => ?_
    split
    · exact .pure trivial
    · exact .pure trivial

end Form

theorem instant?_eq_some {date : CivilDate} {time : ClockTime} {nano : Nat} {instant : Instant}
    (found : instant? date time nano = some instant) :
    time.isValid = true ∧ instant = .ofCivil date time nano := by
  unfold instant? at found
  split at found
  · cases found
    exact ⟨(Bool.and_eq_true_iff.1 ‹_›).2, rfl⟩
  · cases found

theorem dateTimeForm_yields :
    Form.Yields dateTimeForm fun found => ∀ moment ∈ found, IsRead moment := by
  refine Form.date_yields.bind fun date _ => (Form.oneOf_yields (by decide)).bind fun _ _ => ?_
  refine Form.clock_yields.bind fun time _ => Form.nano_yields.bind fun nano fits => ?_
  refine Form.zone_yields.bind fun zone _ => .pure fun moment found => ?_
  obtain ⟨instant, given, found⟩ := Option.bind_eq_some_iff.1 found
  obtain ⟨distance, _, found⟩ := Option.bind_eq_some_iff.1 found
  cases found
  obtain ⟨-, rfl⟩ := instant?_eq_some given
  exact fits

theorem dateForm_yields : Form.Yields dateForm fun found => ∀ moment ∈ found, IsRead moment := by
  refine Form.date_yields.bind fun date _ => .pure fun moment found => ?_
  obtain ⟨instant, given, rfl⟩ := Option.map_eq_some_iff.1 found
  obtain ⟨-, rfl⟩ := instant?_eq_some given
  refine ⟨?_, rfl⟩
  simp [Instant.ofCivil, ClockTime.secondOfDay]

theorem timeForm_yields : Form.Yields timeForm fun found => ∀ moment ∈ found, IsRead moment := by
  refine Form.clock_yields.bind fun time _ => Form.nano_yields.bind fun nano fits => ?_
  refine (Form.optional_yields (by decide)).bind fun _ _ => .pure fun moment found => ?_
  obtain ⟨instant, given, rfl⟩ := Option.map_eq_some_iff.1 found
  obtain ⟨valid, rfl⟩ := instant?_eq_some given
  have day : CivilDate.dayNumber ⟨1970, 1, 1⟩ = 0 := by decide
  simp only [ClockTime.isValid, Bool.and_eq_true, decide_eq_true_eq] at valid
  simp only [IsRead, Instant.ofCivil, day, ClockTime.secondOfDay]
  omega

theorem read?_yields {chars rest : List Char} {found : Option Moment}
    (read : read? chars = some (found, rest)) :
    (∀ moment ∈ found, IsRead moment) ∧ ∃ taken, chars = taken ++ rest ∧ '\'' ∉ taken := by
  simp only [read?, Option.orElse_eq_some] at read
  rcases read with dateTime | ⟨-, date | ⟨-, time⟩⟩
  · exact dateTimeForm_yields dateTime
  · exact dateForm_yields date
  · exact timeForm_yields time

end Moment

theorem exists_of_moment {chars : List Char} {value : Moment} {length : Nat}
    (found : moment chars = .found value length) : value.IsRead ∧ '\'' ∉ chars.take length := by
  unfold moment at found
  split at found
  · cases found
  · rename_i read
    obtain ⟨isRead, taken, rfl, unquoted⟩ := Moment.read?_yields read
    simp only at found
    split at found
    · split at found
      · cases found
        refine ⟨isRead _ rfl, ?_⟩
        rwa [List.length_append, Nat.add_sub_cancel, List.take_left]
      · cases found
    · cases found

namespace Moment

open Timestamp (Shows shows_digits)

namespace Form

theorem digits_append {width number : Nat} {text : List Char} (shows : Shows width text number)
    (rest : List Char) : digits width (text ++ rest) = some (number, rest) := by
  obtain ⟨rfl, spelled, rfl⟩ := shows
  have all : text.all Numeral.isDigit = true := List.all_eq_true.2 spelled
  rw [digits_apply, List.take_left, List.drop_left, if_pos (by simp [all])]

theorem oneOf_cons {marks : List Char} {char : Char} (known : char ∈ marks) (rest : List Char) :
    oneOf marks (char :: rest) = some (char, rest) := by
  simp only [oneOf, bind_apply, get_apply, Option.bind_some, List.contains_iff_mem.2 known, if_true]
  rfl

theorem nano_point {width number : Nat} {text : List Char} (shows : Shows width text number)
    (positive : 0 < width) (most : width ≤ 9) (rest : List Char) :
    nano ('.' :: (text ++ 'Z' :: rest)) = some (number * 10 ^ (9 - width), 'Z' :: rest) := by
  obtain ⟨rfl, spelled, rfl⟩ := shows
  have taken : ((text ++ 'Z' :: rest).take 9).takeWhile Numeral.isDigit = text := by
    rw [List.take_append, List.take_of_length_le most,
      List.takeWhile_append_of_pos (p := Numeral.isDigit) spelled]
    cases 9 - text.length with
    | zero => exact List.append_nil _
    | succ more => exact List.append_nil _
  have some_ : text.isEmpty = false := by
    rw [List.isEmpty_eq_false_iff]
    exact List.ne_nil_of_length_pos positive
  simp only [nano, bind_apply, get_apply, Option.bind_some, taken, some_, Bool.false_eq_true,
    if_false, List.drop_left, Digit.number_append_zeros]
  rfl

theorem nano_fractionText {number : Nat} (fits : number < 1000000000) (rest : List Char) :
    nano ((Instant.fractionText number).toList ++ 'Z' :: rest) = some (number, 'Z' :: rest) := by
  unfold Instant.fractionText
  split
  · subst_vars
    rfl
  · split
    · have group := nano_point (shows_digits (by decide : 0 < 3)
        (by omega : number / 1000000 < 10 ^ 3)) (by decide) (by decide) rest
      have whole : number / 1000000 * 1000000 = number := by omega
      simpa [whole] using group
    · split
      · have group := nano_point (shows_digits (by decide : 0 < 6)
          (by omega : number / 1000 < 10 ^ 6)) (by decide) (by decide) rest
        have whole : number / 1000 * 1000 = number := by omega
        simpa [whole] using group
      · have group := nano_point (shows_digits (by decide : 0 < 9)
          (by omega : number < 10 ^ 9)) (by decide) (by decide) rest
        simpa using group

theorem date_renderDate {instant : Instant}
    (year : 0 ≤ instant.date.year ∧ instant.date.year ≤ 9999) (rest : List Char) :
    date (instant.renderDate.toList ++ rest) = some (instant.date, rest) := by
  have valid : instant.date.isValid = true := CivilDate.isValid_ofDayNumber _
  simp only [CivilDate.isValid, Bool.and_eq_true, decide_eq_true_eq] at valid
  have short := CivilDate.daysInMonth_le instant.date.year instant.date.month
  have years := shows_digits (by decide : 0 < 4) (by omega : instant.date.year.toNat < 10 ^ 4)
  have months := shows_digits (by decide : 0 < 2) (by omega : instant.date.month < 10 ^ 2)
  have days := shows_digits (by decide : 0 < 2) (by omega : instant.date.day < 10 ^ 2)
  have text : instant.renderDate.toList ++ rest =
      (Instant.digits 4 instant.date.year.toNat).toList ++ '-' ::
        ((Instant.digits 2 instant.date.month).toList ++ '-' ::
          ((Instant.digits 2 instant.date.day).toList ++ rest)) := by
    simp [Instant.renderDate, Instant.yearText, year]
  have same : (⟨(instant.date.year.toNat : Int), instant.date.month, instant.date.day⟩ : CivilDate) =
      instant.date := by
    rw [Int.toNat_of_nonneg year.1]
  simp only [date, bind_apply, text, digits_append years, digits_append months, digits_append days,
    oneOf_cons (List.mem_singleton_self '-'), Option.bind_some, pure_apply, same]

theorem clock_renderTime {instant : Instant} (fits : instant.nano < 1000000000)
    (rest : List Char) : clock (instant.renderTime.toList ++ rest) =
      some (instant.shownTime, (Instant.fractionText instant.nano).toList ++ 'Z' :: rest) := by
  have whole : instant.nano / 1000000000 = 0 := by omega
  have part : instant.nano % 1000000000 = instant.nano := by omega
  have hours := shows_digits (by decide : 0 < 2)
    (by simp only [Instant.shownTime]; omega : instant.shownTime.hour < 10 ^ 2)
  have minutes := shows_digits (by decide : 0 < 2)
    (by simp only [Instant.shownTime]; omega : instant.shownTime.minute < 10 ^ 2)
  have seconds := shows_digits (by decide : 0 < 2)
    (by simp only [Instant.shownTime]; omega : instant.shownTime.second < 10 ^ 2)
  have text : instant.renderTime.toList ++ rest =
      (Instant.digits 2 instant.shownTime.hour).toList ++ ':' ::
        ((Instant.digits 2 instant.shownTime.minute).toList ++ ':' ::
          ((Instant.digits 2 instant.shownTime.second).toList ++
            ((Instant.fractionText instant.nano).toList ++ 'Z' :: rest))) := by
    simp [Instant.renderTime, Instant.shownTime, part]
  simp only [clock, bind_apply, text, digits_append hours, digits_append minutes,
    digits_append seconds, oneOf_cons (List.mem_singleton_self ':'), Option.bind_some, pure_apply]

theorem exists_of_digits {count number : Nat} {chars rest : List Char}
    (found : digits count chars = some (number, rest)) :
    ∃ digits, chars = digits ++ rest ∧ digits.length = count ∧
      ∀ char ∈ digits, Numeral.isDigit char = true := by
  rw [digits_apply] at found
  split at found
  · rename_i spelled
    obtain ⟨length, all⟩ := Bool.and_eq_true_iff.1 spelled
    cases found
    exact ⟨_, (List.take_append_drop count chars).symm, of_decide_eq_true length,
      List.all_eq_true.1 all⟩
  · cases found

theorem oneOf_of_head? {marks chars : List Char}
    (others : ∀ char ∈ chars.head?, (!marks.contains char) = true) : oneOf marks chars = none := by
  simp only [oneOf, bind_apply, get_apply, Option.bind_some]
  cases chars with
  | nil => rfl
  | cons first others =>
      have other := others first rfl
      simp_all [failure_apply]

theorem eq_cons_of_oneOf {mark char : Char} {chars rest : List Char}
    (found : oneOf [mark] chars = some (char, rest)) : chars = mark :: rest := by
  simp only [oneOf, bind_apply, get_apply, Option.bind_some] at found
  cases chars with
  | nil => cases found
  | cons first others =>
      simp only at found
      split at found
      · rename_i known
        cases found
        rw [List.mem_singleton.1 (List.contains_iff_mem.1 known)]
      · cases found

/-- Where a form begins with a number and a mark, so do the characters that it takes. -/
theorem exists_of_digits_oneOf {count : Nat} {mark : Char} {next : Nat → Char → Form α}
    {chars : List Char} {taken : α × List Char}
    (found : (digits count >>= fun number => oneOf [mark] >>= next number) chars = some taken) :
    ∃ digits rest, chars = digits ++ mark :: rest ∧ digits.length = count ∧
      ∀ char ∈ digits, Numeral.isDigit char = true := by
  obtain ⟨⟨number, middle⟩, first, followed⟩ := Option.bind_eq_some_iff.1 found
  obtain ⟨⟨char, rest⟩, second, _⟩ := Option.bind_eq_some_iff.1 followed
  obtain ⟨digits, rfl, length, spelled⟩ := exists_of_digits first
  cases eq_cons_of_oneOf second
  exact ⟨digits, rest, rfl, length, spelled⟩

end Form

theorem exists_of_date {α : Type} {next : CivilDate → Form α} {chars : List Char}
    {taken : α × List Char} (found : (Form.date >>= next) chars = some taken) :
    ∃ digits rest, chars = digits ++ '-' :: rest ∧ digits.length = 4 ∧
      ∀ char ∈ digits, Numeral.isDigit char = true := by
  obtain ⟨⟨date, middle⟩, first, _⟩ := Option.bind_eq_some_iff.1 found
  exact Form.exists_of_digits_oneOf first

theorem exists_of_clock {α : Type} {next : ClockTime → Form α} {chars : List Char}
    {taken : α × List Char} (found : (Form.clock >>= next) chars = some taken) :
    ∃ digits rest, chars = digits ++ ':' :: rest ∧ digits.length = 2 ∧
      ∀ char ∈ digits, Numeral.isDigit char = true := by
  obtain ⟨⟨date, middle⟩, first, _⟩ := Option.bind_eq_some_iff.1 found
  exact Form.exists_of_digits_oneOf first

/-- A date or a time begins with digits and one of two marks. -/
theorem exists_of_read? {chars : List Char} (found : read? chars ≠ none) :
    ∃ digits mark rest, chars = digits ++ mark :: rest ∧ digits ≠ [] ∧ (mark = '-' ∨ mark = ':') ∧
      ∀ char ∈ digits, Numeral.isDigit char = true := by
  obtain ⟨taken, read⟩ := Option.ne_none_iff_exists'.1 found
  simp only [read?, Option.orElse_eq_some] at read
  have some_ {digits : List Char} {count : Nat} (length : digits.length = count)
      (positive : 0 < count) : digits ≠ [] :=
    List.ne_nil_of_length_pos (length.symm ▸ positive)
  rcases read with dateTime | ⟨-, date | ⟨-, time⟩⟩
  · obtain ⟨digits, rest, rfl, length, spelled⟩ := exists_of_date dateTime
    exact ⟨digits, _, rest, rfl, some_ length (by decide), .inl rfl, spelled⟩
  · obtain ⟨digits, rest, rfl, length, spelled⟩ := exists_of_date date
    exact ⟨digits, _, rest, rfl, some_ length (by decide), .inl rfl, spelled⟩
  · obtain ⟨digits, rest, rfl, length, spelled⟩ := exists_of_clock time
    exact ⟨digits, _, rest, rfl, some_ length (by decide), .inr rfl, spelled⟩

variable {instant : Instant}

theorem instant?_shownTime (fits : instant.nano < 1000000000) :
    instant? instant.date instant.shownTime instant.nano = some instant := by
  have date : instant.date.isValid = true := CivilDate.isValid_ofDayNumber _
  have second : instant.shownTime.second = (instant.second % 86400).toNat % 60 := by
    simp only [Instant.shownTime]
    omega
  have time : instant.shownTime.isValid = true := by
    have hour : instant.shownTime.hour < 24 := by
      simp only [Instant.shownTime]
      omega
    have minute : instant.shownTime.minute < 60 := Nat.mod_lt _ (by decide)
    have short : instant.shownTime.second < 60 := second ▸ Nat.mod_lt _ (by decide)
    simp [ClockTime.isValid, hour, minute, short]
  have same := Instant.ofCivil_shown instant
  rw [← second] at same
  simp [instant?, date, time, same]

theorem dateTimeForm_render (year : 0 ≤ instant.date.year ∧ instant.date.year ≤ 9999)
    (fits : instant.nano < 1000000000) (rest : List Char) :
    dateTimeForm (instant.render.toList ++ rest) = some (some (.dateTime instant), rest) := by
  have text : instant.render.toList ++ rest =
      instant.renderDate.toList ++ 'T' :: (instant.renderTime.toList ++ rest) := by
    simp [Instant.render]
  have zone : Form.zone ('Z' :: rest) = some (some 0, rest) := rfl
  simp only [dateTimeForm, Form.bind_apply, text, Form.date_renderDate year, Option.bind_some,
    Form.oneOf_cons (show 'T' ∈ ['T', 't'] by decide), Form.clock_renderTime fits,
    Form.nano_fractionText fits, zone, Form.pure_apply]
  simp [instant?_shownTime fits, Instant.addSeconds]

theorem dateForm_renderDate (year : 0 ≤ instant.date.year ∧ instant.date.year ≤ 9999)
    (isRead : (date instant).IsRead) (rest : List Char) :
    dateForm (instant.renderDate.toList ++ rest) = some (some (.date instant), rest) := by
  obtain ⟨second, nano⟩ := isRead
  have midnight : instant.shownTime = ⟨0, 0, 0⟩ := by
    simp [Instant.shownTime, second, nano]
  have given := instant?_shownTime (show instant.nano < 1000000000 by omega)
  rw [midnight, nano] at given
  simp only [dateForm, Form.bind_apply, Form.date_renderDate year, Option.bind_some,
    Form.pure_apply, given, Option.map_some]

theorem timeForm_renderTime (isRead : (time instant).IsRead) (rest : List Char) :
    timeForm (instant.renderTime.toList ++ rest) = some (some (.time instant), rest) := by
  obtain ⟨least, most, fits⟩ := isRead
  have optional : Form.optional ['Z', 'z'] ('Z' :: rest) = some (⟨⟩, rest) := rfl
  have first : instant.date = ⟨1970, 1, 1⟩ := by
    rw [Instant.date, show instant.second / 86400 = 0 by omega]
    decide
  have given := instant?_shownTime fits
  rw [first] at given
  simp only [timeForm, Form.bind_apply, Form.clock_renderTime fits, Option.bind_some,
    Form.nano_fractionText fits, optional, Form.pure_apply, given, Option.map_some]

/-- A moment as it has been read is read again from its text, where its year has four digits. -/
theorem read?_render {moment : Moment} (isRead : moment.IsRead)
    (year : 0 ≤ moment.instant.date.year ∧ moment.instant.date.year ≤ 9999) {rest : List Char}
    (stops : Stops rest) : read? (moment.render.toList ++ rest) = some (some moment, rest) := by
  cases moment with
  | dateTime instant =>
      have read : dateTimeForm (instant.render.toList ++ rest) =
          some (some (.dateTime instant), rest) := dateTimeForm_render year isRead rest
      simp [read?, render, read]
  | date instant =>
      have year : 0 ≤ instant.date.year ∧ instant.date.year ≤ 9999 := year
      have others : " ,)".toList.all (fun char => !(['T', 't'].contains char)) = true := by decide
      have none : Form.oneOf ['T', 't'] rest = none :=
        Form.oneOf_of_head? fun char given => forall_stop others (stops char given)
      have dateTime : dateTimeForm (instant.renderDate.toList ++ rest) = Option.none := by
        simp only [dateTimeForm, Form.bind_apply, Form.date_renderDate year, Option.bind_some, none,
          Option.bind_none]
      have read := dateForm_renderDate year isRead rest
      simp [read?, render, dateTime, read]
  | time instant =>
      have read := timeForm_renderTime isRead rest
      have none : ¬ ∃ digits after, instant.renderTime.toList ++ rest = digits ++ '-' :: after ∧
          digits.length = 4 ∧ ∀ char ∈ digits, Numeral.isDigit char = true := by
        rintro ⟨digits, after, same, length, spelled⟩
        obtain ⟨hours, later, split, two, -⟩ :=
          Form.exists_of_digits_oneOf (Form.clock_renderTime isRead.2.2 rest)
        have third : (hours ++ ':' :: later)[2]? = (digits ++ '-' :: after)[2]? := by
          rw [← split, same]
        rw [List.getElem?_append_right (by omega), two, List.getElem?_append_left (by omega)] at third
        exact absurd (spelled ':' (List.mem_of_getElem? third.symm)) (by decide)
      have dateTime : dateTimeForm (instant.renderTime.toList ++ rest) = Option.none := by
        rw [Option.eq_none_iff_forall_ne_some]
        exact fun taken found => none (exists_of_date found)
      have date : dateForm (instant.renderTime.toList ++ rest) = Option.none := by
        rw [Option.eq_none_iff_forall_ne_some]
        exact fun taken found => none (exists_of_date found)
      simp [read?, render, dateTime, date, read]

end Moment

theorem moment_render {value : Moment} (isRead : value.IsRead)
    (year : 0 ≤ value.instant.date.year ∧ value.instant.date.year ≤ 9999) {rest : List Char}
    (stops : Stops rest) :
    moment (value.render.toList ++ rest) = .found value value.render.toList.length := by
  simp only [moment, Moment.read?_render isRead year stops, stops.isWordEnd, if_true,
    List.length_append, Nat.add_sub_cancel]

/-- What begins with no digit is no moment. -/
theorem moment_of_head {chars : List Char}
    (head : ∀ char ∈ chars.head?, Numeral.isDigit char = false) : moment chars = .absent := by
  have none : Moment.read? chars = none := by
    by_contra found
    obtain ⟨digits, mark, rest, rfl, some_, -, spelled⟩ := Moment.exists_of_read? found
    obtain ⟨first, others, rfl⟩ := List.exists_cons_of_ne_nil some_
    have digit := spelled first List.mem_cons_self
    rw [head first rfl] at digit
    cases digit
  rw [moment, none]

/-- A text that is a number is no moment. -/
theorem moment_of_numeral {text rest : List Char} {number : Number} (stops : Stops rest)
    (found : numeral text = .found number text.length) : moment (text ++ rest) = .absent := by
  have none : Moment.read? (text ++ rest) = none := by
    by_contra read
    obtain ⟨digits, mark, after, spelled, some_, marks, areDigits⟩ := Moment.exists_of_read? read
    obtain ⟨first, others, rfl⟩ := List.exists_cons_of_ne_nil some_
    have begins : Numeral.Begins (text ++ rest) := by
      rw [spelled]
      exact .digit (areDigits first List.mem_cons_self) _
    have sign : Numeral.sign (text ++ rest) = (false, 0) := by
      have head {mark : Char} (other : Numeral.isDigit mark = false) :
          (text ++ rest).head? ≠ some mark := by
        rw [spelled]
        rintro ⟨⟩
        rw [areDigits first List.mem_cons_self] at other
        cases other
      exact Numeral.sign_of_head?_ne (head (by decide)) (head (by decide))
    have ends : ∀ char ∈ (mark :: after).head?, Numeral.isDigit char = false ∧
        Numeral.base? char = Option.none ∧ char ≠ '.' ∧ char ≠ 'e' ∧ char ≠ 'E' := by
      rintro _ ⟨⟩
      rcases marks with rfl | rfl <;> decide
    have unsigned : (text ++ rest).drop (Numeral.sign (text ++ rest)).2 =
        (first :: others) ++ mark :: after := by
      rw [sign, List.drop_zero, spelled]
    have plain := Numeral.plain?_of_digits unsigned areDigits some_ ends
    have whole := ((Numeral.numeral_eq_found_iff begins).1 (numeral_append stops found)).1
    rw [plain, sign, Option.some.injEq, Prod.mk.injEq, Nat.zero_add] at whole
    obtain ⟨-, rfl⟩ := List.append_inj spelled whole.2.symm
    have stop := stops mark rfl
    rcases marks with rfl | rfl <;> exact absurd stop (by decide)
  rw [moment, none]

end ObjectQuery
