import ObjectQuery.Grammar.Value
import ObjectQuery.Proofs.Lexical.Fraction
import ObjectQuery.Proofs.Lexical.Moment
import ObjectQuery.Proofs.Syntax.Take
import ObjectQuery.Query.Display

namespace ObjectQuery

/-! Values, which are read again from their text. -/

namespace Literal

theorem body_escaped (chars rest : List Char) :
    Quoted.body .value (chars.flatMap quote.escaped ++ '\'' :: rest) =
      .ok (chars, (chars.flatMap quote.escaped).length + 1) := by
  induction chars with
  | nil =>
      rw [Quoted.body.eq_def]
      rfl
  | cons char others induction =>
      rw [List.flatMap_cons, List.append_assoc, quote.escaped]
      split
      · rename_i marked
        have inner : Quoted.escape (char :: (others.flatMap quote.escaped ++ '\'' :: rest)) =
            .ok ([char], 1) := by
          rcases marked with rfl | rfl <;> rfl
        rw [List.cons_append, List.cons_append, List.nil_append, Quoted.body.eq_def]
        simp only [inner, List.drop_succ_cons, List.drop_zero, induction]
        simp [Quoted.Style.value, Quoted.prepend]
        omega
      · rename_i unmarked
        obtain ⟨backslash, mark⟩ := not_or.1 unmarked
        rw [List.cons_append, List.nil_append, Quoted.body.eq_def]
        simp only [Quoted.Style.value] at induction ⊢
        simp only [backslash, mark, induction, Quoted.prepend, if_false]
        simp [Nat.add_comm]

theorem quoted_quote (text : String) (rest : List Char) :
    quoted .value ((quote text).toList ++ rest) = .found text (quote text).toList.length := by
  have shown : (quote text).toList ++ rest =
      '\'' :: (text.toList.flatMap quote.escaped ++ '\'' :: rest) := by
    simp [quote]
  have length : (quote text).toList.length = (text.toList.flatMap quote.escaped).length + 2 := by
    simp [quote]
  have opens : '\'' = Quoted.Style.value.quote := rfl
  rw [shown, length, quoted, if_pos opens, body_escaped]
  simp

end Literal

theorem parameter_colon {name : String} (isName : IsName name) {rest : List Char}
    (ends : isWordEnd rest = true) :
    parameter (':' :: (name.toList ++ rest)) = .found name (1 + name.toList.length) := by
  rw [parameter, isName.identifier ends, Lexeme.shift]

theorem exists_of_parameter {chars : List Char} {name : String} {length : Nat}
    (found : parameter chars = .found name length) :
    IsName name ∧ '\'' ∉ chars.take length := by
  obtain ⟨rest, count, rfl, read, rfl⟩ := exists_identifier_of_parameter found
  obtain ⟨isName, after, rfl, rfl, -⟩ := exists_of_identifier read
  refine ⟨isName, ?_⟩
  rw [List.take_succ_cons, List.take_left, List.mem_cons, not_or]
  exact ⟨by decide, fun member => Identifier.ne_quote_of_isPart (isName.parts _ member) rfl⟩

/-- The word stands for no special number, no truth value and not for null. -/
def isPlainWord (word : List Char) : Bool :=
  (Numeral.special? word).isNone && (Keyword.trueValue.length? word).isNone &&
    (Keyword.falseValue.length? word).isNone && (Keyword.null.length? word).isNone

namespace RelativeDate

/-- What the reading of a relative date makes of its count. -/
def IsRead (date : RelativeDate) : Prop :=
  ∃ counts, (date.keyword, counts) ∈ keywords ∧ 0 ≤ date.count.toInt ∧
    (counts = false → date.count = 0)

theorem forall_keyword : ∀ entry ∈ keywords,
    lookup? entry.1.toList = some entry ∧ counts ⟨entry.1, 0⟩ = entry.2 ∧
      entry.1.toList.head?.any (fun char => char.isAlpha || char == '_') = true ∧
        isPlainWord entry.1.toList = true ∧ Identifier.isAhead entry.1.toList = true ∧
          entry.1.toList.all Identifier.isPart = true := by
  decide +kernel

theorem isName_keyword {entry : String × Bool} (member : entry ∈ keywords) : IsName entry.1 :=
  have ⟨_, _, _, _, start, parts⟩ := forall_keyword entry member
  ⟨start, List.all_eq_true.1 parts⟩

theorem isReserved_keyword {entry : String × Bool} (member : entry ∈ keywords) :
    isReserved entry.1.toList = false :=
  have all : ∀ entry ∈ keywords, isReserved entry.1.toList = false := by decide +kernel
  all entry member

theorem render_eq (date : RelativeDate) : date.render.toList = date.keyword.toList ∨
    ∃ others, date.render.toList = date.keyword.toList ++ ':' :: others := by
  unfold render
  split
  · refine .inr ⟨(toString date.count.toInt).toList, ?_⟩
    simp
  · exact .inl rfl

theorem toInt_nonneg_of_signed? {size : Nat} {count : Int64}
    (given : Digit.signed? false size = some count) : 0 ≤ count.toInt := by
  simp only [Digit.signed?, Bool.false_eq_true, if_false] at given
  split at given
  · rename_i fits
    cases given
    have most : Int64.maxValue.toInt = 2 ^ 63 - 1 := by decide
    rw [most] at fits
    rw [Int64.toInt_ofInt_of_le (by omega) (by omega)]
    exact Int.natCast_nonneg size
  · cases given

theorem exists_of_readCount {chars : List Char} {count : Int64} {length : Nat}
    (read : readCount chars = .ok (count, length)) :
    0 ≤ count.toInt ∧ '\'' ∉ chars.take length := by
  unfold readCount at read
  split at read
  · simp only at read
    split at read
    · cases read
    · split at read
      · rename_i given
        cases read
        refine ⟨toInt_nonneg_of_signed? given, ?_⟩
        rw [List.take_succ_cons, List.mem_cons, not_or]
        exact ⟨by decide, Plain.quote_not_mem_take_takeWhile (by decide) _⟩
      · cases read
  · cases read
    exact ⟨by decide, List.not_mem_nil⟩

theorem readCount_colon {count : Int64} (positive : 0 ≤ count.toInt) {rest : List Char}
    (stops : Stops rest) :
    readCount (':' :: ((toString count.toInt).toList ++ rest)) =
      .ok (count, (toString count.toInt).toList.length + 1) := by
  have shown : (toString count.toInt).toList = Nat.toDigits 10 count.toInt.natAbs := by
    rw [Numeral.toString_eq, if_neg (by omega)]
  have size : (if false then -count.toInt.natAbs else count.toInt.natAbs : Int) = count.toInt := by
    simp only [Bool.false_eq_true, if_false]
    omega
  have taken : (Nat.toDigits 10 count.toInt.natAbs ++ rest).takeWhile Numeral.isDigit =
      Nat.toDigits 10 count.toInt.natAbs :=
    (Numeral.digits_append stops.quiet _).trans
      (List.takeWhile_eq_self_iff.2 (List.all_eq_true.1 (Digit.all_toDigits _)))
  have given := Numeral.signed?_toInt size
  have some_ : (Nat.toDigits 10 count.toInt.natAbs).isEmpty = false :=
    List.isEmpty_eq_false_iff.2 Nat.toDigits_ne_nil
  rw [shown]
  simp only [readCount, taken, some_, List.drop_left, stops.isWordEnd, Digit.number_toDigits, given]
  rfl

end RelativeDate

theorem exists_of_relativeDate {chars : List Char} {date : RelativeDate} {length : Nat}
    (found : relativeDate chars = .found date length) :
    date.IsRead ∧ '\'' ∉ chars.take length := by
  have word := Plain.quote_not_mem_take_takeWhile (show isWordChar '\'' = false by decide) chars
  simp only [relativeDate] at found
  split at found
  · split at found
    · cases found
    · rename_i keyword counts looked
      have member := List.mem_of_find?_eq_some looked
      split at found
      · rename_i count more read
        cases found
        split at read
        · rename_i counting
          obtain ⟨positive, unquoted⟩ := RelativeDate.exists_of_readCount read
          refine ⟨⟨counts, member, positive, fun plain => ?_⟩, ?_⟩
          · rw [counting] at plain
            cases plain
          · exact Plain.quote_not_mem_take_add word unquoted
        · cases read
          exact ⟨⟨counts, member, Int.le_refl 0, fun _ => rfl⟩, word⟩
      · cases found
  · cases found

theorem relativeDate_render {date : RelativeDate} (isRead : date.IsRead) {rest : List Char}
    (stops : Stops rest) :
    relativeDate (date.render.toList ++ rest) = .found date date.render.toList.length := by
  obtain ⟨keyword, count⟩ := date
  obtain ⟨counts, member, positive, zero⟩ := isRead
  obtain ⟨looked, counting, start, -⟩ := RelativeDate.forall_keyword _ member
  have isName := RelativeDate.isName_keyword member
  have counting : RelativeDate.counts ⟨keyword, count⟩ = counts := counting
  obtain ⟨first, others, shape, -⟩ := isName.exists_cons
  have begins (rest : List Char) : (keyword.toList ++ rest).head?.any
      (fun char => char.isAlpha || char == '_') = true := by
    rw [shape] at start ⊢
    exact start
  have word {rest : List Char} (ends : rest.head?.any isWordChar = false) :
      (keyword.toList ++ rest).takeWhile isWordChar = keyword.toList :=
    isName.takeWhile_append (fun char => Identifier.isWordChar_of_isPart) ends
  have none : rest.head?.any isWordChar = false := by simpa [isWordEnd] using stops.isWordEnd
  cases counts with
  | true =>
      have shown : (RelativeDate.render ⟨keyword, count⟩).toList ++ rest =
          keyword.toList ++ (':' :: ((toString count.toInt).toList ++ rest)) := by
        simp [RelativeDate.render, counting]
      have colon : (':' :: ((toString count.toInt).toList ++ rest)).head?.any isWordChar = false :=
        show isWordChar ':' = false by decide
      rw [shown, relativeDate]
      simp only [begins, if_true, word colon, looked, List.drop_left,
        RelativeDate.readCount_colon positive stops]
      simp [RelativeDate.render, counting]
  | false =>
      obtain rfl := zero rfl
      have shown : (RelativeDate.render ⟨keyword, 0⟩).toList = keyword.toList := by
        simp [RelativeDate.render, counting]
      rw [shown, relativeDate]
      simp only [begins, if_true, word none, looked]
      simp

mutual

/-- Instants have years of four digits, and numbers print digits that are read as they are. -/
def Literal.IsPrintable : Literal → Prop
  | .float value => DecimalLayout.PrintsBack value
  | .date instant | .dateTime instant | .time instant =>
      0 ≤ instant.date.year ∧ instant.date.year ≤ 9999
  | .dateTimeRange start stop =>
      (0 ≤ start.date.year ∧ start.date.year ≤ 9999) ∧
        0 ≤ stop.date.year ∧ stop.date.year ≤ 9999
  | .list items => ListItem.ArePrintable items
  | _ => True

def ListItem.IsPrintable : ListItem → Prop
  | .literal value => value.IsPrintable
  | _ => True

def ListItem.ArePrintable : List ListItem → Prop
  | [] => True
  | item :: rest => item.IsPrintable ∧ ListItem.ArePrintable rest

end

namespace ListItem

/-- An entry as it is read. -/
inductive IsRead : ListItem → Prop where
  | moment {moment : Moment} (isRead : moment.IsRead) : IsRead (.literal moment.literal)
  | number (number : Number) : IsRead (.literal number.literal)
  | text (text : String) : IsRead (.literal (.text text))
  | bool (value : Bool) : IsRead (.literal (.bool value))
  | null : IsRead (.literal .null)
  | parameter {name : String} (isName : IsName name) : IsRead (.parameter name)
  | relativeDate {date : RelativeDate} (isRead : date.IsRead) : IsRead (.relativeDate date)

end ListItem

theorem exists_of_keywordValue {α : Type} {keyword : Keyword} {value result : α}
    {chars : List Char} {length : Nat} (lettered : keyword.isLettered = true)
    (found : keywordValue keyword value chars = .found result length) :
    result = value ∧ '\'' ∉ chars.take length := by
  unfold keywordValue at found
  split at found
  · rename_i spelled
    cases found
    exact ⟨rfl, Keyword.quote_not_mem lettered spelled⟩
  · cases found

/-- A value is such as values are read, and what follows it is plain where it is. -/
theorem exists_of_listItem {chars : List Char} {item : ListItem} {length : Nat}
    (found : listItem chars = .found item length) :
    item.IsRead ∧ (isPlain chars = true → isPlain (chars.drop length) = true) := by
  have drop (unquoted : '\'' ∉ chars.take length) (plain : isPlain chars = true) :
      isPlain (chars.drop length) = true :=
    Plain.isPlain_drop plain unquoted
  rcases Lexeme.orElse_eq_found found with read | found
  · obtain ⟨value, taken, rfl⟩ := Lexeme.exists_of_map_eq_found read
    obtain ⟨isRead, unquoted⟩ := exists_of_moment taken
    exact ⟨.moment isRead, drop unquoted⟩
  rcases Lexeme.orElse_eq_found found with read | found
  · obtain ⟨value, taken, rfl⟩ := Lexeme.exists_of_map_eq_found read
    exact ⟨.number value, drop (quote_not_mem_of_numeral taken)⟩
  rcases Lexeme.orElse_eq_found found with read | found
  · obtain ⟨value, taken, rfl⟩ := Lexeme.exists_of_map_eq_found read
    exact ⟨.text value, isPlain_drop_quoted taken⟩
  rcases Lexeme.orElse_eq_found found with read | found
  · obtain ⟨rfl, unquoted⟩ := exists_of_keywordValue (by decide) read
    exact ⟨.bool true, drop unquoted⟩
  rcases Lexeme.orElse_eq_found found with read | found
  · obtain ⟨rfl, unquoted⟩ := exists_of_keywordValue (by decide) read
    exact ⟨.bool false, drop unquoted⟩
  rcases Lexeme.orElse_eq_found found with read | found
  · obtain ⟨rfl, unquoted⟩ := exists_of_keywordValue (by decide) read
    exact ⟨.null, drop unquoted⟩
  rcases Lexeme.orElse_eq_found found with read | read
  · obtain ⟨value, taken, rfl⟩ := Lexeme.exists_of_map_eq_found read
    obtain ⟨isName, unquoted⟩ := exists_of_parameter taken
    exact ⟨.parameter isName, drop unquoted⟩
  · obtain ⟨value, taken, rfl⟩ := Lexeme.exists_of_map_eq_found read
    obtain ⟨isRead, unquoted⟩ := exists_of_relativeDate taken
    exact ⟨.relativeDate isRead, drop unquoted⟩

section Listed

variable {rest : List Char}

theorem listItem_moment {moment : Moment} (isRead : moment.IsRead)
    (year : 0 ≤ moment.instant.date.year ∧ moment.instant.date.year ≤ 9999)
    (stops : Stops rest) : listItem (moment.render.toList ++ rest) =
      .found (.literal moment.literal) moment.render.toList.length := by
  simp only [listItem, moment_render isRead year stops, Lexeme.map, Lexeme.found_orElse]

theorem listItem_number {text : List Char} {number : Number} (stops : Stops rest)
    (found : numeral text = .found number text.length) :
    listItem (text ++ rest) = .found (.literal number.literal) text.length := by
  simp only [listItem, moment_of_numeral stops found, numeral_append stops found, Lexeme.map,
    Lexeme.absent_orElse, Lexeme.found_orElse]

/-- A mark that begins a text or a parameter begins neither a moment nor a number. -/
theorem absent_of_mark {mark : Char} (isMark : mark = '\'' ∨ mark = ':') (others : List Char) :
    moment (mark :: others) = .absent ∧ numeral (mark :: others) = .absent := by
  constructor
  · refine moment_of_head ?_
    rintro _ ⟨⟩
    rcases isMark with rfl | rfl <;> decide
  · refine numeral_of_head (Numeral.special?_of_isCommon ?_ others) ?_
    · rcases isMark with rfl | rfl <;> decide
    · rintro _ ⟨⟩
      rcases isMark with rfl | rfl <;> decide

theorem listItem_text (text : String) (rest : List Char) :
    listItem ((Literal.quote text).toList ++ rest) =
      .found (.literal (.text text)) (Literal.quote text).toList.length := by
  have found := Literal.quoted_quote text rest
  obtain ⟨others, shown⟩ : ∃ others, (Literal.quote text).toList ++ rest = '\'' :: others := by
    simp [Literal.quote]
  rw [shown] at found ⊢
  obtain ⟨moment, numeral⟩ := absent_of_mark (.inl rfl) others
  simp only [listItem, moment, numeral, found, Lexeme.map, Lexeme.absent_orElse,
    Lexeme.found_orElse]

theorem keywordValue_append {α : Type} {word text : List Char} {value : α}
    (lettered : Keyword.isLettered ⟨[word], true⟩ = true) (breaks : Breaks rest) :
    keywordValue ⟨[word], true⟩ value (text ++ rest) = keywordValue ⟨[word], true⟩ value text := by
  rw [keywordValue, Keyword.length?_append lettered breaks, keywordValue]

/-- The character begins neither a moment nor a common number, nor a text or a parameter. -/
def isOther (char : Char) : Bool :=
  !Numeral.isDigit char && !"+-.".toList.contains char && char != '\'' && char != ':'

theorem isOther_of_isStart {char : Char} (start : Identifier.isStart char = true) :
    isOther char = true :=
  Identifier.forall_start (by decide +kernel) start

/-- A name that is no special number is a truth value, null or a relative date, or no value. -/
theorem listItem_name {name : String} (isName : IsName name) (breaks : Breaks rest)
    (none : Numeral.special? name.toList = none) :
    listItem (name.toList ++ rest) =
      (keywordValue .trueValue (.literal (.bool true)) name.toList <|>
        keywordValue .falseValue (.literal (.bool false)) name.toList <|>
          keywordValue .null (.literal .null) name.toList <|>
            (relativeDate (name.toList ++ rest)).map .relativeDate) := by
  obtain ⟨first, others, shape, start⟩ := isName.exists_cons
  have other := isOther_of_isStart start
  simp only [isOther, Bool.and_eq_true] at other
  have isMoment : moment (name.toList ++ rest) = .absent := by
    refine moment_of_head ?_
    rw [shape]
    rintro _ ⟨⟩
    simpa using other.1.1.1
  have isNumeral : numeral (name.toList ++ rest) = .absent := by
    refine numeral_of_head ((Numeral.special?_append breaks).trans none) ?_
    rw [shape]
    rintro _ ⟨⟩
    simpa using other.1.1
  have isQuoted : quoted .value (name.toList ++ rest) = .absent := by
    rw [shape, List.cons_append, quoted, if_neg (by simpa [Quoted.Style.value] using other.1.2)]
  have isParameter : parameter (name.toList ++ rest) = .absent := by
    rw [shape]
    unfold parameter
    split
    · simp_all
    · rfl
  have isTrue : keywordValue .trueValue (ListItem.literal (.bool true)) (name.toList ++ rest) = _ :=
    keywordValue_append (by decide) breaks
  have isFalse : keywordValue .falseValue (ListItem.literal (.bool false)) (name.toList ++ rest) = _ :=
    keywordValue_append (by decide) breaks
  have isNull : keywordValue .null (ListItem.literal .null) (name.toList ++ rest) = _ :=
    keywordValue_append (by decide) breaks
  simp only [listItem, isMoment, isNumeral, isQuoted, isParameter, isTrue, isFalse, isNull,
    Lexeme.map, Lexeme.absent_orElse]
  rfl

/-- The word stands for no value. -/
def isFreeWord (word : List Char) : Bool :=
  isPlainWord word && (RelativeDate.lookup? word).isNone

theorem listItem_plainWord {name : String} (isName : IsName name) (breaks : Breaks rest)
    (plain : isPlainWord name.toList = true) :
    listItem (name.toList ++ rest) = (relativeDate (name.toList ++ rest)).map .relativeDate := by
  simp only [isPlainWord, Bool.and_eq_true, Option.isNone_iff_eq_none] at plain
  obtain ⟨⟨⟨special, isTrue⟩, isFalse⟩, null⟩ := plain
  rw [listItem_name isName breaks special]
  simp only [keywordValue, isTrue, isFalse, null, Lexeme.absent_orElse]

theorem relativeDate_name {name : String} (isName : IsName name)
    (ends : isWordEnd rest = true) (none : RelativeDate.lookup? name.toList = none) :
    relativeDate (name.toList ++ rest) = .absent := by
  have word : (name.toList ++ rest).takeWhile isWordChar = name.toList :=
    isName.takeWhile_append (fun char => Identifier.isWordChar_of_isPart)
      (by simpa [isWordEnd] using ends)
  simp [relativeDate, word, none]

/-- A name that is no relative date is not spelled like one. -/
theorem lookup?_eq_none {name : String} (isName : IsName name) (ends : isWordEnd rest = true)
    (absent : relativeDate (name.toList ++ rest) = .absent) :
    RelativeDate.lookup? name.toList = none := by
  have word : (name.toList ++ rest).takeWhile isWordChar = name.toList :=
    isName.takeWhile_append (fun char => Identifier.isWordChar_of_isPart)
      (by simpa [isWordEnd] using ends)
  rw [Option.eq_none_iff_forall_ne_some]
  intro entry looked
  have spelled : entry.1.toList = name.toList.map Char.toUpper := by
    simpa using List.find?_some looked
  obtain ⟨-, -, begins, -⟩ := RelativeDate.forall_keyword entry (List.mem_of_find?_eq_some looked)
  obtain ⟨first, others, shape, start⟩ := isName.exists_cons
  have letter : (first.isAlpha || first == '_') = true := by
    by_contra other
    have dollar : first = '$' := by simp_all [Identifier.isStart]
    rw [spelled, shape, dollar] at begins
    have begins : ('$'.toUpper.isAlpha || '$'.toUpper == '_') = true := begins
    exact absurd begins (by decide)
  have ahead : (name.toList ++ rest).head?.any (fun char => char.isAlpha || char == '_') = true := by
    rw [shape]
    exact letter
  simp only [relativeDate, ahead, if_true, word, looked] at absent
  split at absent <;> cases absent

/-- No value begins with a bracket. -/
theorem listItem_bracket (others : List Char) : listItem ('(' :: others) = .absent := by
  have isMoment : moment ('(' :: others) = .absent := by
    refine moment_of_head ?_
    rintro _ ⟨⟩
    decide
  have isNumeral : numeral ('(' :: others) = .absent := by
    refine numeral_of_head (Numeral.special?_of_isCommon (by decide) others) ?_
    rintro _ ⟨⟩
    decide
  simp only [listItem, isMoment, isNumeral, Lexeme.map, Lexeme.absent_orElse]
  rfl

theorem listItem_of_isFreeWord {name : String} (isName : IsName name) (breaks : Breaks rest)
    (free : isFreeWord name.toList = true) : listItem (name.toList ++ rest) = .absent := by
  obtain ⟨plain, date⟩ := Bool.and_eq_true_iff.1 free
  rw [listItem_plainWord isName breaks plain,
    relativeDate_name isName breaks.isWordEnd (Option.isNone_iff_eq_none.1 date), Lexeme.map]

theorem isFreeWord_of_listItem {name : String} (isName : IsName name)
    (ends : isWordEnd rest = true) (absent : listItem (name.toList ++ rest) = .absent) :
    isFreeWord name.toList = true := by
  obtain ⟨-, absent⟩ := Lexeme.orElse_eq_absent absent
  obtain ⟨isNumeral, absent⟩ := Lexeme.orElse_eq_absent absent
  obtain ⟨-, absent⟩ := Lexeme.orElse_eq_absent absent
  obtain ⟨isTrue, absent⟩ := Lexeme.orElse_eq_absent absent
  obtain ⟨isFalse, absent⟩ := Lexeme.orElse_eq_absent absent
  obtain ⟨isNull, absent⟩ := Lexeme.orElse_eq_absent absent
  obtain ⟨-, isDate⟩ := Lexeme.orElse_eq_absent absent
  have free {word : List Char} {value : ListItem}
      (absent : keywordValue ⟨[word], true⟩ value (name.toList ++ rest) = .absent) :
      Keyword.length? ⟨[word], true⟩ name.toList = none := by
    refine Keyword.length?_eq_none_of_append ?_ ends
    unfold keywordValue at absent
    split at absent
    · cases absent
    · assumption
  have special : Numeral.special? name.toList = none := by
    refine Numeral.special?_eq_none_of_append ?_ ends
    have absent := Lexeme.eq_absent_of_map isNumeral
    unfold numeral at absent
    split at absent
    · cases absent
    · assumption
  have date := lookup?_eq_none isName ends (Lexeme.eq_absent_of_map isDate)
  have isTrue : Keyword.trueValue.length? name.toList = none := free isTrue
  have isFalse : Keyword.falseValue.length? name.toList = none := free isFalse
  have isNull : Keyword.null.length? name.toList = none := free isNull
  simp [isFreeWord, isPlainWord, special, date, isTrue, isFalse, isNull]

/-- An entry as it is read is read again from its text. -/
theorem listItem_render {item : ListItem} (isRead : item.IsRead) (printable : item.IsPrintable)
    (stops : Stops rest) :
    listItem (item.render.toList ++ rest) = .found item item.render.toList.length := by
  cases isRead with
  | @moment moment isRead =>
      have shown : (ListItem.literal moment.literal).render = moment.render := by
        cases moment <;> simp only [Moment.literal, ListItem.render, Literal.render, Moment.render]
      have year : 0 ≤ moment.instant.date.year ∧ moment.instant.date.year ≤ 9999 := by
        cases moment <;> simpa only [Moment.literal, Moment.instant, ListItem.IsPrintable,
          Literal.IsPrintable] using printable
      rw [shown]
      exact listItem_moment isRead year stops
  | number number =>
      cases number with
      | int value =>
          rw [Number.literal, ListItem.render, Literal.render]
          exact listItem_number stops (numeral_toString value)
      | float value =>
          rw [Number.literal, ListItem.IsPrintable, Literal.IsPrintable] at printable
          rw [Number.literal, ListItem.render, Literal.render]
          exact listItem_number stops (DecimalLayout.numeral_display printable)
  | text text =>
      rw [ListItem.render, Literal.render]
      exact listItem_text text rest
  | bool value =>
      rw [ListItem.render, Literal.render]
      cases value with
      | true =>
          have isName : IsName "true" := by decide
          exact listItem_name isName stops.breaks (Option.isNone_iff_eq_none.1 (by decide))
      | false =>
          have isName : IsName "false" := by decide
          exact listItem_name isName stops.breaks (Option.isNone_iff_eq_none.1 (by decide))
  | null =>
      have isName : IsName "null" := by decide
      rw [ListItem.render, Literal.render]
      exact listItem_name isName stops.breaks (Option.isNone_iff_eq_none.1 (by decide))
  | @parameter name isName =>
      have shown : (ListItem.render (.parameter name)).toList ++ rest =
          ':' :: (name.toList ++ rest) := by
        simp [ListItem.render]
      have length : (ListItem.render (.parameter name)).toList.length = 1 + name.toList.length := by
        simp [ListItem.render, Nat.add_comm]
      obtain ⟨moment, numeral⟩ := absent_of_mark (.inr rfl) (name.toList ++ rest)
      rw [shown, length]
      simp only [listItem, moment, numeral, parameter_colon isName stops.isWordEnd, Lexeme.map,
        Lexeme.absent_orElse]
      rfl
  | @relativeDate date isRead =>
      obtain ⟨counts, member, -⟩ := id isRead
      have isName := RelativeDate.isName_keyword member
      obtain ⟨-, -, -, plain, -⟩ := RelativeDate.forall_keyword _ member
      have found := relativeDate_render isRead stops
      rw [ListItem.render]
      rcases date.render_eq with shown | ⟨others, shown⟩
      · rw [shown] at found ⊢
        rw [listItem_plainWord isName stops.breaks plain, found, Lexeme.map]
      · have colon : Breaks (':' :: others ++ rest) := breaks_cons (by decide) _
        rw [shown] at found ⊢
        rw [List.append_assoc] at found ⊢
        rw [listItem_plainWord isName colon plain, found, Lexeme.map]

end Listed

/-- The character is no bracket, no blank and begins none. -/
def isFront (char : Char) : Bool :=
  isSolid char && char != '(' && char != ')'

/-- The text begins with no bracket and no blank. -/
inductive Fronts : List Char → Prop where
  | solid {first : Char} (front : isFront first = true) (others : List Char) :
      Fronts (first :: others)
  | minus {second : Char} (other : second ≠ '-') (others : List Char) :
      Fronts ('-' :: second :: others)

namespace Fronts

variable {text : List Char}

theorem name {name : String} (isName : IsName name) (after : List Char) :
    Fronts (name.toList ++ after) := by
  obtain ⟨first, others, shape, start⟩ := isName.exists_cons
  rw [shape]
  exact .solid (Identifier.forall_start (by decide +kernel) start) _

theorem blankLength_minus {second : Char} (other : second ≠ '-') (others : List Char) :
    blankLength ('-' :: second :: others) = .ok 0 := by
  rw [blankLength.eq_def]
  split
  · contradiction
  · rename_i same
    exact absurd (List.cons.inj (List.cons.inj same).2).1 other
  · rename_i same
    exact absurd (List.cons.inj same).1 (by decide)
  · rename_i same
    rw [← (List.cons.inj same).1]
    rfl

theorem blank (fronts : Fronts text) (rest : List Char) : blankLength (text ++ rest) = .ok 0 := by
  cases fronts with
  | solid front others =>
      simp only [isFront, Bool.and_eq_true] at front
      exact blankLength_solid front.1.1 _
  | minus other others => exact blankLength_minus other _

theorem head?_ne (fronts : Fronts text) (rest : List Char) {bracket : Char}
    (isBracket : isFront bracket = false) (other : bracket ≠ '-') :
    (text ++ rest).head? ≠ some bracket := by
  cases fronts with
  | solid front others =>
      rintro ⟨⟩
      rw [front] at isBracket
      cases isBracket
  | minus _ others =>
      rintro ⟨⟩
      exact other rfl

end Fronts

/-- How values begin in print. -/
inductive Opens : List Char → Prop where
  | number {text : List Char} (begins : Numeral.Begins text) : Opens text
  | negative : Opens "-Infinity".toList
  | mark {mark : Char} (isMark : mark = '\'' ∨ mark = ':') (others : List Char) :
      Opens (mark :: others)
  | word {name : String} (isName : IsName name) (free : isReserved name.toList = false) :
      Opens name.toList
  | counted {name : String} (isName : IsName name) (free : isReserved name.toList = false)
      (others : List Char) : Opens (name.toList ++ ':' :: others)

theorem DecimalLayout.opens_display (value : Float) : Opens (display.render value).toList := by
  cases view : FloatView.ofFloat value with
  | nan =>
      rw [show display.render value = "NaN" by simp only [render, view]]
      exact .word (by decide) (by decide)
  | infinity negative =>
      have shown : (display.render value).toList =
          if negative then "-Infinity".toList else "Infinity".toList := by
        simp only [render, view, String.toList_ofList]
        rfl
      rw [shown]
      cases negative with
      | true => exact .negative
      | false => exact .word (by decide) (by decide)
  | finite negative size => exact .number (begins_display view)

namespace Opens

variable {text : List Char}

theorem fronts (opens : Opens text) : Fronts text := by
  cases opens with
  | number begins =>
      cases begins with
      | digit digit others => exact .solid (Numeral.forall_digit (by decide) digit) others
      | minus digit others =>
          refine .minus ?_ others
          rintro rfl
          exact absurd digit (by decide)
  | negative => exact .minus (by decide) _
  | mark isMark others => exact .solid (by rcases isMark with rfl | rfl <;> decide) others
  | @word name isName free =>
      rw [← List.append_nil name.toList]
      exact .name isName []
  | counted isName free others => exact .name isName _

/-- No query begins with a value. -/
theorem unselected (opens : Opens text) {rest : List Char} (breaks : Breaks rest) :
    Keyword.select.length? (text ++ rest) = none := by
  have other {first : Char} (differs : sameUpper first 'S' = false) (others : List Char) :
      Keyword.select.length? (first :: others) = none := by
    simp [Keyword.select, Keyword.length?, Keyword.wordsLength?, Keyword.wordLength?, differs]
  have word {name : String} (free : isReserved name.toList = false) {rest : List Char}
      (breaks : Breaks rest) : Keyword.select.length? (name.toList ++ rest) = none := by
    have same : Keyword.select.length? (name.toList ++ rest) = Keyword.select.length? name.toList :=
      Keyword.length?_append (by decide) breaks
    rw [same]
    exact (Keyword.isReserved_eq_false_iff.1 free).1 _ (by decide)
  cases opens with
  | number begins =>
      have digits : "0123456789".toList.all (fun char => !sameUpper char 'S') = true := by decide
      cases begins with
      | digit digit others => exact other (by simpa using Numeral.forall_digit digits digit) _
      | minus digit others => exact other (by decide) _
  | negative => exact other (by decide) _
  | mark isMark others => exact other (by rcases isMark with rfl | rfl <;> decide) _
  | word _ free => exact word free breaks
  | counted _ free others =>
      rw [List.append_assoc]
      exact word free (breaks_cons (by decide) _)

theorem of_digits {width number : Nat} (positive : 0 < width) (fits : number < 10 ^ width)
    (others : List Char) : Opens ((Instant.digits width number).toList ++ others) := by
  obtain ⟨length, spelled, -⟩ := Timestamp.shows_digits positive fits
  obtain ⟨first, more, shape⟩ := List.exists_cons_of_ne_nil
    (List.ne_nil_of_length_pos (length.symm ▸ positive))
  rw [shape] at spelled ⊢
  exact .number (.digit (spelled first List.mem_cons_self) _)

theorem of_renderDate {instant : Instant}
    (year : 0 ≤ instant.date.year ∧ instant.date.year ≤ 9999) (others : List Char) :
    Opens (instant.renderDate.toList ++ others) := by
  have opens := of_digits (by decide : 0 < 4) (by omega : instant.date.year.toNat < 10 ^ 4)
    ('-' :: ((Instant.digits 2 instant.date.month).toList ++ '-' ::
      ((Instant.digits 2 instant.date.day).toList ++ others)))
  simpa [Instant.renderDate, Instant.yearText, year] using opens

theorem of_renderTime (instant : Instant) : Opens instant.renderTime.toList := by
  have opens := of_digits (by decide : 0 < 2)
    (by omega : (instant.second % 86400).toNat / 3600 < 10 ^ 2)
  simpa [Instant.renderTime] using opens _

theorem of_isRead {item : ListItem} (isRead : item.IsRead) (printable : item.IsPrintable) :
    Opens item.render.toList := by
  cases isRead with
  | @moment moment isRead =>
      cases moment with
      | date instant =>
          simp only [Moment.literal, ListItem.IsPrintable, Literal.IsPrintable] at printable
          rw [Moment.literal, ListItem.render, Literal.render, ← List.append_nil (String.toList _)]
          exact of_renderDate printable []
      | dateTime instant =>
          simp only [Moment.literal, ListItem.IsPrintable, Literal.IsPrintable] at printable
          rw [Moment.literal, ListItem.render, Literal.render, Instant.render, String.toList_append,
            String.toList_append, List.append_assoc]
          exact of_renderDate printable _
      | time instant =>
          rw [Moment.literal, ListItem.render, Literal.render]
          exact of_renderTime instant
  | number number =>
      cases number with
      | int value =>
          rw [Number.literal, ListItem.render, Literal.render]
          exact .number (Numeral.begins_toString _)
      | float value =>
          rw [Number.literal, ListItem.render, Literal.render]
          exact DecimalLayout.opens_display value
  | text text =>
      rw [ListItem.render, Literal.render, Literal.quote, String.toList_ofList]
      exact .mark (.inl rfl) _
  | bool value =>
      rw [ListItem.render, Literal.render]
      cases value with
      | true => exact .word (by decide) (by decide)
      | false => exact .word (by decide) (by decide)
  | null =>
      rw [ListItem.render, Literal.render]
      exact .word (by decide) (by decide)
  | parameter isName =>
      rw [ListItem.render, String.toList_append]
      exact .mark (.inr rfl) _
  | @relativeDate date isRead =>
      obtain ⟨counts, member, -⟩ := isRead
      have isName := RelativeDate.isName_keyword member
      have free := RelativeDate.isReserved_keyword member
      rw [ListItem.render]
      rcases date.render_eq with shown | ⟨others, shown⟩
      · rw [shown]
        exact .word isName free
      · rw [shown]
        exact .counted isName free others

end Opens

end ObjectQuery
