import Mathlib.Data.List.Basic
import ObjectQuery.Proofs.Lexical.Numeral
import ObjectQuery.Proofs.Lexical.Plain
import ObjectQuery.Syntax.Parser

namespace ObjectQuery

/-! Texts that parsers take up as values, whatever they stand in. -/

namespace Cursor

/-- So many brackets can be opened inside each other, and so little is left to read. -/
structure HasRoom (cursor : Cursor) (bound levels : Nat) : Prop where
  depth : ∀ limit ∈ cursor.limit, cursor.depth + levels ≤ limit
  ahead : cursor.ahead.length < bound

/-- The same place, with one more bracket open. -/
def deeper (cursor : Cursor) : Cursor :=
  { cursor with depth := cursor.depth + 1 }

variable {cursor : Cursor} {bound levels : Nat}

theorem HasRoom.mono (room : cursor.HasRoom bound levels) {fewer : Nat}
    (fewer_le : fewer ≤ levels) : cursor.HasRoom bound fewer :=
  ⟨fun limit given => Nat.le_trans (Nat.add_le_add_left fewer_le _) (room.depth limit given),
    room.ahead⟩

theorem HasRoom.within (room : cursor.HasRoom bound levels) {other : Nat}
    (short : cursor.ahead.length < other) : cursor.HasRoom other levels :=
  ⟨room.depth, short⟩

theorem length_ahead_advance_le (cursor : Cursor) (count : Nat) :
    (cursor.advance count).ahead.length ≤ cursor.ahead.length := by
  rw [ahead_advance, List.length_drop]
  exact Nat.sub_le _ _

theorem HasRoom.advance (room : cursor.HasRoom bound levels) (count : Nat) :
    (cursor.advance count).HasRoom bound levels :=
  ⟨room.depth, Nat.lt_of_le_of_lt (cursor.length_ahead_advance_le count) room.ahead⟩

theorem HasRoom.deeper (room : cursor.HasRoom bound (levels + 1)) :
    cursor.deeper.HasRoom bound levels := by
  refine ⟨fun limit given => ?_, room.ahead⟩
  have fits := room.depth limit given
  simp only [Cursor.deeper]
  omega

theorem HasRoom.enter? (room : cursor.HasRoom bound (levels + 1)) :
    cursor.enter? = some cursor.deeper := by
  have below : cursor.limit.all (cursor.depth < ·) = true := by
    cases given : cursor.limit with
    | none => rfl
    | some limit =>
        have fits := room.depth limit given
        simp only [Option.all_some, decide_eq_true_eq]
        omega
  rw [Cursor.enter?, if_pos below]
  rfl

theorem ahead_advance_of_append {text rest : List Char} (ahead : cursor.ahead = text ++ rest) :
    (cursor.advance text.length).ahead = rest := by
  rw [ahead_advance, ahead, List.drop_left]

theorem advance_advance_length (first second : List Char) :
    (cursor.advance first.length).advance second.length =
      cursor.advance (first ++ second).length := by
  rw [advance_advance, List.length_append]

end Cursor

/-- The opening brackets in a text, as many as can be open at once in it. -/
def brackets (text : List Char) : Nat :=
  text.count '('

theorem brackets_append (first second : List Char) :
    brackets (first ++ second) = brackets first + brackets second :=
  List.count_append

namespace Parser

variable {α β : Type} {parser : Parser α} {next : α → Parser β} {value : α} {result : β} {bound : Nat}
  {text first second rest : List Char}

theorem run_bind {cursor after : Cursor} (run : parser cursor = .ok value after) :
    (parser >>= next) cursor = next value after := by
  change EStateM.bind parser next cursor = _
  rw [EStateM.bind, run]

theorem run_bind_of_error {cursor after : Cursor} {error : SyntaxError}
    (run : parser cursor = .error error after) : (parser >>= next) cursor = .error error after := by
  change EStateM.bind parser next cursor = _
  rw [EStateM.bind, run]

theorem run_get (next : Cursor → Parser α) (cursor : Cursor) :
    (MonadState.get >>= next) cursor = next cursor cursor :=
  rfl

/--
Where the text comes next and less than the bound is left to read, the parser
takes the text up as the value and stops before the rest.
-/
def Takes (parser : Parser α) (bound : Nat) (text : List Char) (value : α) (rest : List Char) :
    Prop :=
  ∀ ⦃cursor : Cursor⦄, cursor.ahead = text ++ rest → cursor.HasRoom bound (brackets text) →
    parser cursor = .ok value (cursor.advance text.length)

/-- The parser takes the text up inside a bracket, which it leaves. -/
def Closes (parser : Parser α) (bound : Nat) (text : List Char) (value : α) (rest : List Char) :
    Prop :=
  ∀ ⦃cursor : Cursor⦄, cursor.ahead = text ++ rest → cursor.HasRoom bound (brackets text + 1) →
    parser cursor.deeper = .ok value (cursor.advance text.length)

namespace Takes

theorem mono (takes : parser.Takes bound text value rest) {smaller : Nat}
    (smaller_le : smaller ≤ bound) : parser.Takes smaller text value rest :=
  fun _ ahead room => takes ahead (room.within (Nat.lt_of_lt_of_le room.ahead smaller_le))

/-- Nothing is left to read that is shorter than nothing. -/
theorem zero : parser.Takes 0 text value rest :=
  fun _ _ room => absurd room.ahead (Nat.not_lt_zero _)

theorem pure (value : α) (rest : List Char) :
    (Pure.pure value : Parser α).Takes bound [] value rest := by
  intro cursor ahead room
  rw [List.length_nil, Cursor.advance_zero]
  rfl

theorem bind (takes : parser.Takes bound first value (second ++ rest))
    (later : (next value).Takes bound second result rest) :
    (parser >>= next).Takes bound (first ++ second) result rest := by
  intro cursor ahead room
  rw [List.append_assoc] at ahead
  rw [brackets_append] at room
  rw [run_bind (takes ahead (room.mono (Nat.le_add_right _ _))),
    later (Cursor.ahead_advance_of_append ahead)
      ((room.mono (Nat.le_add_left _ _)).advance _), Cursor.advance_advance_length]

/-- A step that takes up nothing. -/
theorem step (takes : parser.Takes bound [] value (text ++ rest))
    (later : (next value).Takes bound text result rest) :
    (parser >>= next).Takes bound text result rest :=
  takes.bind later

/-- A step that takes up all of the text. -/
theorem last (takes : parser.Takes bound text value rest)
    (later : (next value).Takes bound [] result rest) :
    (parser >>= next).Takes bound text result rest := by
  rw [← List.append_nil text]
  exact takes.bind later

/-- A parser that looks at the cursor before it takes anything up. -/
theorem get_bind {next : Cursor → Parser β}
    (later : ∀ cursor : Cursor, cursor.ahead = text ++ rest →
      (next cursor).Takes bound text result rest) :
    (MonadState.get >>= next : Parser β).Takes bound text result rest :=
  fun cursor ahead room => later cursor ahead ahead room

/-- A parser that is bounded by what lies ahead. -/
theorem bounded {within : Nat → Parser α}
    (later : ∀ most, (within most).Takes (min bound most) text value rest) :
    (MonadState.get >>= fun cursor => within (cursor.ahead.length + 1) : Parser α).Takes bound
      text value rest :=
  fun cursor ahead room => later (cursor.ahead.length + 1) ahead
    (room.within (Nat.lt_min.2 ⟨room.ahead, Nat.lt_succ_self _⟩))

theorem advance (text rest : List Char) : (Parser.advance text.length).Takes bound text ⟨⟩ rest :=
  fun _ _ _ => rfl

theorem lexeme {look : List Char → Lexeme α}
    (found : look (text ++ rest) = .found value text.length) :
    (Parser.lexeme look).Takes bound text (some value) rest := by
  refine get_bind fun cursor ahead => ?_
  rw [ahead, found]
  exact (advance text rest).last (.pure _ _)

theorem lexeme_absent {look : List Char → Lexeme α} (absent : look rest = .absent) :
    (Parser.lexeme look).Takes bound [] none rest := by
  refine get_bind fun cursor ahead => ?_
  rw [ahead, List.nil_append, absent]
  exact .pure _ _

theorem skipBlank (blank : blankLength (text ++ rest) = .ok text.length) :
    Parser.skipBlank.Takes bound text ⟨⟩ rest := by
  refine get_bind fun cursor ahead => ?_
  rw [ahead, blank]
  exact advance text rest

theorem expectBlank {fault : SyntaxFault} (blank : blankLength (text ++ rest) = .ok text.length)
    (some : text ≠ []) : (Parser.expectBlank fault).Takes bound text ⟨⟩ rest := by
  intro cursor ahead room
  have moved : (cursor.advance text.length).position ≠ cursor.position := by
    have length := cursor.length_ahead
    have bound := cursor.position_le
    have positive := List.length_pos_of_ne_nil some
    rw [ahead, List.length_append] at length
    rw [Cursor.position_advance]
    omega
  have here (cursor : Cursor) : (MonadState.get : Parser Cursor) cursor = .ok cursor cursor := rfl
  rw [Parser.expectBlank, run_bind (here cursor), run_bind (skipBlank blank ahead room),
    run_bind (here _), if_neg (by simp [moved])]
  rfl

theorem isAhead (char : Char) (rest : List Char) :
    (Parser.isAhead char).Takes bound [] (rest.head? == some char) rest := by
  refine get_bind fun cursor ahead => ?_
  rw [ahead]
  exact .pure _ _

theorem takeChar (char : Char) (rest : List Char) :
    (Parser.takeChar char).Takes bound [char] true rest := by
  refine (isAhead char ([char] ++ rest)).step ?_
  rw [if_pos (by simp)]
  exact (advance [char] rest).last (.pure _ _)

theorem takeChar_absent {char : Char} (absent : rest.head? ≠ some char) :
    (Parser.takeChar char).Takes bound [] false rest := by
  refine (isAhead char rest).step ?_
  rw [if_neg (by simpa using absent)]
  exact .pure _ _

theorem expectChar (char : Char) (fault : SyntaxFault) (rest : List Char) :
    (Parser.expectChar char fault).Takes bound [char] ⟨⟩ rest :=
  (takeChar char rest).last (.pure _ _)

theorem takeKeyword {keyword : Keyword}
    (found : keyword.length? (text ++ rest) = some text.length) :
    (Parser.takeKeyword keyword).Takes bound text true rest := by
  refine get_bind fun cursor ahead => ?_
  rw [ahead, found]
  exact (advance text rest).last (.pure _ _)

theorem takeKeyword_absent {keyword : Keyword} (absent : keyword.length? rest = none) :
    (Parser.takeKeyword keyword).Takes bound [] false rest := by
  refine get_bind fun cursor ahead => ?_
  rw [ahead, List.nil_append, absent]
  exact .pure _ _

theorem isReservedAhead (rest : List Char) :
    Parser.isReservedAhead.Takes bound [] (isReserved rest) rest := by
  refine get_bind fun cursor ahead => ?_
  rw [ahead]
  exact .pure _ _

theorem orStay {parser : Parser Bool} (takes : parser.Takes bound text true rest) :
    (Parser.orStay parser).Takes bound text true rest :=
  get_bind fun _ _ => takes.last (.pure _ _)

/-- A parser that answers no leaves the cursor where it was. -/
theorem orStay_absent {parser : Parser Bool} (takes : parser.Takes bound text false rest)
    (flat : brackets text = 0) : (Parser.orStay parser).Takes bound [] false (text ++ rest) := by
  intro cursor ahead room
  change (parser >>= _) cursor = _
  rw [run_bind (takes ahead (flat ▸ room)), List.length_nil, Cursor.advance_zero]
  rfl

theorem keywordAhead {keyword : Keyword}
    (blank : blankLength (first ++ (second ++ rest)) = .ok first.length)
    (found : keyword.length? (second ++ rest) = some second.length) :
    (Parser.keywordAhead keyword).Takes bound (first ++ second) true rest :=
  orStay ((skipBlank blank).bind (takeKeyword found))

theorem keywordAhead_absent {keyword : Keyword} {blanks : List Char}
    (blank : blankLength (blanks ++ rest) = .ok blanks.length) (flat : brackets blanks = 0)
    (absent : keyword.length? rest = none) :
    (Parser.keywordAhead keyword).Takes bound [] false (blanks ++ rest) :=
  orStay_absent ((skipBlank blank).last (takeKeyword_absent absent)) flat

theorem charAhead {char : Char} (solid : blankLength (char :: rest) = .ok 0) :
    (Parser.charAhead char).Takes bound [char] true rest :=
  have noBlank : Parser.skipBlank.Takes bound [] ⟨⟩ ([char] ++ rest) := skipBlank solid
  orStay (noBlank.step (takeChar char rest))

theorem charAhead_absent {char : Char} {blanks : List Char}
    (blank : blankLength (blanks ++ rest) = .ok blanks.length) (flat : brackets blanks = 0)
    (absent : rest.head? ≠ some char) :
    (Parser.charAhead char).Takes bound [] false (blanks ++ rest) :=
  orStay_absent ((skipBlank blank).last (takeChar_absent absent)) flat

theorem charAhead_of_closing {char : Char} (other : char ≠ ')') (rest : List Char) :
    (Parser.charAhead char).Takes bound [] false (')' :: rest) := by
  have solid : blankLength ([] ++ ')' :: rest) = .ok 0 := blankLength_solid (by decide) rest
  exact charAhead_absent solid rfl (by simpa using Ne.symm other)

/-- A bracket is opened, and what follows leaves it. -/
theorem opens {body : Parser β} (takes : parser.Takes bound ['('] value (text ++ rest))
    (enters : next value = Parser.enter >>= fun _ => body)
    (closes : body.Closes (bound - 1) text result rest) :
    (parser >>= next).Takes bound ('(' :: text) result rest := by
  intro cursor ahead room
  have room : cursor.HasRoom bound (brackets text + 1) := by
    rwa [Nat.add_comm (brackets text), ← show brackets ['('] = 1 by decide, ← brackets_append]
  have inside : (cursor.advance 1).ahead = text ++ rest := by
    rw [Cursor.ahead_advance, ahead]
    rfl
  have shorter : (cursor.advance 1).HasRoom (bound - 1) (brackets text + 1) := by
    refine (room.advance 1).within ?_
    have length := room.ahead
    rw [ahead, List.cons_append, List.length_cons] at length
    rw [inside]
    omega
  have entered : Parser.enter (cursor.advance 1) = .ok ⟨⟩ (cursor.advance 1).deeper := by
    have got : (get : Parser Cursor) (cursor.advance 1) =
        .ok (cursor.advance 1) (cursor.advance 1) := rfl
    rw [Parser.enter, run_bind got, shorter.enter?]
    rfl
  have opened : parser cursor = .ok value (cursor.advance 1) :=
    takes ahead (room.mono (Nat.le_add_left _ _))
  rw [run_bind opened, enters, run_bind entered, closes inside shorter]
  exact congrArg (EStateM.Result.ok result) (Cursor.advance_advance_length ['('] text)

theorem length_le_intercalate {mark : List Char} (solid : mark ≠ []) (texts : List (List Char)) :
    texts.length ≤ (mark.intercalate texts).length + 1 := by
  induction texts with
  | nil => simp
  | cons first others induction =>
      cases others with
      | nil => simp
      | cons next others =>
          have positive := List.length_pos_of_ne_nil solid
          rw [List.intercalate_cons_cons, List.length_append, List.length_append, List.length_cons]
          omega

section Separated

variable {ι : Type} {separator : Parser Bool} {item : Parser α} {mark gap : List Char}
  {spell : ι → List Char} {made : ι → α} {indices : List ι}

/-- Items that are written with the same mark between them, and blanks before all but the first. -/
theorem separatedWithin (separates : ∀ following, separator.Takes bound mark true (gap ++ following))
    (ends : separator.Takes bound [] false rest)
    (items : ∀ index ∈ indices, ∀ lead, lead = [] ∨ lead = gap → ∀ following,
      following = rest ∨ (∃ more, following = mark ++ more) →
        item.Takes bound (lead ++ spell index) (made index) following)
    (some : indices ≠ []) {lead : List Char} (leads : lead = [] ∨ lead = gap) {most : Nat}
    (fits : indices.length ≤ most) :
    (Parser.separatedWithin separator item most).Takes bound
      (lead ++ (mark ++ gap).intercalate (indices.map spell)) (indices.map made) rest := by
  induction indices generalizing lead most with
  | nil => exact absurd rfl some
  | cons index others induction =>
      obtain ⟨most, rfl⟩ : ∃ fewer, most = fewer + 1 := ⟨most - 1, by simp at fits; omega⟩
      obtain ⟨isItem, areItems⟩ := List.forall_mem_cons.1 items
      cases others with
      | nil =>
          rw [List.map_singleton, List.map_singleton, List.intercalate_singleton]
          refine (isItem lead leads rest (.inl rfl)).last ?_
          exact ends.step (.pure _ _)
      | cons next others =>
          rw [List.map_cons (f := spell), List.map_cons (f := spell), List.intercalate_cons_cons,
            ← List.map_cons (f := spell), List.append_assoc, List.append_assoc,
            ← List.append_assoc lead]
          have later := induction areItems (List.cons_ne_nil _ _) (.inr rfl)
            (Nat.le_of_succ_le_succ fits)
          refine (isItem lead leads _ (.inr ⟨_, List.append_assoc _ _ _⟩)).bind ?_
          have apart (text : List Char) :
              separator.Takes bound mark true ((gap ++ text) ++ rest) := by
            simpa using separates (text ++ rest)
          exact (apart _).bind (later.last (.pure _ _))

theorem separated (separates : ∀ following, separator.Takes bound mark true (gap ++ following))
    (ends : separator.Takes bound [] false rest)
    (items : ∀ index ∈ indices, ∀ lead, lead = [] ∨ lead = gap → ∀ following,
      following = rest ∨ (∃ more, following = mark ++ more) →
        item.Takes bound (lead ++ spell index) (made index) following)
    (some : indices ≠ []) (solid : mark ≠ []) {lead : List Char} (leads : lead = [] ∨ lead = gap) :
    (Parser.separated separator item).Takes bound
      (lead ++ (mark ++ gap).intercalate (indices.map spell)) (indices.map made) rest := by
  refine get_bind fun cursor ahead => separatedWithin separates ends items some leads ?_
  have wide : mark ++ gap ≠ [] := by simp [solid]
  have short := length_le_intercalate wide (indices.map spell)
  rw [List.length_map] at short
  simp only [ahead, List.length_append]
  omega

/-- Items with nothing but the mark between them. -/
theorem separated_tight {values : List α} {spell : α → List Char}
    (separates : ∀ following, separator.Takes bound mark true following)
    (ends : separator.Takes bound [] false rest)
    (items : ∀ value ∈ values, ∀ following,
      following = rest ∨ (∃ more, following = mark ++ more) →
        item.Takes bound (spell value) value following)
    (some : values ≠ []) (solid : mark ≠ []) :
    (Parser.separated separator item).Takes bound (mark.intercalate (values.map spell)) values
      rest := by
  have apart (following : List Char) : separator.Takes bound mark true ([] ++ following) :=
    separates following
  have all : (Parser.separated separator item).Takes bound
      ([] ++ (mark ++ []).intercalate (values.map spell)) (values.map id) rest := by
    refine separated apart ends (fun value member lead leads following follows => ?_) some solid
      (.inl rfl)
    rcases leads with rfl | rfl <;> exact items value member following follows
  rwa [List.append_nil, List.map_id] at all

end Separated

theorem countWithin_none {step : Parser Bool} (no : step.Takes bound [] false rest) (most : Nat) :
    (Parser.countWithin step most).Takes bound [] 0 rest := by
  cases most with
  | zero => exact .pure _ _
  | succ most => exact no.last (.pure _ _)

theorem count_none {step : Parser Bool} (no : step.Takes bound [] false rest) :
    (Parser.count step).Takes bound [] 0 rest :=
  get_bind fun _ _ => countWithin_none no _

theorem count_one {step : Parser Bool} (yes : step.Takes bound text true rest)
    (no : step.Takes bound [] false rest) (some : text ≠ []) :
    (Parser.count step).Takes bound text 1 rest := by
  refine get_bind fun cursor ahead => ?_
  obtain ⟨most, positive⟩ : ∃ most, cursor.ahead.length = most + 1 := by
    have positive := List.length_pos_of_ne_nil some
    rw [ahead, List.length_append]
    exact ⟨text.length + rest.length - 1, by omega⟩
  rw [positive]
  exact yes.last ((countWithin_none no most).last (.pure _ _))

end Takes

namespace Closes

theorem bind (takes : parser.Takes bound first value (second ++ rest))
    (later : (next value).Closes bound second result rest) :
    (parser >>= next).Closes bound (first ++ second) result rest := by
  intro cursor ahead room
  rw [List.append_assoc] at ahead
  rw [brackets_append] at room
  have inside : cursor.deeper.ahead = first ++ (second ++ rest) := ahead
  have taken := takes inside (room.deeper.mono (Nat.le_add_right _ _))
  rw [run_bind taken]
  have closed := later (Cursor.ahead_advance_of_append ahead) ((room.mono (by omega)).advance _)
  rw [Cursor.advance_advance_length] at closed
  exact closed

theorem step (takes : parser.Takes bound [] value (text ++ rest))
    (later : (next value).Closes bound text result rest) :
    (parser >>= next).Closes bound text result rest :=
  bind takes later

theorem last (takes : parser.Takes bound text value rest)
    (later : (next value).Closes bound [] result rest) :
    (parser >>= next).Closes bound text result rest := by
  rw [← List.append_nil text]
  exact bind takes later

theorem leave {next : PUnit → Parser β} (later : (next ⟨⟩).Takes bound text result rest) :
    (Parser.leave >>= next).Closes bound text result rest :=
  fun _ ahead room => later ahead (room.mono (Nat.le_succ _))

end Closes

end Parser

/-! What stands after a value or a name in the text of a query. -/

/-- The first characters of the words and signs that follow a value or a name. -/
def isLead (char : Char) : Bool :=
  Identifier.isStart char || "=!<>".toList.contains char

theorem forall_lead {test : Char → Bool}
    (parts : (List.range 128).all fun code =>
      !Identifier.isPart (Char.ofNat code) || test (Char.ofNat code))
    (signs : "=!<>".toList.all test = true) {char : Char} (lead : isLead char = true) :
    test char = true := by
  rcases Bool.or_eq_true_iff.1 lead with start | sign
  · exact Identifier.forall_part parts (Identifier.isPart_of_isStart start)
  · exact List.all_eq_true.1 signs char (List.contains_iff_mem.1 sign)

/-- Nothing follows, or a mark that ends every value, or a word or a sign after a blank. -/
inductive Follows : List Char → Prop where
  | nothing : Follows []
  | comma (rest : List Char) : Follows (',' :: rest)
  | closing (rest : List Char) : Follows (')' :: rest)
  | word {char : Char} (lead : isLead char = true) (rest : List Char) :
      Follows (' ' :: char :: rest)

namespace Follows

variable {rest : List Char}

theorem stops (follows : Follows rest) : Stops rest := by
  intro char given
  cases follows with
  | nothing => cases given
  | comma | closing | word =>
      cases given
      decide

theorem breaks (follows : Follows rest) : Breaks rest :=
  follows.stops.breaks

theorem isWordEnd (follows : Follows rest) : isWordEnd rest = true :=
  follows.breaks.isWordEnd

/-- After the blanks of what follows there is no mark but a comma or a closing bracket. -/
theorem exists_blanks (follows : Follows rest) :
    ∃ blanks after, rest = blanks ++ after ∧ blankLength (blanks ++ after) = .ok blanks.length ∧
      brackets blanks = 0 ∧
        ∀ mark, ",)".toList.contains mark = false → isLead mark = false →
          after.head? ≠ some mark := by
  cases follows with
  | nothing => exact ⟨[], [], rfl, by rw [blankLength.eq_def]; rfl, rfl, by simp⟩
  | comma rest =>
      refine ⟨[], ',' :: rest, rfl, ?_, rfl, ?_⟩
      · exact blankLength_solid (by decide) rest
      · rintro _ other _ ⟨⟩
        exact absurd other (by decide)
  | closing rest =>
      refine ⟨[], ')' :: rest, rfl, ?_, rfl, ?_⟩
      · exact blankLength_solid (by decide) rest
      · rintro _ other _ ⟨⟩
        exact absurd other (by decide)
  | @word char lead rest =>
      refine ⟨[' '], char :: rest, rfl, ?_, rfl, ?_⟩
      · exact blankLength_space (blankLength_solid (forall_lead (by decide +kernel) (by decide) lead)
          rest)
      · rintro _ _ other ⟨⟩
        rw [lead] at other
        cases other

end Follows

namespace Parser.Takes

variable {rest : List Char} {bound : Nat}

/-- No other mark stands after the blanks of what follows. -/
theorem charAhead_of_follows (follows : Follows rest) {mark : Char}
    (other : ",)".toList.contains mark = false) (notLead : isLead mark = false) :
    (Parser.charAhead mark).Takes bound [] false rest := by
  obtain ⟨blanks, after, rfl, blank, flat, absent⟩ := follows.exists_blanks
  exact charAhead_absent blank flat (absent mark other notLead)

/-- Items with a comma and a blank between them, each before a comma or the rest. -/
theorem commaSeparated {α : Type} {item : Parser α} {values : List α} {spell : α → List Char}
    {follows : List Char → Prop}
    (items : ∀ value ∈ values, ∀ lead, lead = [] ∨ lead = [' '] → ∀ following, follows following →
      item.Takes bound (lead ++ spell value) value following)
    (last : follows rest) (comma : ∀ more, follows (',' :: more))
    (ends : (Parser.charAhead ',').Takes bound [] false rest) (some : values ≠ [])
    {lead : List Char} (leads : lead = [] ∨ lead = [' ']) :
    (Parser.separated (Parser.charAhead ',') item).Takes bound
      (lead ++ ([','] ++ [' ']).intercalate (values.map spell)) values rest := by
  have separates (following : List Char) :
      (Parser.charAhead ',').Takes bound [','] true ([' '] ++ following) :=
    .charAhead (blankLength_solid (by decide) _)
  have all : (Parser.separated (Parser.charAhead ',') item).Takes bound
      (lead ++ ([','] ++ [' ']).intercalate (values.map spell)) (values.map id) rest := by
    refine .separated separates ends (fun value member lead leads following follow => ?_) some
      (by decide) leads
    refine items value member lead leads following ?_
    rcases follow with rfl | ⟨more, rfl⟩
    · exact last
    · exact comma more
  rwa [List.map_id] at all

end Parser.Takes

end ObjectQuery
