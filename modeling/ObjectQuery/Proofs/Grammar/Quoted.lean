import ObjectQuery.Proofs.Grammar.Value
import ObjectQuery.Proofs.Lexical.Plain
import ObjectQuery.Proofs.Syntax.Consume

namespace ObjectQuery

/-!
The grammar of quoted text: between its quotes stand plain characters and
escapes, each of which stands for the characters that it is read as.
-/

namespace Quoted

/-- The digits spell the code point of the character in a base. -/
structure Spells (base : Nat) (digits : List Char) (char : Char) : Prop where
  spelled : ∀ digit ∈ digits, Digit.isOf base digit = true
  code : Digit.number base digits = char.toNat

/-- What a single character after a backslash stands for. A wildcard keeps the backslash. -/
inductive Letter : Char → List Char → Prop
  | itself {char : Char} (known : char = '\\' ∨ char = '\'' ∨ char = '"' ∨ char = '\x60') :
      Letter char [char]
  | lineFeed {char : Char} (known : char = 'n' ∨ char = 'N') : Letter char ['\n']
  | carriageReturn {char : Char} (known : char = 'r' ∨ char = 'R') : Letter char ['\r']
  | verticalTab {char : Char} (known : char = 'v' ∨ char = 'V') : Letter char ['\x0b']
  | tab {char : Char} (known : char = 't' ∨ char = 'T') : Letter char ['\t']
  | backspace {char : Char} (known : char = 'b' ∨ char = 'B') : Letter char ['\x08']
  | formFeed {char : Char} (known : char = 'f' ∨ char = 'F') : Letter char ['\x0c']
  | wildcard {char : Char} (known : char = '_' ∨ char = '%') : Letter char ['\\', char]

/-- What the text after a backslash stands for. -/
inductive Escape : List Char → List Char → Prop
  | letter {char : Char} {value : List Char} (stands : Letter char value) : Escape [char] value
  | braced {mark char : Char} {digits : List Char} (known : mark = 'u' ∨ mark = 'U')
      (least : 1 ≤ digits.length) (most : digits.length ≤ 6) (spells : Spells 16 digits char) :
      Escape (mark :: '\x7b' :: (digits ++ ['\x7d'])) [char]
  | unicode {mark char : Char} {digits : List Char} (known : mark = 'u' ∨ mark = 'U')
      (length : digits.length = 4) (spells : Spells 16 digits char) :
      Escape (mark :: digits) [char]
  | byte {mark char : Char} {digits : List Char} (known : mark = 'x' ∨ mark = 'X')
      (length : digits.length = 2) (spells : Spells 16 digits char) :
      Escape (mark :: digits) [char]
  | octal {char : Char} {digits : List Char} (length : digits.length = 3)
      (spells : Spells 8 digits char) : Escape digits [char]

/-- A part of a quoted text and the characters that it stands for. -/
inductive Item (style : Style) : List Char → List Char → Prop
  | plain {char : Char} (unquoted : char ≠ style.quote) (unescaped : char ≠ '\\')
      (within : style.multiline = true ∨ char ≠ '\r' ∧ char ≠ '\n') : Item style [char] [char]
  | escape {text value : List Char} (stands : Escape text value) : Item style ('\\' :: text) value

/-- What stands between the quotes, part by part. -/
inductive Items (style : Style) : List Char → List Char → Prop
  | nil : Items style [] []
  | cons {text value rest others : List Char} (first : Item style text value)
      (later : Items style rest others) : Items style (text ++ rest) (value ++ others)

variable {style : Style} {text value rest : List Char} {char : Char} {length : Nat}

theorem Letter.letterEscape?_eq (stands : Letter char value) :
    letterEscape? char = some value := by
  cases stands with
  | itself known => rcases known with rfl | rfl | rfl | rfl <;> rfl
  | lineFeed known | carriageReturn known | verticalTab known | tab known | backspace known
  | formFeed known | wildcard known => rcases known with rfl | rfl <;> rfl

theorem Letter.isOf_eight (stands : Letter char value) : Digit.isOf 8 char = false := by
  cases stands with
  | itself known => rcases known with rfl | rfl | rfl | rfl <;> decide
  | lineFeed known | carriageReturn known | verticalTab known | tab known | backspace known
  | formFeed known | wildcard known => rcases known with rfl | rfl <;> decide

theorem letter_of_letterEscape? (found : letterEscape? char = some value) :
    Letter char value := by
  unfold letterEscape? at found
  split at found <;> cases found
  all_goals first
    | exact .itself (by decide)
    | exact .lineFeed (by decide)
    | exact .carriageReturn (by decide)
    | exact .verticalTab (by decide)
    | exact .tab (by decide)
    | exact .backspace (by decide)
    | exact .formFeed (by decide)
    | exact .wildcard (by decide)

theorem Spells.isValidChar {base : Nat} {digits : List Char} (spells : Spells base digits char) :
    (Digit.number base digits).isValidChar := by
  rw [spells.code]
  exact char.valid

theorem codePoint_of_spells {least most base : Nat} {digits : List Char}
    (spells : Spells base digits char) (enough : least ≤ digits.length)
    (fits : digits.length ≤ most)
    (stops : digits.length = most ∨ rest.head?.any (Digit.isOf base) = false) :
    codePoint least most base (digits ++ rest) = .ok (char, digits.length) := by
  have taken : ((digits ++ rest).take most).takeWhile (Digit.isOf base) = digits := by
    have whole : digits.takeWhile (Digit.isOf base) = digits :=
      List.takeWhile_eq_self_iff.2 spells.spelled
    rw [List.take_append, List.take_of_length_le fits]
    rcases stops with full | stops
    · rw [full, Nat.sub_self, List.take_zero, List.append_nil, whole]
    · refine (takeWhile_append_of_head? digits ?_).trans whole
      cases rest with
      | nil => simp
      | cons first others => cases most - digits.length <;> simp_all
  have valid := spells.isValidChar
  simp only [codePoint, taken, Nat.not_lt.2 enough, valid, if_false, if_true]
  rw [spells.code, Char.ofNat_toNat]

theorem spells_of_codePoint {least most base : Nat} {chars : List Char}
    (found : codePoint least most base chars = .ok (char, length)) :
    ∃ digits rest, chars = digits ++ rest ∧ digits.length = length ∧ least ≤ length ∧
      length ≤ most ∧ Spells base digits char := by
  simp only [codePoint] at found
  split at found
  · cases found
  · rename_i enough
    split at found
    · rename_i valid
      cases found
      have within := List.takeWhile_prefix (l := chars.take most) (Digit.isOf base)
      obtain ⟨rest, split⟩ := within.trans (List.take_prefix most chars)
      refine ⟨_, rest, split.symm, rfl, Nat.le_of_not_lt enough, ?_, ?_, ?_⟩
      · exact within.length_le.trans (List.length_take_le _ _)
      · exact fun digit => List.mem_takeWhile_imp
      · rw [Char.ofNat, dif_pos valid]
        rfl
    · cases found

theorem letterEscape?_of_isOf_eight (digit : Digit.isOf 8 char = true) :
    letterEscape? char = none := by
  cases found : letterEscape? char with
  | none => rfl
  | some value =>
      rw [(letter_of_letterEscape? found).isOf_eight] at digit
      cases digit

theorem fixedEscape_of_spells {count base : Nat} {digits : List Char}
    (spells : Spells base digits char) (exact : digits.length = count) (rest : List Char) :
    fixedEscape count base (digits ++ rest) = .ok ([char], count) := by
  subst exact
  have code : codePoint digits.length digits.length base (digits ++ rest) =
      .ok (char, digits.length) :=
    codePoint_of_spells spells le_rfl le_rfl (.inl rfl)
  rw [fixedEscape, code]
  rfl

theorem bracedEscape_of_spells {digits : List Char} (spells : Spells 16 digits char)
    (least : 1 ≤ digits.length) (most : digits.length ≤ 6) (rest : List Char) :
    bracedEscape (digits ++ '\x7d' :: rest) = .ok ([char], digits.length + 1) := by
  have unspelled : Digit.isOf 16 '\x7d' = false := by decide
  have code : codePoint 1 6 16 (digits ++ '\x7d' :: rest) = .ok (char, digits.length) :=
    codePoint_of_spells spells least most (.inr (by simpa))
  simp [bracedEscape, code]

/-- An escape is read as what it stands for, whatever follows it. -/
theorem Escape.read (stands : Escape text value) (rest : List Char) :
    escape (text ++ rest) = .ok (value, text.length) := by
  cases stands with
  | letter stands => simp [Quoted.escape, stands.letterEscape?_eq]
  | @braced mark char digits known least most spells =>
      have unlettered : letterEscape? mark = none := by rcases known with rfl | rfl <;> rfl
      have inner := bracedEscape_of_spells spells least most rest
      simp only [Quoted.escape, List.cons_append, List.append_assoc, List.nil_append, unlettered,
        known, if_true, inner, Reading.shift, List.length_cons, List.length_append,
        List.length_nil]
      congr 2
      omega
  | @unicode mark char digits known length spells =>
      have unlettered : letterEscape? mark = none := by rcases known with rfl | rfl <;> rfl
      obtain ⟨first, others, rfl⟩ := List.exists_cons_of_length_eq_add_one length
      have unbraced : first ≠ '\x7b' := by
        rintro rfl
        exact absurd (spells.spelled _ List.mem_cons_self) (by decide)
      have inner := fixedEscape_of_spells spells length rest
      simp only [Quoted.escape, List.cons_append, unlettered, known, if_true] at inner ⊢
      split
      · rename_i opened
        exact absurd (List.cons.inj opened).1 unbraced
      · rw [inner, Reading.shift, List.length_cons, length]
  | @byte mark char digits known length spells =>
      have unlettered : letterEscape? mark = none ∧ ¬(mark = 'u' ∨ mark = 'U') := by
        rcases known with rfl | rfl <;> decide
      have inner := fixedEscape_of_spells spells length rest
      simp only [Quoted.escape, List.cons_append, unlettered, known, if_true, if_false,
        inner, Reading.shift, List.length_cons, length]
  | @octal char _ length spells =>
      obtain ⟨first, others, rfl⟩ := List.exists_cons_of_length_eq_add_one length
      have digit := spells.spelled first List.mem_cons_self
      have unmarked : ¬(first = 'u' ∨ first = 'U') ∧ ¬(first = 'x' ∨ first = 'X') := by
        constructor <;> rintro (rfl | rfl) <;> exact absurd digit (by decide)
      have inner := fixedEscape_of_spells spells length rest
      rw [List.cons_append] at inner ⊢
      simp only [Quoted.escape, letterEscape?_of_isOf_eight digit, unmarked, digit, if_true,
        if_false, inner, length]

theorem spells_of_fixedEscape {count base : Nat} {chars : List Char}
    (found : fixedEscape count base chars = .ok (value, length)) :
    ∃ digits rest char, chars = digits ++ rest ∧ digits.length = count ∧ length = count ∧
      Spells base digits char ∧ value = [char] := by
  obtain ⟨⟨char, taken⟩, code, same⟩ := Except.map_eq_ok_iff.1 found
  cases same
  obtain ⟨digits, rest, rfl, rfl, least, most, spells⟩ := spells_of_codePoint code
  have exact : digits.length = count := Nat.le_antisymm most least
  exact ⟨digits, rest, char, rfl, exact, exact, spells, rfl⟩

theorem spells_of_bracedEscape {chars : List Char}
    (found : bracedEscape chars = .ok (value, length)) :
    ∃ digits rest char, chars = digits ++ '\x7d' :: rest ∧ 1 ≤ digits.length ∧
      digits.length ≤ 6 ∧ length = digits.length + 1 ∧ Spells 16 digits char ∧ value = [char] := by
  unfold bracedEscape at found
  split at found
  · rename_i char count code
    obtain ⟨digits, after, rfl, rfl, least, most, spells⟩ := spells_of_codePoint code
    rw [List.drop_left] at found
    split at found
    · rename_i closed
      cases found
      obtain ⟨rest, rfl⟩ := List.head?_eq_some_iff.1 closed
      exact ⟨digits, rest, char, rfl, least, most, rfl, spells, rfl⟩
    · cases found
  · cases found

/-- What is read as an escape is one, and stands for what was read. -/
theorem escape_of_ok {chars : List Char} (found : escape chars = .ok (value, length)) :
    ∃ text rest, chars = text ++ rest ∧ text.length = length ∧ Escape text value := by
  cases chars with
  | nil => cases found
  | cons char others =>
      simp only [escape] at found
      split at found
      · rename_i stands
        cases found
        exact ⟨[char], others, rfl, rfl, .letter (letter_of_letterEscape? stands)⟩
      · split at found
        · rename_i known
          split at found
          · obtain ⟨taken, read, rfl⟩ := exists_of_shift found
            obtain ⟨digits, rest, code, rfl, least, most, rfl, spells, rfl⟩ :=
              spells_of_bracedEscape read
            refine ⟨_, rest, ?_, ?_, .braced known least most spells⟩
            · simp
            · simp only [List.length_cons, List.length_append, List.length_nil]
              omega
          · obtain ⟨taken, read, rfl⟩ := exists_of_shift found
            obtain ⟨digits, rest, code, rfl, exact, rfl, spells, rfl⟩ := spells_of_fixedEscape read
            exact ⟨char :: digits, rest, rfl, by simp [exact], .unicode known exact spells⟩
        · split at found
          · rename_i known
            obtain ⟨taken, read, rfl⟩ := exists_of_shift found
            obtain ⟨digits, rest, code, rfl, exact, rfl, spells, rfl⟩ := spells_of_fixedEscape read
            exact ⟨char :: digits, rest, rfl, by simp [exact], .byte known exact spells⟩
          · split at found
            · obtain ⟨digits, rest, code, same, exact, rfl, spells, rfl⟩ :=
                spells_of_fixedEscape found
              exact ⟨digits, rest, same, exact, .octal exact spells⟩
            · cases found

/-- The parts of a quoted text are read up to the closing quote. -/
theorem Items.read (items : Items style text value) (closing : style.quote ≠ '\\')
    (rest : List Char) :
    body style (text ++ style.quote :: rest) = .ok (value, text.length + 1) := by
  induction items with
  | nil =>
      rw [List.nil_append, body.eq_def]
      simp
  | @cons part value later others first items induction =>
      rw [List.append_assoc]
      cases first with
      | @plain char unquoted unescaped within =>
          have inside : (!style.multiline && Blank.isLineEnd char) = false := by
            rcases within with multiline | ⟨return_, feed⟩
            · simp [multiline]
            · simp [Blank.isLineEnd, return_, feed]
          rw [List.singleton_append, body.eq_def]
          simp only [unquoted, unescaped, inside, if_false, Bool.false_eq_true, induction, prepend]
          simp only [List.singleton_append, List.length_cons, Nat.add_comm]
      | @escape part _ stands =>
          rw [List.cons_append, body.eq_def]
          simp only [Ne.symm closing, if_false, if_true, stands.read, List.drop_left, induction,
            prepend, List.cons_append, List.length_cons, List.length_append]
          congr 2
          omega

/-- A text that is read as quoted ends at its closing quote, after the parts that were read. -/
theorem items_of_body {chars : List Char} (found : body style chars = .ok (value, length)) :
    ∃ text rest, chars = text ++ style.quote :: rest ∧ length = text.length + 1 ∧
      Items style text value := by
  -- An escape may be of any length, so the induction is on that of the text that is left.
  induction size : chars.length using Nat.strongRecOn generalizing chars value length with
  | ind bound induction =>
      subst size
      cases chars with
      | nil =>
          rw [body] at found
          cases found
      | cons char later =>
          rw [body] at found
          split at found
          · rename_i closes
            cases found
            exact ⟨[], later, by rw [closes, List.nil_append], rfl, .nil⟩
          · rename_i unquoted
            split at found
            · rename_i escapes
              split at found
              · rename_i unit count read
                obtain ⟨part, others, rfl, rfl, stands⟩ := escape_of_ok read
                rw [List.drop_left] at found
                obtain ⟨values, taken, body, rfl, rfl⟩ := exists_of_prepend found
                have shorter : others.length < (char :: (part ++ others)).length := by
                  rw [List.length_cons, List.length_append]
                  omega
                obtain ⟨text, rest, rfl, rfl, items⟩ := induction _ shorter body rfl
                refine ⟨'\\' :: part ++ text, rest, ?_, ?_, .cons (.escape stands) items⟩
                · simp [escapes]
                · simp only [List.cons_append, List.length_cons, List.length_append]
                  omega
              · cases found
            · rename_i unescaped
              split at found
              · cases found
              · rename_i within
                obtain ⟨values, taken, body, rfl, rfl⟩ := exists_of_prepend found
                obtain ⟨text, rest, rfl, rfl, items⟩ := induction _ (Nat.lt_succ_self _) body rfl
                refine ⟨[char] ++ text, rest, rfl, ?_, .cons (.plain unquoted unescaped ?_) items⟩
                · rw [List.length_append, List.length_singleton, Nat.add_assoc]
                · cases multiline : style.multiline with
                  | true => exact .inl rfl
                  | false => exact .inr (by simpa [multiline, Blank.isLineEnd] using within)

end Quoted

open Quoted (Style Items)

/-- A quoted text begins with its quote, and ends with the first one that is no part of it. -/
theorem quoted_eq_found_iff {style : Style} (closing : style.quote ≠ '\\') {chars : List Char}
    {value : String} {length : Nat} :
    quoted style chars = .found value length ↔
      ∃ text rest, chars = style.quote :: (text ++ style.quote :: rest) ∧
        length = text.length + 2 ∧ Items style text value.toList := by
  constructor
  · intro found
    unfold quoted at found
    split at found
    · cases found
    · split at found
      · rename_i opens
        split at found
        · rename_i read
          cases found
          obtain ⟨text, rest, rfl, rfl, items⟩ := Quoted.items_of_body read
          exact ⟨text, rest, by rw [opens], rfl, by rwa [String.toList_ofList]⟩
        · cases found
      · cases found
  · rintro ⟨text, rest, rfl, rfl, items⟩
    simp [quoted, items.read closing rest]

namespace Grammar

open ObjectQuery.Parser

variable {style : Style} {cursor after : Cursor}

theorem requiredQuoted_run {value : String} :
    requiredQuoted style cursor = .ok value after ↔
      ∃ length, quoted style cursor.ahead = .found value length ∧
        after = cursor.advance length := by
  have look := lexeme_run (quoted style) cursor
  cases found : quoted style cursor.ahead with
  | absent =>
      rw [found] at look
      rw [requiredQuoted, run_bind look]
      constructor
      · intro read
        cases read
      · rintro ⟨_, same, _⟩
        cases same
  | found text length =>
      rw [found] at look
      rw [requiredQuoted, run_bind look]
      constructor
      · intro read
        cases read
        exact ⟨length, rfl, rfl⟩
      · rintro ⟨_, same, rfl⟩
        cases same
        rfl
  | spoilt fault start stop =>
      rw [found] at look
      rw [requiredQuoted, run_bind_of_error look]
      constructor
      · intro read
        cases read
      · rintro ⟨_, same, _⟩
        cases same

/--
Quoted text is read exactly where a quote stands ahead, then parts that stand for
the value, and then the quote again, behind which the cursor stops. A text that
is shown is read again, whatever follows it.
-/
theorem requiredQuoted_eq_ok_iff (known : style = .value ∨ style = .symbol) (cursor : Cursor) :
    (∀ value after, requiredQuoted style cursor = .ok value after ↔
      ∃ text, cursor.ahead = style.quote :: (text ++ style.quote :: after.ahead) ∧
        Items style text value.toList ∧ after = cursor.advance (text.length + 2)) ∧
      ∀ value rest, cursor.ahead = (Literal.text value).render.toList ++ rest →
        ∃ after, requiredQuoted .value cursor = .ok value after ∧ after.ahead = rest := by
  have closing : style.quote ≠ '\\' := by
    rcases known with rfl | rfl <;> decide
  constructor
  · intro value after
    rw [requiredQuoted_run]
    constructor
    · rintro ⟨length, found, rfl⟩
      obtain ⟨text, rest, ahead, rfl, items⟩ := (quoted_eq_found_iff closing).1 found
      refine ⟨text, ?_, items, rfl⟩
      simp [ahead]
    · rintro ⟨text, ahead, items, moved⟩
      exact ⟨_, (quoted_eq_found_iff closing).2 ⟨text, _, ahead, rfl, items⟩, moved⟩
  · intro value rest ahead
    rw [Literal.render] at ahead
    have found := Literal.quoted_quote value rest
    rw [← ahead] at found
    refine ⟨_, requiredQuoted_run.2 ⟨_, found, rfl⟩, ?_⟩
    rw [Cursor.ahead_advance, ahead, List.drop_left]

/-- A name that spells its second letter by its code point. -/
def spelledName : Cursor := .ofText "\"A\\u0042\" x" none

theorem requiredQuoted_spelledName : (Style.symbol = .value ∨ Style.symbol = .symbol) ∧
    requiredQuoted .symbol spelledName = .ok "AB" (spelledName.advance 9) := by
  have letter : Quoted.Item .symbol ['A'] ['A'] :=
    .plain (by decide) (by decide) (.inr (by decide))
  have digits : ['0', '0', '4', '2'].all (Digit.isOf 16) = true := by decide
  have escape : Quoted.Item .symbol "\\u0042".toList ['B'] :=
    .escape (.unicode (.inl rfl) rfl ⟨List.all_eq_true.1 digits, by decide⟩)
  refine ⟨.inr rfl, ((requiredQuoted_eq_ok_iff (.inr rfl) spelledName).1 "AB" _).2 ?_⟩
  exact ⟨"A\\u0042".toList, rfl, .cons letter (.cons escape .nil), rfl⟩

end Grammar

end ObjectQuery
