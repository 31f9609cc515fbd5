import Mathlib.Data.List.TakeWhile
import ObjectQuery.Lexical.Keyword
import ObjectQuery.Proofs.Lexical.Plain

namespace ObjectQuery

/-! Names and keywords, which are known by their letters alone where nothing continues them. -/

theorem isWordEnd_drop {text rest : List Char} {count : Nat} (inside : count ≤ text.length)
    (ends : isWordEnd rest = true) :
    isWordEnd ((text ++ rest).drop count) = isWordEnd (text.drop count) := by
  rw [List.drop_append_of_le_length inside]
  cases text.drop count with
  | nil => exact ends
  | cons char others => rfl

theorem isWordEnd_drop_takeWhile (text : List Char) :
    isWordEnd (text.drop (text.takeWhile isWordChar).length) = true := by
  induction text with
  | nil => rfl
  | cons char others induction =>
      by_cases part : isWordChar char = true
      · rw [List.takeWhile_cons_of_pos part]
        exact induction
      · rw [List.takeWhile_cons_of_neg part]
        simpa [isWordEnd] using part

/-- The characters after which a name or a value is over. -/
def isBreak (char : Char) : Bool :=
  " ,.():".toList.contains char

/-- Nothing is left, or what is left begins with a break. -/
def Breaks (rest : List Char) : Prop :=
  ∀ char ∈ rest.head?, isBreak char = true

theorem breaks_cons {char : Char} (isBreak : isBreak char = true) (rest : List Char) :
    Breaks (char :: rest) := by
  rintro _ ⟨⟩
  exact isBreak

theorem forall_break {test : Char → Bool} (all : " ,.():".toList.all test = true) {char : Char}
    (break_ : isBreak char = true) : test char = true :=
  List.all_eq_true.1 all char (List.contains_iff_mem.1 break_)

theorem Breaks.isWordEnd {rest : List Char} (breaks : Breaks rest) : isWordEnd rest = true := by
  cases rest with
  | nil => rfl
  | cons char others =>
      have all : " ,.():".toList.all (fun char => !isWordChar char) = true := by decide
      have none := forall_break all (breaks char rfl)
      simpa [ObjectQuery.isWordEnd] using none

namespace Identifier

theorem toNat_lt_of_isPart {char : Char} (part : isPart char = true) : char.toNat < 128 := by
  delta isPart Char.isAlphanum Char.isAlpha Char.isUpper Char.isLower Char.isDigit at part
  simp only [Bool.or_eq_true, Bool.and_eq_true, decide_eq_true_eq, beq_iff_eq, ge_iff_le,
    UInt32.le_iff_toNat_le] at part
  have code : char.val.toNat = char.toNat := rfl
  have bounds : 'Z'.val.toNat = 90 ∧ 'z'.val.toNat = 122 ∧ '9'.val.toNat = 57 := by decide
  rcases part with ((((upper | lower) | digit) | rfl) | rfl)
  · omega
  · omega
  · omega
  · decide
  · decide

/-- What holds of every part of an identifier is decided on the characters of ASCII. -/
theorem forall_part {test : Char → Bool}
    (all : (List.range 128).all fun code => !isPart (Char.ofNat code) || test (Char.ofNat code))
    {char : Char} (part : isPart char = true) : test char = true := by
  have checked := List.all_eq_true.1 all char.toNat
    (List.mem_range.2 (toNat_lt_of_isPart part))
  simpa [Char.ofNat_toNat, part] using checked

theorem isPart_of_isStart {char : Char} (start : isStart char = true) : isPart char = true := by
  simp only [isStart, isPart, Char.isAlphanum, Bool.or_eq_true] at start ⊢
  rcases start with (alpha | underscore) | dollar
  · exact .inl (.inl (.inl alpha))
  · exact .inl (.inr underscore)
  · exact .inr dollar

theorem forall_start {test : Char → Bool}
    (all : (List.range 128).all fun code => !isStart (Char.ofNat code) || test (Char.ofNat code))
    {char : Char} (start : isStart char = true) : test char = true := by
  have checked := List.all_eq_true.1 all char.toNat
    (List.mem_range.2 (toNat_lt_of_isPart (isPart_of_isStart start)))
  simpa [Char.ofNat_toNat, start] using checked

theorem isWordChar_of_isPart {char : Char} (part : isPart char = true) : isWordChar char = true :=
  forall_part (by decide +kernel) part

theorem solid_of_isPart {char : Char} (part : isPart char = true) : isSolid char = true :=
  forall_part (by decide +kernel) part

theorem ne_quote_of_isPart {char : Char} (part : isPart char = true) : '\'' ≠ char := by
  rintro rfl
  exact absurd part (by decide)

end Identifier

/-- The text is a plain identifier. -/
structure IsName (name : String) : Prop where
  start : Identifier.isAhead name.toList = true
  parts : ∀ char ∈ name.toList, Identifier.isPart char = true

instance (name : String) : Decidable (IsName name) :=
  decidable_of_iff
    (Identifier.isAhead name.toList = true ∧ name.toList.all Identifier.isPart = true)
    ⟨fun ⟨start, parts⟩ => ⟨start, List.all_eq_true.1 parts⟩,
      fun isName => ⟨isName.start, List.all_eq_true.2 isName.parts⟩⟩

namespace IsName

variable {name : String} {rest : List Char}

theorem ne_nil (isName : IsName name) : name.toList ≠ [] := by
  intro none
  have start := isName.start
  rw [none] at start
  cases start

theorem exists_cons (isName : IsName name) :
    ∃ first others, name.toList = first :: others ∧ Identifier.isStart first = true := by
  obtain ⟨first, others, shape⟩ := List.exists_cons_of_ne_nil isName.ne_nil
  have start := isName.start
  rw [shape] at start
  exact ⟨first, others, shape, start⟩

theorem isAhead_append (isName : IsName name) (rest : List Char) :
    Identifier.isAhead (name.toList ++ rest) = true := by
  obtain ⟨first, others, shape, start⟩ := isName.exists_cons
  rw [shape]
  exact start

theorem takeWhile_append {test : Char → Bool} (isName : IsName name)
    (parts : ∀ char, Identifier.isPart char = true → test char = true)
    (ends : rest.head?.any test = false) : (name.toList ++ rest).takeWhile test = name.toList := by
  rw [List.takeWhile_append_of_pos fun char member => parts char (isName.parts char member)]
  cases rest with
  | nil => exact List.append_nil _
  | cons char others =>
      rw [List.takeWhile_cons_of_neg (by simpa using ends), List.append_nil]

theorem identifier (isName : IsName name) (ends : isWordEnd rest = true) :
    ObjectQuery.identifier (name.toList ++ rest) = .found name name.toList.length := by
  have stops : rest.head?.any Identifier.isPart = false := by
    cases rest with
    | nil => rfl
    | cons char others =>
        have past : isWordChar char = false := by simpa [isWordEnd] using ends
        exact Bool.eq_false_iff.2 fun part =>
          Bool.eq_false_iff.1 past (Identifier.isWordChar_of_isPart part)
  have taken := isName.takeWhile_append (fun char part => part) stops
  simp only [ObjectQuery.identifier, isName.isAhead_append, if_true, taken, List.drop_left, ends,
    String.ofList_toList]

end IsName

theorem exists_of_identifier {chars : List Char} {name : String} {length : Nat}
    (found : identifier chars = .found name length) :
    IsName name ∧ ∃ rest, chars = name.toList ++ rest ∧ length = name.toList.length ∧
      isWordEnd rest = true := by
  unfold identifier at found
  split at found
  · rename_i ahead
    dsimp only at found
    split at found
    · rename_i ends
      cases found
      have split := List.prefix_iff_eq_append.1 (List.takeWhile_prefix Identifier.isPart (l := chars))
      refine ⟨⟨?_, ?_⟩, _, ?_, ?_, ends⟩
      · cases chars with
        | nil => cases ahead
        | cons first others =>
            have start : Identifier.isStart first = true := ahead
            rw [String.toList_ofList,
              List.takeWhile_cons_of_pos (Identifier.isPart_of_isStart start)]
            exact start
      · intro char member
        rw [String.toList_ofList] at member
        exact List.mem_takeWhile_imp member
      · rw [String.toList_ofList, split]
      · rw [String.toList_ofList]
    · cases found
  · cases found

theorem exists_identifier_of_parameter {chars : List Char} {name : String} {length : Nat}
    (found : parameter chars = .found name length) :
    ∃ rest count, chars = ':' :: rest ∧ identifier rest = .found name count ∧
      length = count + 1 := by
  unfold parameter at found
  split at found
  · rename_i rest
    cases read : identifier rest with
    | absent => simp [read, Lexeme.shift] at found
    | spoilt fault start stop => simp [read, Lexeme.shift] at found
    | found word count =>
        rw [read] at found
        cases found
        exact ⟨rest, count, rfl, read, Nat.add_comm 1 count⟩
  · cases found

namespace Keyword

variable {word text rest : List Char} {count : Nat}

theorem wordLength?_le (found : wordLength? word text = some count) : count ≤ text.length := by
  induction word generalizing text count with
  | nil =>
      cases found
      exact Nat.zero_le _
  | cons expected others induction =>
      cases text with
      | nil => cases found
      | cons char rest =>
          simp only [wordLength?] at found
          split at found
          · obtain ⟨fewer, later, rfl⟩ := Option.map_eq_some_iff.1 found
            exact Nat.succ_le_succ (induction later)
          · cases found

/-- What is left matches no letter of the word. -/
def Alien (word rest : List Char) : Prop :=
  ∀ char ∈ rest.head?, ∀ expected ∈ word, sameUpper char expected = false

theorem wordLength?_append (alien : Alien word rest) :
    wordLength? word (text ++ rest) = wordLength? word text := by
  induction word generalizing text with
  | nil =>
      rw [wordLength?, wordLength?]
  | cons expected others induction =>
      cases text with
      | nil =>
          cases rest with
          | nil => rfl
          | cons char rest =>
              simp [wordLength?, alien char rfl expected List.mem_cons_self]
      | cons char text =>
          have later : Alien others rest := fun char given letter member =>
            alien char given letter (List.mem_cons_of_mem _ member)
          simp only [List.cons_append, wordLength?, induction later]

theorem wordLength?_append_of_some (found : wordLength? word text = some count) :
    wordLength? word (text ++ rest) = some count := by
  induction word generalizing text count with
  | nil =>
      cases found
      rw [wordLength?]
  | cons expected others induction =>
      cases text with
      | nil => cases found
      | cons char text =>
          simp only [List.cons_append, wordLength?] at found ⊢
          split at found
          · obtain ⟨fewer, later, rfl⟩ := Option.map_eq_some_iff.1 found
            rw [if_pos ‹_›, induction later]
            rfl
          · cases found

/-- Breaks and quotes match no letter of the keyword. -/
def isLettered (keyword : Keyword) : Bool :=
  keyword.words.all (·.all fun letter =>
    !sameUpper '\'' letter && " ,.():".toList.all fun char => !sameUpper char letter)

theorem alien_of_breaks {keyword : Keyword} (lettered : keyword.isLettered = true)
    (member : word ∈ keyword.words) (breaks : Breaks rest) : Alien word rest := by
  intro char given expected isLetter
  have letters := List.all_eq_true.1 (List.all_eq_true.1 lettered word member) expected isLetter
  simpa using forall_break (Bool.and_eq_true_iff.1 letters).2 (breaks char given)

theorem quote_not_mem_of_wordLength? {chars : List Char}
    (unquoted : ∀ letter ∈ word, sameUpper '\'' letter = false)
    (found : wordLength? word chars = some count) : '\'' ∉ chars.take count := by
  induction word generalizing chars count with
  | nil =>
      cases found
      exact List.not_mem_nil
  | cons expected others induction =>
      cases chars with
      | nil => cases found
      | cons char rest =>
          obtain ⟨letter, letters⟩ := List.forall_mem_cons.1 unquoted
          simp only [wordLength?] at found
          split at found
          · rename_i same
            obtain ⟨fewer, later, rfl⟩ := Option.map_eq_some_iff.1 found
            rw [List.take_succ_cons, List.mem_cons, not_or]
            refine ⟨?_, induction letters later⟩
            rintro rfl
            simp [letter] at same
          · cases found

theorem quote_not_mem_of_laterWordsLength? {words : List (List Char)} {chars : List Char}
    (unquoted : ∀ word ∈ words, ∀ letter ∈ word, sameUpper '\'' letter = false)
    (found : laterWordsLength? words chars = some count) : '\'' ∉ chars.take count := by
  induction words generalizing chars count with
  | nil =>
      cases found
      exact List.not_mem_nil
  | cons word words induction =>
      obtain ⟨own, others⟩ := List.forall_mem_cons.1 unquoted
      obtain ⟨length, spaced, found⟩ := Option.bind_eq_some_iff.1 found
      obtain ⟨more, later, count_eq⟩ := Option.bind_eq_some_iff.1 found
      cases count_eq
      refine Plain.quote_not_mem_take_add ?_ (induction others later)
      unfold laterWordLength? at spaced
      split at spaced
      · cases spaced
      · obtain ⟨letters, whole, rfl⟩ := Option.map_eq_some_iff.1 spaced
        refine Plain.quote_not_mem_take_add ?_ (quote_not_mem_of_wordLength? own whole)
        exact Plain.quote_not_mem_take_takeWhile (by decide) chars

theorem quote_not_mem {keyword : Keyword} {chars : List Char}
    (lettered : keyword.isLettered = true) (found : keyword.length? chars = some count) :
    '\'' ∉ chars.take count := by
  have unquoted : ∀ word ∈ keyword.words, ∀ letter ∈ word, sameUpper '\'' letter = false := by
    intro word member letter isLetter
    have letters := List.all_eq_true.1 (List.all_eq_true.1 lettered word member) letter isLetter
    simpa using (Bool.and_eq_true_iff.1 letters).1
  obtain ⟨total, counted, ended⟩ := Option.bind_eq_some_iff.1 found
  have total_eq : total = count := by
    split at ended
    · cases ended
    · exact Option.some.inj ended
  subst total_eq
  cases words : keyword.words with
  | nil =>
      rw [words] at counted
      cases counted
      exact List.not_mem_nil
  | cons word others =>
      rw [words] at counted unquoted
      obtain ⟨own, later⟩ := List.forall_mem_cons.1 unquoted
      obtain ⟨length, whole, counted⟩ := Option.bind_eq_some_iff.1 counted
      obtain ⟨more, follows, total_eq⟩ := Option.bind_eq_some_iff.1 counted
      cases total_eq
      exact Plain.quote_not_mem_take_add (quote_not_mem_of_wordLength? own whole)
        (quote_not_mem_of_laterWordsLength? later follows)

theorem length?_pos {letter : Char} {word text : List Char} {words : List (List Char)} {ends : Bool}
    {count : Nat} (found : length? ⟨(letter :: word) :: words, ends⟩ text = some count) :
    0 < count ∧ text ≠ [] := by
  cases text with
  | nil => simp [length?, wordsLength?, wordLength?] at found
  | cons char rest =>
      obtain ⟨total, counted, ended⟩ := Option.bind_eq_some_iff.1 found
      obtain ⟨length, whole, counted⟩ := Option.bind_eq_some_iff.1 counted
      obtain ⟨more, follows, total_eq⟩ := Option.bind_eq_some_iff.1 counted
      cases total_eq
      rw [wordLength?] at whole
      split at whole
      · obtain ⟨fewer, -, rfl⟩ := Option.map_eq_some_iff.1 whole
        split at ended
        · cases ended
        · cases ended
          exact ⟨by omega, List.cons_ne_nil _ _⟩
      · cases whole

theorem length?_append_of_word {ends : Bool}
    (same : wordLength? word (text ++ rest) = wordLength? word text)
    (past : isWordEnd rest = true) :
    length? ⟨[word], ends⟩ (text ++ rest) = length? ⟨[word], ends⟩ text := by
  simp only [length?, wordsLength?, same]
  cases found : wordLength? word text with
  | none => rfl
  | some count => simp [laterWordsLength?, isWordEnd_drop (wordLength?_le found) past]

/-- A keyword of one word is found in a text alone as it is before a break. -/
theorem length?_append {ends : Bool} (lettered : isLettered ⟨[word], ends⟩ = true)
    (breaks : Breaks rest) : length? ⟨[word], ends⟩ (text ++ rest) = length? ⟨[word], ends⟩ text :=
  length?_append_of_word
    (wordLength?_append (alien_of_breaks lettered List.mem_cons_self breaks)) breaks.isWordEnd

theorem length?_append_of_some {ends : Bool} (found : length? ⟨[word], ends⟩ text = some count)
    (past : isWordEnd rest = true) : length? ⟨[word], ends⟩ (text ++ rest) = some count := by
  simp only [length?, wordsLength?] at found ⊢
  cases whole : wordLength? word text with
  | none => simp [whole] at found
  | some length =>
      rw [whole] at found
      rw [wordLength?_append_of_some whole]
      simpa [laterWordsLength?, isWordEnd_drop (wordLength?_le whole) past] using found

theorem length?_eq_none_of_append {ends : Bool}
    (absent : length? ⟨[word], ends⟩ (text ++ rest) = none) (past : isWordEnd rest = true) :
    length? ⟨[word], ends⟩ text = none := by
  rw [Option.eq_none_iff_forall_ne_some]
  intro count found
  rw [length?_append_of_some found past] at absent
  cases absent

/-- The second word of a keyword, after the blanks that separate it from the first. -/
def later (word : List Char) : Keyword :=
  ⟨[[], word], true⟩

theorem length?_later (word chars : List Char) :
    (later word).length? chars = (laterWordLength? word chars).bind fun length =>
      if isWordEnd (chars.drop length) then some length else none := by
  simp only [length?, later, wordsLength?, wordLength?, laterWordsLength?, Option.pure_def,
    Option.bind_eq_bind, Option.bind_some, List.drop_zero, Bool.true_and]
  cases laterWordLength? word chars with
  | none => rfl
  | some length =>
      simp only [Option.bind_some, Nat.add_zero, Nat.zero_add]
      cases isWordEnd (chars.drop length) <;> rfl

theorem length?_pair {first second : List Char} (found : wordLength? first text = some text.length)
    (follows : (later second).length? rest = some count) :
    length? ⟨[first, second], true⟩ (text ++ rest) = some (text.length + count) := by
  rw [length?_later] at follows
  obtain ⟨length, spaced, past⟩ := Option.bind_eq_some_iff.1 follows
  split at past
  · rename_i ends
    cases past
    simpa [length?, wordsLength?, wordLength?_append_of_some found, laterWordsLength?, spaced]
      using ends
  · cases past

theorem laterWordLength?_solid {char : Char} (solid : isWhiteSpace char = false) :
    laterWordLength? word (char :: rest) = none := by
  simp [laterWordLength?, solid]

/-- A keyword of two words is found where the first is and the second follows. -/
theorem exists_of_length?_pair {first second : List Char}
    (found : length? ⟨[first, second], true⟩ (text ++ rest) = some count)
    (alien : Alien first rest) (solid : ∀ char ∈ text, isWhiteSpace char = false) :
    wordLength? first text = some text.length ∧
      ∃ length, (later second).length? rest = some length := by
  obtain ⟨total, counted, ended⟩ := Option.bind_eq_some_iff.1 found
  obtain ⟨length, whole, counted⟩ := Option.bind_eq_some_iff.1 counted
  obtain ⟨others, follows, total_eq⟩ := Option.bind_eq_some_iff.1 counted
  obtain ⟨gap, spaced, others_eq⟩ := Option.bind_eq_some_iff.1 follows
  cases others_eq
  cases total_eq
  rw [wordLength?_append alien] at whole
  have inside := wordLength?_le whole
  by_cases short : length < text.length
  · have member := solid _ (List.getElem_mem short)
    rw [List.drop_append_of_le_length inside, List.drop_eq_getElem_cons short, List.cons_append,
      laterWordLength?_solid member] at spaced
    cases spaced
  · obtain rfl : length = text.length := by omega
    rw [List.drop_left] at spaced
    refine ⟨whole, gap, ?_⟩
    rw [length?_later, spaced, Option.bind_some]
    simp only [Bool.true_and, ← List.drop_drop, List.drop_left, Nat.add_zero] at ended
    cases ends : isWordEnd (rest.drop gap) with
    | false => simp [ends] at ended
    | true => rfl

theorem laterWordLength?_blanks {blanks : List Char}
    (white : ∀ char ∈ blanks, isWhiteSpace char = true) (some_ : blanks ≠ [])
    (solid : rest.head?.any isWhiteSpace = false) :
    laterWordLength? word (blanks ++ rest) =
      (wordLength? word rest).map (blanks.length + ·) := by
  have taken : (blanks ++ rest).takeWhile isWhiteSpace = blanks := by
    rw [List.takeWhile_append_of_pos white]
    cases rest with
    | nil => exact List.append_nil _
    | cons char others =>
        rw [List.takeWhile_cons_of_neg (by simpa using solid), List.append_nil]
  unfold laterWordLength?
  rw [taken]
  split
  · rename_i none
    exact absurd (List.eq_nil_of_length_eq_zero none) some_
  · rw [List.drop_left]

/-- The words that open a clause alone. -/
def clauseWords : List (List Char) :=
  ["SELECT", "FROM", "WHERE", "HAVING", "OFFSET", "LIMIT", "FOR"].map String.toList

/-- The first words of the keywords of two that open a clause. -/
def pairedWords : List (List Char) :=
  ["GROUP", "ORDER"].map String.toList

/-- The second word of the keywords of two that open a clause. -/
def pairingWord : List Char :=
  "BY".toList

theorem isReserved_eq_false_iff {chars : List Char} : isReserved chars = false ↔
    (∀ word ∈ clauseWords, length? ⟨[word], true⟩ chars = none) ∧
      ∀ first ∈ pairedWords, length? ⟨[first, pairingWord], true⟩ chars = none := by
  simp only [isReserved, reserved, clauseWords, pairedWords, pairingWord, select, objects, filter,
    groupBy, orderBy, having, offset, limit, access, List.any_cons, List.any_nil, Bool.or_eq_false_iff,
    Option.isSome_eq_false_iff, Option.isNone_iff_eq_none, List.map_cons, List.map_nil,
    List.forall_mem_cons, and_true, List.not_mem_nil, false_imp_iff, implies_true]
  constructor
  · rintro ⟨h1, h2, h3, h4, h5, h6, h7, h8, h9⟩
    exact ⟨⟨h1, h2, h3, h6, h7, h8, h9⟩, h4, h5⟩
  · rintro ⟨⟨h1, h2, h3, h6, h7, h8, h9⟩, h4, h5⟩
    exact ⟨h1, h2, h3, h4, h5, h6, h7, h8, h9⟩

/-- The text is the first word of a keyword of two that opens a clause. -/
def pairs (text : List Char) : Bool :=
  pairedWords.any fun word => wordLength? word text == some text.length

/-- The words of the keyword with a blank between them. -/
def spelled (keyword : Keyword) : List Char :=
  [' '].intercalate keyword.words

/-- The keyword, or the first word of one of several, does not stand at the head of the text. -/
def isApart (keyword : Keyword) (text : List Char) : Bool :=
  match keyword.words with
  | [] => false
  | [_] => (keyword.length? text).isNone
  | first :: _ => (wordLength? first text).isNone

theorem length?_eq_none_of_isApart {keyword : Keyword} (lettered : keyword.isLettered = true)
    (apart : keyword.isApart text = true) (breaks : Breaks rest) :
    keyword.length? (text ++ rest) = none := by
  obtain ⟨words, ends⟩ := keyword
  cases words with
  | nil => cases apart
  | cons first others =>
      cases others with
      | nil =>
          rw [length?_append lettered breaks]
          exact Option.isNone_iff_eq_none.1 apart
      | cons second others =>
          have alien := alien_of_breaks lettered List.mem_cons_self breaks
          have absent : wordLength? first text = none := Option.isNone_iff_eq_none.1 apart
          simp [length?, wordsLength?, wordLength?_append alien, absent]

end Keyword

namespace IsName

open Keyword

variable {name : String} {rest : List Char}

theorem solid (isName : IsName name) : ∀ char ∈ name.toList, isWhiteSpace char = false := by
  intro char member
  exact (isSolid_iff.1 (Identifier.solid_of_isPart (isName.parts char member))).1

/-- A name opens a clause before a break only where it does so alone, or with its second word. -/
theorem isReserved_append (isName : IsName name) (breaks : Breaks rest)
    (alone : isReserved name.toList = false)
    (unpaired : pairs name.toList = true → (later pairingWord).length? rest = none) :
    isReserved (name.toList ++ rest) = false := by
  have lettered : ∀ word ∈ clauseWords, isLettered ⟨[word], true⟩ = true := by decide
  have letteredFirst : ∀ word ∈ pairedWords, isLettered ⟨[word], true⟩ = true := by decide
  refine isReserved_eq_false_iff.2 ⟨fun word member => ?_, fun first member => ?_⟩
  · rw [length?_append (lettered word member) breaks]
    exact (isReserved_eq_false_iff.1 alone).1 word member
  · rw [Option.eq_none_iff_forall_ne_some]
    intro count found
    have alien := alien_of_breaks (letteredFirst first member) List.mem_cons_self breaks
    obtain ⟨spelled, length, follows⟩ := exists_of_length?_pair found alien isName.solid
    have paired : pairs name.toList = true :=
      List.any_eq_true.2 ⟨first, member, by simp [spelled]⟩
    simp [unpaired paired] at follows

/-- A name that opens no clause does so neither alone nor with its second word. -/
theorem of_isReserved_append (isName : IsName name) (ends : isWordEnd rest = true)
    (free : isReserved (name.toList ++ rest) = false) :
    isReserved name.toList = false ∧
      (pairs name.toList = true → (later pairingWord).length? rest = none) := by
  obtain ⟨single, double⟩ := isReserved_eq_false_iff.1 free
  constructor
  · refine isReserved_eq_false_iff.2 ⟨fun word member => ?_, fun first member => ?_⟩
    · exact length?_eq_none_of_append (single word member) ends
    · rw [Option.eq_none_iff_forall_ne_some]
      intro count found
      rw [← List.append_nil name.toList] at found
      obtain ⟨_, length, follows⟩ := exists_of_length?_pair found (by simp [Alien]) isName.solid
      simp [length?_later, laterWordLength?] at follows
  · intro paired
    obtain ⟨first, member, spelled⟩ := List.any_eq_true.1 paired
    rw [Option.eq_none_iff_forall_ne_some]
    intro count follows
    have found := length?_pair (by simpa using spelled) follows
    simp [double first member] at found

/-- An alias is the second word of a keyword only where it is spelled like that. -/
theorem length?_later_append (isName : IsName name) {word blanks : List Char}
    (white : ∀ char ∈ blanks, isWhiteSpace char = true) (some_ : blanks ≠ []) :
    (later word).length? (blanks ++ (name.toList ++ rest)) =
      (length? ⟨[word], true⟩ (name.toList ++ rest)).map (blanks.length + ·) := by
  have solid : (name.toList ++ rest).head?.any isWhiteSpace = false := by
    obtain ⟨first, others, shape, _⟩ := isName.exists_cons
    have solid := isName.solid first (by simp [shape])
    simp [shape, solid]
  rw [length?_later, laterWordLength?_blanks white some_ solid]
  simp only [length?, wordsLength?, laterWordsLength?, Option.bind_eq_bind]
  cases wordLength? word (name.toList ++ rest) with
  | none => rfl
  | some length =>
      simp only [Option.map_some, Option.bind_some, ← List.drop_drop, List.drop_left,
        Option.pure_def, Nat.add_zero, Bool.true_and]
      cases isWordEnd ((name.toList ++ rest).drop length) <;> rfl

end IsName

end ObjectQuery
