import ObjectQuery.Lexical.RelativeDate
import ObjectQuery.Proofs.Lexical.Digit
import ObjectQuery.Proofs.Lexical.Word

namespace ObjectQuery

/-!
Words that end where a blank, a comment or a quoted text begins. They are read
as if nothing followed. Only a keyword of two words may go on after a blank.
-/

/-- A comment or a quoted text comes next. -/
inductive Bars : List Char → Prop where
  | line (rest : List Char) : Bars ('-' :: '-' :: rest)
  | block (rest : List Char) : Bars ('/' :: '*' :: rest)
  | text (rest : List Char) : Bars ('\'' :: rest)
  | name (rest : List Char) : Bars ('"' :: rest)

/-- A blank, a comment or a quoted text comes next. -/
inductive Halts : List Char → Prop where
  | space (rest : List Char) : Halts (' ' :: rest)
  | bars {rest : List Char} (bars : Bars rest) : Halts rest

/-- The characters with which blanks, comments and quoted texts begin. -/
def haltChars : List Char :=
  " -/'\"".toList

namespace Halts

variable {rest : List Char}

theorem exists_cons (halts : Halts rest) :
    ∃ char others, rest = char :: others ∧ char ∈ haltChars := by
  rcases halts with _ | _ | _ | _ | _ <;> exact ⟨_, _, rfl, by decide⟩

theorem ne_nil (halts : Halts rest) : rest ≠ [] := by
  obtain ⟨char, others, rfl, _⟩ := halts.exists_cons
  exact List.cons_ne_nil _ _

theorem head?_any {test : Char → Bool} (halts : Halts rest)
    (none : haltChars.all (!test ·) = true) : rest.head?.any test = false := by
  obtain ⟨char, others, rfl, known⟩ := halts.exists_cons
  simpa using List.all_eq_true.1 none char known

theorem head?_ne (halts : Halts rest) {char : Char} (other : char ∉ haltChars) :
    rest.head? ≠ some char := by
  obtain ⟨first, others, rfl, known⟩ := halts.exists_cons
  rintro ⟨⟩
  exact other known

theorem isWordEnd (halts : Halts rest) : isWordEnd rest = true := by
  rw [ObjectQuery.isWordEnd, halts.head?_any (by decide)]
  rfl

theorem takeWhile_append {test : Char → Bool} (halts : Halts rest)
    (none : haltChars.all (!test ·) = true) (text : List Char) :
    (text ++ rest).takeWhile test = text.takeWhile test :=
  takeWhile_append_of_head? text (halts.head?_any none)

end Halts

/-- A mark that begins no blank, comment or quoted text, and is no part of a word. -/
structure Divides (char : Char) : Prop where
  solid : char ∉ haltChars
  apart : isWordChar char = false

namespace Divides

theorem comma : Divides ',' :=
  ⟨by decide, by decide +kernel⟩

theorem dot : Divides '.' :=
  ⟨by decide, by decide +kernel⟩

theorem opening : Divides '(' :=
  ⟨by decide, by decide +kernel⟩

theorem closing : Divides ')' :=
  ⟨by decide, by decide +kernel⟩

end Divides

theorem Bars.isWhiteSpace_head {char : Char} {rest : List Char} (bars : Bars (char :: rest)) :
    isWhiteSpace char = false := by
  cases bars <;> decide

namespace Keyword

variable {keyword : Keyword} {word text rest : List Char} {words : List (List Char)} {count : Nat}

/-- Blanks, comments and quoted texts match no letter of the keyword. -/
def isSteady (keyword : Keyword) : Bool :=
  keyword.words.all fun word =>
    !word.isEmpty && word.all fun letter => haltChars.all fun char => !sameUpper char letter

theorem ne_nil_of_isSteady (steady : keyword.isSteady = true) (member : word ∈ keyword.words) :
    word ≠ [] := by
  have letters := List.all_eq_true.1 steady word member
  simpa using (Bool.and_eq_true_iff.1 letters).1

theorem alien_of_isSteady (steady : keyword.isSteady = true) (member : word ∈ keyword.words)
    (halts : Halts rest) : Alien word rest := by
  obtain ⟨first, others, rfl, known⟩ := halts.exists_cons
  rintro char ⟨⟩ expected isLetter
  have letters := List.all_eq_true.1 steady word member
  have letter := List.all_eq_true.1 (Bool.and_eq_true_iff.1 letters).2 expected isLetter
  simpa using List.all_eq_true.1 letter first known

theorem wordLength?_iff (alien : Alien word rest) : wordLength? word text = some count ↔
    wordLength? word (text ++ rest) = some count ∧ count ≤ text.length := by
  rw [wordLength?_append alien]
  exact ⟨fun found => ⟨found, wordLength?_le found⟩, And.left⟩

theorem wordLength?_pos (some_ : word ≠ []) (found : wordLength? word text = some count) :
    0 < count := by
  obtain ⟨expected, others, rfl⟩ := List.exists_cons_of_ne_nil some_
  cases text with
  | nil => cases found
  | cons char rest =>
      rw [wordLength?] at found
      split at found
      · obtain ⟨fewer, _, rfl⟩ := Option.map_eq_some_iff.1 found
        exact Nat.succ_pos fewer
      · cases found

theorem laterWordLength?_eq_some_iff : laterWordLength? word text = some count ↔
    ∃ gap others, gap = (text.takeWhile isWhiteSpace).length ∧ gap ≠ 0 ∧
      wordLength? word (text.drop gap) = some others ∧ count = gap + others := by
  unfold laterWordLength?
  cases (text.takeWhile isWhiteSpace).length with
  | zero => simp
  | succ gap =>
      simp only [Option.map_eq_some_iff]
      constructor
      · rintro ⟨others, found, rfl⟩
        exact ⟨gap + 1, others, rfl, Nat.succ_ne_zero gap, found, rfl⟩
      · rintro ⟨_, others, rfl, _, found, rfl⟩
        exact ⟨others, found, rfl⟩

/-- White space that runs through the text leaves no place for the word in it. -/
theorem laterWordLength?_iff (alien : Alien word rest) (some_ : word ≠ []) :
    laterWordLength? word text = some count ↔
      laterWordLength? word (text ++ rest) = some count ∧ count ≤ text.length := by
  simp only [laterWordLength?_eq_some_iff]
  by_cases blank : ∀ char ∈ text, isWhiteSpace char = true
  · have taken : text.takeWhile isWhiteSpace = text := List.takeWhile_eq_self_iff.2 blank
    constructor
    · rintro ⟨_, others, rfl, _, found, _⟩
      rw [taken, List.drop_length] at found
      obtain ⟨letter, letters, rfl⟩ := List.exists_cons_of_ne_nil some_
      cases found
    · rintro ⟨⟨_, others, rfl, _, found, rfl⟩, inside⟩
      have positive := wordLength?_pos some_ found
      rw [List.takeWhile_append_of_pos blank, List.length_append] at inside
      omega
  · have ends : ∃ char ∈ text, isWhiteSpace char = false := by simpa using blank
    have taken : (text ++ rest).takeWhile isWhiteSpace = text.takeWhile isWhiteSpace := by
      rw [List.takeWhile_append, if_neg]
      intro all
      obtain ⟨char, member, solid⟩ := ends
      rw [← (List.takeWhile_prefix _).eq_of_length all] at member
      rw [List.mem_takeWhile_imp member] at solid
      cases solid
    have inside := (List.takeWhile_sublist isWhiteSpace (l := text)).length_le
    rw [taken]
    constructor
    · rintro ⟨_, others, rfl, gap, found, rfl⟩
      refine ⟨⟨_, others, rfl, gap, ?_, rfl⟩, ?_⟩
      · rwa [List.drop_append_of_le_length inside, wordLength?_append alien]
      · have fits := wordLength?_le found
        rw [List.length_drop] at fits
        omega
    · rintro ⟨⟨_, others, rfl, gap, found, rfl⟩, _⟩
      rw [List.drop_append_of_le_length inside, wordLength?_append alien] at found
      exact ⟨_, others, rfl, gap, found, rfl⟩

/-- The words that follow one another stand in the text where they stand in what begins so. -/
theorem laterWordsLength?_iff (aliens : ∀ word ∈ words, Alien word rest ∧ word ≠ []) :
    laterWordsLength? words text = some count ↔
      laterWordsLength? words (text ++ rest) = some count ∧ count ≤ text.length := by
  induction words generalizing text count with
  | nil =>
      simp only [laterWordsLength?, Option.some.injEq, iff_self_and]
      rintro rfl
      exact Nat.zero_le _
  | cons word words induction =>
      obtain ⟨⟨alien, some_⟩, others⟩ := List.forall_mem_cons.1 aliens
      simp only [laterWordsLength?, Option.bind_eq_bind, Option.bind_eq_some_iff, Option.pure_def,
        Option.some.injEq]
      constructor
      · rintro ⟨length, first, more, later, rfl⟩
        obtain ⟨firstToo, inside⟩ := (laterWordLength?_iff alien some_).1 first
        obtain ⟨laterToo, fits⟩ := (induction others).1 later
        rw [← List.drop_append_of_le_length inside] at laterToo
        rw [List.length_drop] at fits
        exact ⟨⟨length, firstToo, more, laterToo, rfl⟩, by omega⟩
      · rintro ⟨⟨length, first, more, later, rfl⟩, inside⟩
        rw [List.drop_append_of_le_length (by omega)] at later
        exact ⟨length, (laterWordLength?_iff alien some_).2 ⟨first, by omega⟩, more,
          (induction others).2 ⟨later, by rw [List.length_drop]; omega⟩, rfl⟩

theorem wordsLength?_iff (aliens : ∀ word ∈ words, Alien word rest ∧ word ≠ []) :
    wordsLength? words text = some count ↔
      wordsLength? words (text ++ rest) = some count ∧ count ≤ text.length := by
  cases words with
  | nil =>
      simp only [wordsLength?, Option.some.injEq, iff_self_and]
      rintro rfl
      exact Nat.zero_le _
  | cons word words =>
      obtain ⟨⟨alien, some_⟩, others⟩ := List.forall_mem_cons.1 aliens
      simp only [wordsLength?, Option.bind_eq_bind, Option.bind_eq_some_iff, Option.pure_def,
        Option.some.injEq]
      constructor
      · rintro ⟨length, first, more, later, rfl⟩
        obtain ⟨firstToo, inside⟩ := (wordLength?_iff alien).1 first
        obtain ⟨laterToo, fits⟩ := (laterWordsLength?_iff others).1 later
        rw [← List.drop_append_of_le_length inside] at laterToo
        rw [List.length_drop] at fits
        exact ⟨⟨length, firstToo, more, laterToo, rfl⟩, by omega⟩
      · rintro ⟨⟨length, first, more, later, rfl⟩, inside⟩
        rw [List.drop_append_of_le_length (by omega)] at later
        exact ⟨length, (wordLength?_iff alien).2 ⟨first, by omega⟩, more,
          (laterWordsLength?_iff others).2 ⟨later, by rw [List.length_drop]; omega⟩, rfl⟩

theorem length?_eq_some_iff : keyword.length? text = some count ↔
    wordsLength? keyword.words text = some count ∧
      (keyword.ends = true → isWordEnd (text.drop count) = true) := by
  simp only [length?, Option.bind_eq_bind, Option.bind_eq_some_iff, Option.pure_def]
  constructor
  · rintro ⟨length, found, past⟩
    split at past
    · cases past
    · rename_i ends
      cases past
      exact ⟨found, by simpa using ends⟩
  · rintro ⟨found, past⟩
    exact ⟨count, found, if_neg (by simpa using past)⟩

/-- A keyword stands in a text alone where it does so before what halts, and reaches no further. -/
theorem length?_iff (steady : keyword.isSteady = true) (halts : Halts rest) :
    keyword.length? text = some count ↔
      keyword.length? (text ++ rest) = some count ∧ count ≤ text.length := by
  have aliens : ∀ word ∈ keyword.words, Alien word rest ∧ word ≠ [] := fun word member =>
    ⟨alien_of_isSteady steady member halts, ne_nil_of_isSteady steady member⟩
  rw [length?_eq_some_iff, length?_eq_some_iff, wordsLength?_iff aliens]
  constructor
  · rintro ⟨⟨found, inside⟩, ends⟩
    exact ⟨⟨found, by rwa [isWordEnd_drop inside halts.isWordEnd]⟩, inside⟩
  · rintro ⟨⟨found, ends⟩, inside⟩
    exact ⟨⟨found, inside⟩, by rwa [isWordEnd_drop inside halts.isWordEnd] at ends⟩

theorem length?_le (steady : keyword.isSteady = true) (found : keyword.length? text = some count) :
    count ≤ text.length :=
  ((length?_iff steady (.space [])).1 found).2

theorem ends_of_length? (ends : keyword.ends = true) (found : keyword.length? text = some count) :
    isWordEnd (text.drop count) = true :=
  (length?_eq_some_iff.1 found).2 ends

theorem laterWordLength?_le_of_bars (alien : Alien word rest) (bars : Bars rest)
    (found : laterWordLength? word (text ++ rest) = some count) : count ≤ text.length := by
  obtain ⟨_, others, rfl, _, whole, rfl⟩ := laterWordLength?_eq_some_iff.1 found
  have stops : rest.head?.any isWhiteSpace = false := by
    cases rest with
    | nil => rfl
    | cons char others => exact bars.isWhiteSpace_head
  have taken := takeWhile_append_of_head? text stops
  have inside := (List.takeWhile_sublist isWhiteSpace (l := text)).length_le
  rw [taken, List.drop_append_of_le_length inside, wordLength?_append alien] at whole
  have fits := wordLength?_le whole
  rw [List.length_drop] at fits
  rw [taken]
  omega

theorem laterWordsLength?_le_of_bars (aliens : ∀ word ∈ words, Alien word rest) (bars : Bars rest)
    (found : laterWordsLength? words (text ++ rest) = some count) : count ≤ text.length := by
  induction words generalizing text count with
  | nil =>
      cases found
      exact Nat.zero_le _
  | cons word words induction =>
      obtain ⟨alien, others⟩ := List.forall_mem_cons.1 aliens
      obtain ⟨length, first, found⟩ := Option.bind_eq_some_iff.1 found
      obtain ⟨more, later, same⟩ := Option.bind_eq_some_iff.1 found
      cases same
      have inside := laterWordLength?_le_of_bars alien bars first
      rw [List.drop_append_of_le_length inside] at later
      have fits := induction others later
      rw [List.length_drop] at fits
      omega

/-- No keyword goes on after a comment or a quoted text. -/
theorem length?_le_of_bars (steady : keyword.isSteady = true) (bars : Bars rest)
    (found : keyword.length? (text ++ rest) = some count) : count ≤ text.length := by
  have aliens : ∀ word ∈ keyword.words, Alien word rest := fun word member =>
    alien_of_isSteady steady member (.bars bars)
  have found := (length?_eq_some_iff.1 found).1
  cases words : keyword.words with
  | nil =>
      rw [words] at found
      cases found
      exact Nat.zero_le _
  | cons word others =>
      rw [words] at found aliens
      obtain ⟨alien, others⟩ := List.forall_mem_cons.1 aliens
      obtain ⟨length, first, found⟩ := Option.bind_eq_some_iff.1 found
      obtain ⟨more, later, same⟩ := Option.bind_eq_some_iff.1 found
      cases same
      rw [wordLength?_append alien] at first
      have inside := wordLength?_le first
      rw [List.drop_append_of_le_length inside] at later
      have fits := laterWordsLength?_le_of_bars others bars later
      rw [List.length_drop] at fits
      omega

/-- The keywords of two words. -/
def paired : List Keyword :=
  [groupBy, orderBy, nullsFirst, nullsLast, notLike, notIn]

theorem isSteady_paired : ∀ keyword ∈ paired, keyword.isSteady = true := by
  decide +kernel

end Keyword

/-- What follows the text halts it, and no keyword of two words begins in one and ends in the other. -/
structure Parted (text rest : List Char) : Prop where
  halts : Halts rest
  unpaired : ∀ keyword ∈ Keyword.paired, ∀ count,
    keyword.length? (text ++ rest) = some count → count ≤ text.length

theorem Bars.parted {rest : List Char} (bars : Bars rest) (text : List Char) : Parted text rest :=
  ⟨.bars bars, fun keyword member _ found =>
    Keyword.length?_le_of_bars (Keyword.isSteady_paired keyword member) bars found⟩

/-- The characters of the operators that are written without letters. -/
def operatorChars : List Char :=
  "=!<>".toList

theorem letter_le_upperRuns : ∀ run ∈ LetterCase.upperRuns, (0x41 : Int) ≤ run.first + run.shift := by
  decide +kernel

theorem two_le_upperExpansions : ∀ expansion ∈ LetterCase.upperExpansions,
    2 ≤ expansion.2.length := by
  decide +kernel

theorem letter_le_of_image {code single : Nat} (beyond : 0x80 ≤ code)
    (same : LetterCase.image LetterCase.upperRuns LetterCase.upperExpansions code = [single]) :
    0x41 ≤ single := by
  unfold LetterCase.image at same
  split at same
  · rename_i codes found
    obtain ⟨before, after, split, _⟩ := List.lookup_eq_some_iff.1 found
    have long := two_le_upperExpansions (code, codes) (by simp [split])
    rw [same] at long
    simp at long
  · cases found : LetterCase.upperRuns.findSome? (·.image? code) with
    | none =>
        rw [found] at same
        cases same
        exact Nat.le_trans (by decide) beyond
    | some image =>
        rw [found] at same
        cases same
        obtain ⟨run, member, runs⟩ := List.exists_of_findSome?_eq_some found
        have above := letter_le_upperRuns run member
        unfold CaseRun.image? at runs
        split at runs
        · rename_i inside
          cases runs
          simp only [Bool.and_eq_true, decide_eq_true_eq] at inside
          rw [Option.getD_some]
          omega
        · cases runs

/-- Nothing but the marks themselves matches the marks of an operator. -/
theorem isWordChar_of_sameUpper {char mark : Char} (known : mark ∈ operatorChars)
    (same : sameUpper char mark = true) : isWordChar char = false := by
  have upper : upperChar mark = [mark] := by
    have all : operatorChars.all (fun mark => upperChar mark == [mark]) = true := by decide +kernel
    simpa using List.all_eq_true.1 all mark known
  have same := (beq_iff_eq.1 same).trans upper
  rw [upperChar] at same
  split at same
  · rename_i ascii
    have all : ∀ code < 0x80, (Char.ofNat code).toUpper ∈ operatorChars →
        isWordChar (Char.ofNat code) = false := by
      decide +kernel
    have plain := all char.toNat ascii
    rw [Char.ofNat_toNat] at plain
    exact plain (List.singleton_inj.1 same ▸ known)
  · rename_i beyond
    obtain ⟨single, image, rfl⟩ := List.map_eq_singleton_iff.1 same
    have above := letter_le_of_image (Nat.le_of_not_lt beyond) image
    have all : operatorChars.all (fun mark => mark != Char.ofNat 0 && mark.toNat < 0x41) = true := by
      decide
    have lower := List.all_eq_true.1 all _ known
    obtain ⟨some_, below⟩ := Bool.and_eq_true_iff.1 lower
    rw [bne_iff_ne] at some_
    rw [decide_eq_true_eq] at below
    by_cases valid : single.isValidChar
    · rw [Char.ofNat, dif_pos valid] at below
      exact absurd below (Nat.not_lt_of_le above)
    · rw [Char.ofNat, dif_neg valid] at some_
      exact absurd rfl some_

namespace Keyword

variable {keyword : Keyword} {word text rest : List Char} {count : Nat}

/-- A keyword of one word, an operator without letters, or one of the keywords of two words. -/
inductive IsKnown : Keyword → Prop where
  | word {word : List Char} (steady : isSteady ⟨[word], true⟩ = true) : IsKnown ⟨[word], true⟩
  | operator {marks : List Char} (known : marks.all operatorChars.contains = true)
      (steady : isSteady ⟨[marks], false⟩ = true) : IsKnown ⟨[marks], false⟩
  | pair {keyword : Keyword} (member : keyword ∈ paired) : IsKnown keyword

theorem IsKnown.isSteady (known : keyword.IsKnown) : keyword.isSteady = true := by
  cases known with
  | word steady => exact steady
  | operator _ steady => exact steady
  | pair member => exact isSteady_paired keyword member

theorem length?_single_le {ends : Bool} (alien : Alien word rest)
    (found : length? ⟨[word], ends⟩ (text ++ rest) = some count) : count ≤ text.length := by
  have found := (length?_eq_some_iff.1 found).1
  simp only [wordsLength?, wordLength?_append alien, laterWordsLength?] at found
  obtain ⟨length, whole, same⟩ := Option.bind_eq_some_iff.1 found
  cases same
  exact wordLength?_le whole

/-- A keyword stands in a text alone where it does so before what is parted from it. -/
theorem length?_parted (known : keyword.IsKnown) (parted : Parted text rest) :
    keyword.length? (text ++ rest) = keyword.length? text := by
  have steady := known.isSteady
  have inside : ∀ count, keyword.length? (text ++ rest) = some count → count ≤ text.length := by
    cases known with
    | word =>
        exact fun _ => length?_single_le (alien_of_isSteady steady List.mem_cons_self parted.halts)
    | operator =>
        exact fun _ => length?_single_le (alien_of_isSteady steady List.mem_cons_self parted.halts)
    | pair member => exact parted.unpaired keyword member
  refine Option.ext fun count => ⟨fun found => ?_, fun found => ?_⟩
  · exact (length?_iff steady parted.halts).2 ⟨found, inside count found⟩
  · exact ((length?_iff steady parted.halts).1 found).1

end Keyword

/-- What a lexer finds in a text does not depend on what is parted from the text. -/
structure Separable (look : List Char → Lexeme α) : Prop where
  append : ∀ ⦃text rest⦄, Parted text rest → look (text ++ rest) = look text
  length_le : ∀ ⦃text value count⦄, look text = .found value count → count ≤ text.length
  ends : ∀ ⦃text value count⦄, look text = .found value count →
    isWordEnd (text.drop count) = true ∨ ∀ char ∈ text.take count, isWordChar char = false

namespace Keyword

variable {keyword : Keyword} {word text : List Char} {count : Nat}

theorem isWordChar_of_wordLength? (known : word.all operatorChars.contains = true)
    (found : wordLength? word text = some count) :
    ∀ char ∈ text.take count, isWordChar char = false := by
  induction word generalizing text count with
  | nil =>
      cases found
      simp
  | cons mark others induction =>
      rw [List.all_cons, Bool.and_eq_true_iff, List.contains_iff_mem] at known
      obtain ⟨first, later⟩ := known
      cases text with
      | nil => cases found
      | cons char rest =>
          rw [wordLength?] at found
          split at found
          · rename_i same
            obtain ⟨fewer, more, rfl⟩ := Option.map_eq_some_iff.1 found
            rw [List.take_succ_cons]
            exact List.forall_mem_cons.2 ⟨isWordChar_of_sameUpper first same, induction later more⟩
          · cases found

/-- A keyword ends where a word may, or is made up of marks. -/
theorem isDelimited (known : keyword.IsKnown) (found : keyword.length? text = some count) :
    isWordEnd (text.drop count) = true ∨ ∀ char ∈ text.take count, isWordChar char = false := by
  cases known with
  | word => exact .inl (ends_of_length? rfl found)
  | operator known =>
      obtain ⟨length, whole, same⟩ := Option.bind_eq_some_iff.1 (length?_eq_some_iff.1 found).1
      cases same
      exact .inr (isWordChar_of_wordLength? known whole)
  | pair member =>
      have ends : ∀ keyword ∈ paired, keyword.ends = true := by decide
      exact .inl (ends_of_length? (ends keyword member) found)

theorem separable {α : Type} (known : keyword.IsKnown) (value : α) :
    Separable fun chars => (keyword.length? chars).elim .absent (.found value) where
  append _ _ parted := by rw [length?_parted known parted]
  length_le text _ _ found := by
    cases spelled : keyword.length? text with
    | none => simp [spelled] at found
    | some length =>
        rw [spelled] at found
        cases found
        exact length?_le known.isSteady spelled
  ends text _ _ found := by
    cases spelled : keyword.length? text with
    | none => simp [spelled] at found
    | some length =>
        rw [spelled] at found
        cases found
        exact isDelimited known spelled

end Keyword

section

variable {text rest : List Char}

theorem Identifier.isAhead_halts (halts : Halts rest) :
    Identifier.isAhead (text ++ rest) = Identifier.isAhead text := by
  cases text with
  | nil => exact halts.head?_any (by decide)
  | cons char others => rfl

theorem identifier_halts (halts : Halts rest) : identifier (text ++ rest) = identifier text := by
  have taken : (text ++ rest).takeWhile Identifier.isPart = text.takeWhile Identifier.isPart :=
    halts.takeWhile_append (by decide) text
  have inside := (List.takeWhile_sublist Identifier.isPart (l := text)).length_le
  simp only [identifier, Identifier.isAhead_halts halts, taken,
    isWordEnd_drop inside halts.isWordEnd]

theorem separable_identifier : Separable identifier where
  append _ _ parted := identifier_halts parted.halts
  length_le _ _ _ found := by
    obtain ⟨_, rest, rfl, rfl, _⟩ := exists_of_identifier found
    simp
  ends _ _ _ found := by
    obtain ⟨_, rest, rfl, rfl, ends⟩ := exists_of_identifier found
    rw [List.drop_left]
    exact .inl ends

theorem parameter_of_head?_ne (other : text.head? ≠ some ':') : parameter text = .absent := by
  unfold parameter
  split
  · exact absurd rfl other
  · rfl

theorem separable_parameter : Separable parameter where
  append text rest parted := by
    cases text with
    | nil =>
        have none : parameter [] = .absent := rfl
        rw [none]
        exact parameter_of_head?_ne (parted.halts.head?_ne (by decide))
    | cons char others =>
        by_cases colon : char = ':'
        · subst colon
          rw [List.cons_append, parameter, parameter, identifier_halts parted.halts]
        · rw [List.cons_append, parameter_of_head?_ne (by simpa using colon),
            parameter_of_head?_ne (by simpa using colon)]
  length_le _ _ _ found := by
    obtain ⟨rest, length, rfl, named, rfl⟩ := exists_identifier_of_parameter found
    exact Nat.succ_le_succ (separable_identifier.length_le named)
  ends _ _ _ found := by
    obtain ⟨rest, length, rfl, named, rfl⟩ := exists_identifier_of_parameter found
    obtain ⟨_, after, rfl, rfl, ends⟩ := exists_of_identifier named
    rw [List.drop_succ_cons, List.drop_left]
    exact .inl ends

end

end ObjectQuery
