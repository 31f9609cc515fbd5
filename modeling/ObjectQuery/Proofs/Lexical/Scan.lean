import ObjectQuery.Proofs.Lexical.Halt

namespace ObjectQuery

/-!
Texts that are scanned piece by piece, up to a place between two pieces. What
begins at such a place does not reach back over it.
-/

/-- A comment before the rest of a text: one up to the end of its line, or one that is closed. -/
inductive IsComment (rest : List Char) : List Char → Prop where
  | line {text : List Char} (unbroken : ∀ char ∈ text, Blank.isLineEnd char = false)
      (ends : ∀ char ∈ rest.head?, Blank.isLineEnd char = true) : IsComment rest ('-' :: '-' :: text)
  | block {text : List Char} (closed : Blank.blockLength? text = some text.length) :
      IsComment rest ('/' :: '*' :: text)

/-- A word, a comment, a quoted text or another character, which does not go on with the rest. -/
inductive IsPiece (rest : List Char) : List Char → Prop where
  | mark {char : Char} (apart : isWordChar char = false) (unbarred : ¬Bars (char :: rest)) :
      IsPiece rest [char]
  | word {text : List Char} (some_ : text ≠ []) (parts : ∀ char ∈ text, isWordChar char = true)
      (ends : isWordEnd rest = true) : IsPiece rest text
  | comment {text : List Char} (comment : IsComment rest text) : IsPiece rest text
  | value {text : List Char} {value : String}
      (closed : quoted .value text = .found value text.length) : IsPiece rest text
  | name {text : List Char} {value : String}
      (closed : quoted .symbol text = .found value text.length) : IsPiece rest text

/-- The text is made up of pieces, the last of which does not go on with the rest. -/
inductive Scans (rest : List Char) : List Char → Prop where
  | nil : Scans rest []
  | cons {piece others : List Char} (first : IsPiece (others ++ rest) piece)
      (later : Scans rest others) : Scans rest (piece ++ others)

variable {text others rest before after piece : List Char} {char : Char} {count : Nat}

theorem Bars.append (bars : Bars text) (rest : List Char) : Bars (text ++ rest) := by
  cases bars with
  | line others => exact .line _
  | block others => exact .block _
  | text others => exact .text _
  | name others => exact .name _

theorem IsComment.bars (comment : IsComment rest text) (more : List Char) : Bars (text ++ more) := by
  cases comment with
  | line => exact .line _
  | block => exact .block _

theorem exists_cons_of_quoted {style : Quoted.Style} {value : String}
    (found : quoted style text = .found value count) : ∃ others, text = style.quote :: others := by
  cases text with
  | nil => cases found
  | cons first others =>
      by_cases quote : first = style.quote
      · exact ⟨others, by rw [quote]⟩
      · simp [quoted, quote] at found

theorem Bars.of_value {value : String} (found : quoted .value text = .found value count)
    (more : List Char) : Bars (text ++ more) := by
  obtain ⟨others, rfl⟩ := exists_cons_of_quoted found
  exact .text _

theorem Bars.of_name {value : String} (found : quoted .symbol text = .found value count)
    (more : List Char) : Bars (text ++ more) := by
  obtain ⟨others, rfl⟩ := exists_cons_of_quoted found
  exact .name _

/-- A text is scanned as its parts are, each before what follows it. -/
theorem Scans.append (first : Scans (after ++ rest) before) (second : Scans rest after) :
    Scans rest (before ++ after) := by
  induction first with
  | nil => exact second
  | cons first _ induction =>
      rw [List.append_assoc]
      exact .cons (by rwa [List.append_assoc]) induction

namespace Scans

/-- Words and plain marks are scanned before all that does not go on with the last word. -/
theorem of_marks (plain : text.all (fun char => char == ' ' || !haltChars.contains char) = true)
    (ends : isWordEnd rest = true) : Scans rest text := by
  induction size : text.length using Nat.strongRecOn generalizing text with
  | ind length induction =>
      subst size
      cases text with
      | nil => exact .nil
      | cons char others =>
          by_cases part : isWordChar char = true
          · have positive : 0 < ((char :: others).takeWhile isWordChar).length := by
              rw [List.takeWhile_cons_of_pos part]
              exact Nat.succ_pos _
            obtain ⟨later, split⟩ := List.takeWhile_prefix isWordChar (l := char :: others)
            have past : isWordEnd later = true := by
              have dropped := List.drop_left.symm.trans (congrArg (List.drop _) split)
              rw [dropped]
              exact isWordEnd_drop_takeWhile _
            have shorter := congrArg List.length split
            rw [List.length_append] at shorter
            rw [← split] at plain ⊢
            rw [List.all_append, Bool.and_eq_true_iff] at plain
            refine .cons (.word (List.ne_nil_of_length_pos positive)
              (fun _ member => List.mem_takeWhile_imp member) ?_) ?_
            · exact (isWordEnd_drop (Nat.zero_le later.length) ends).trans past
            · exact induction _ (by omega) plain.2 rfl
          · rw [List.all_cons, Bool.and_eq_true_iff] at plain
            rw [← List.singleton_append]
            refine .cons (.mark (by simpa using part) fun bars => ?_) ?_
            · obtain ⟨first, more, shape, halting⟩ := (Halts.bars bars).exists_cons
              obtain ⟨rfl, _⟩ := List.cons.inj shape
              obtain rfl : char = ' ' := by simpa [halting] using plain.1
              cases bars
            · exact induction _ (Nat.lt_succ_self _) plain.2 rfl

/-- A place in a text between two of its pieces. -/
structure SplitsAt (text rest : List Char) (count : Nat) : Prop where
  inside : count ≤ text.length
  before : Scans (text.drop count ++ rest) (text.take count)
  after : Scans rest (text.drop count)

theorem SplitsAt.zero (scans : Scans rest text) : SplitsAt text rest 0 :=
  ⟨Nat.zero_le _, .nil, scans⟩

theorem SplitsAt.cons (first : IsPiece (others ++ rest) piece) (splits : SplitsAt others rest count) :
    SplitsAt (piece ++ others) rest (piece.length + count) := by
  have dropped : (piece ++ others).drop (piece.length + count) = others.drop count := by
    rw [← List.drop_drop, List.drop_left]
  have taken : (piece ++ others).take (piece.length + count) = piece ++ others.take count := by
    rw [List.take_add, List.take_left, List.drop_left]
  refine ⟨?_, ?_, ?_⟩
  · rw [List.length_append]
    exact Nat.add_le_add_left splits.inside _
  · rw [dropped, taken]
    refine .cons ?_ splits.before
    rwa [← List.append_assoc, List.take_append_drop]
  · rw [dropped]
    exact splits.after

theorem isWordEnd_inside (parts : ∀ char ∈ piece, isWordChar char = true)
    (short : count < piece.length) (more : List Char) :
    isWordEnd ((piece ++ more).drop count) = false := by
  have part := parts _ (List.getElem_mem short)
  rw [List.drop_append_of_le_length (Nat.le_of_lt short), List.drop_eq_getElem_cons short]
  simp only [List.cons_append, isWordEnd, List.head?_cons, Option.any_some, part, Bool.not_true]

/--
What begins with the text ends between two pieces, where it ends before comments
and quoted texts, and where a word ends.
-/
theorem splitsAt (scans : Scans rest text) (inside : count ≤ text.length)
    (barred : ∀ before after, text = before ++ after → Bars (after ++ rest) → count ≤ before.length)
    (ends : isWordEnd ((text ++ rest).drop count) = true ∨
      ∀ char ∈ text.take count, isWordChar char = false) : SplitsAt text rest count := by
  induction scans generalizing count with
  | nil =>
      obtain rfl := Nat.le_zero.1 inside
      exact .zero .nil
  | @cons piece others first later induction =>
      rcases Nat.eq_zero_or_pos count with rfl | positive
      · exact .zero (.cons first later)
      have noBar : ¬Bars (piece ++ (others ++ rest)) := fun bars =>
        Nat.not_le_of_lt positive
          (barred [] (piece ++ others) rfl (by rwa [List.append_assoc]))
      have enough : piece.length ≤ count := by
        cases first with
        | mark => exact positive
        | comment comment => exact absurd (comment.bars _) noBar
        | value closed => exact absurd (.of_value closed _) noBar
        | name closed => exact absurd (.of_name closed _) noBar
        | word some_ parts _ =>
            by_contra short
            have short := Nat.lt_of_not_le short
            rcases ends with ends | apart
            · rw [List.append_assoc, isWordEnd_inside parts short] at ends
              cases ends
            · have member : piece[0] ∈ (piece ++ others).take count :=
                List.mem_of_getElem? (i := 0) (by
                  rw [List.getElem?_take_of_lt positive, List.getElem?_append_left (by omega),
                    List.getElem?_eq_getElem])
              have part := apart _ member
              rw [parts _ (List.getElem_mem _)] at part
              cases part
      obtain ⟨fewer, rfl⟩ := Nat.exists_eq_add_of_le enough
      refine .cons first (induction ?_ ?_ ?_)
      · rw [List.length_append] at inside
        omega
      · rintro before after rfl bars
        have past := barred (piece ++ before) after (List.append_assoc _ _ _).symm bars
        rw [List.length_append] at past
        omega
      · rw [List.append_assoc, ← List.drop_drop, List.drop_left] at ends
        rw [List.take_add, List.take_left, List.drop_left] at ends
        exact ends.imp_right fun apart char member => apart char (List.mem_append_right _ member)

end Scans

namespace Blank

theorem lineLength_append (unbroken : ∀ char ∈ text, isLineEnd char = false)
    (ends : ∀ char ∈ rest.head?, isLineEnd char = true) : lineLength (text ++ rest) = text.length := by
  have stops : rest.head?.any (!isLineEnd ·) = false := by
    cases head : rest.head? with
    | none => rfl
    | some char => simpa using ends char head
  have all : text.takeWhile (!isLineEnd ·) = text :=
    List.takeWhile_eq_self_iff.2 fun char member => by simp [unbroken char member]
  rw [lineLength, takeWhile_append_of_head? text stops, all]

theorem blockLength?_append (closed : blockLength? text = some count) (rest : List Char) :
    blockLength? (text ++ rest) = some count := by
  fun_induction blockLength? text generalizing count with
  | case1 => cases closed
  | case2 others =>
      cases closed
      rfl
  | case3 char others open_ induction =>
      obtain ⟨fewer, later, rfl⟩ := Option.map_eq_some_iff.1 closed
      rw [List.cons_append, blockLength?, induction later]
      · rfl
      · intro more star same
        cases others with
        | nil => cases later
        | cons next others =>
            obtain ⟨rfl, _⟩ := List.cons.inj same
            exact open_ others star rfl

end Blank

theorem blankLength_mark (unbarred : ¬Bars (char :: rest)) :
    blankLength (char :: rest) =
      if isWhiteSpace char then Blank.shift 1 (blankLength rest) else .ok 0 := by
  rw [blankLength.eq_def]
  split
  · contradiction
  · rename_i same
    cases same
    exact absurd (.line _) unbarred
  · rename_i same
    cases same
    exact absurd (.block _) unbarred
  · rename_i same
    cases same
    rfl

theorem blankLength_comment (comment : IsComment rest text) :
    blankLength (text ++ rest) = Blank.shift text.length (blankLength rest) := by
  cases comment with
  | @line text unbroken ends =>
      rw [blankLength.eq_def]
      simp only [List.cons_append, Blank.lineLength_append unbroken ends, List.drop_left]
      rfl
  | @block text closed =>
      rw [blankLength.eq_def]
      simp only [List.cons_append, Blank.blockLength?_append closed, List.drop_left]
      rfl

theorem IsComment.of_append (comment : IsComment (others ++ rest) text) : IsComment others text := by
  cases comment with
  | line unbroken ends =>
      refine .line unbroken fun char given => ends char ?_
      obtain ⟨more, rfl⟩ := List.head?_eq_some_iff.1 given
      exact given
  | block closed => exact .block closed

theorem isWordChar_of_isWhiteSpace (white : isWhiteSpace char = true) : isWordChar char = false := by
  have listed : ∀ range ∈ WhiteSpace.ranges, ∀ code ∈ List.range' range.1 (range.2 + 1 - range.1),
      isWordChar (Char.ofNat code) = false := by
    decide +kernel
  obtain ⟨range, member, bounds⟩ := List.any_eq_true.1 white
  simp only [Bool.and_eq_true, decide_eq_true_eq] at bounds
  have code := listed range member char.toNat (List.mem_range'_1.2 (by omega))
  rwa [Char.ofNat_toNat] at code

theorem isSolid_of_isWordChar (part : isWordChar char = true) : isSolid char = true := by
  refine isSolid_iff.2 ⟨?_, ?_, ?_⟩
  · rw [Bool.eq_false_iff]
    intro white
    rw [isWordChar_of_isWhiteSpace white] at part
    cases part
  · rintro rfl
    exact absurd part (by decide +kernel)
  · rintro rfl
    exact absurd part (by decide +kernel)

/--
So many blanks stand at the head of the text. Those of the rest follow them
where the text holds nothing else.
-/
structure BlankAhead (text rest : List Char) (count : Nat) : Prop where
  alone : blankLength text = .ok count
  splits : Scans.SplitsAt text rest count
  along : blankLength (text ++ rest) =
    if count = text.length then Blank.shift count (blankLength rest) else .ok count

namespace BlankAhead

theorem nil (rest : List Char) : BlankAhead [] rest 0 where
  alone := by rw [blankLength.eq_def]
  splits := .zero .nil
  along := by
    rw [List.nil_append, List.length_nil, if_pos rfl]
    cases blankLength rest <;> simp [Blank.shift]

theorem stays (first : IsPiece (others ++ rest) piece) (later : Scans rest others)
    (some_ : piece ≠ []) (alone : blankLength (piece ++ others) = .ok 0)
    (along : blankLength (piece ++ (others ++ rest)) = .ok 0) :
    BlankAhead (piece ++ others) rest 0 where
  alone := alone
  splits := .zero (.cons first later)
  along := by
    have more : 0 ≠ (piece ++ others).length := by
      rw [List.length_append]
      have positive := List.length_pos_iff.2 some_
      omega
    rw [if_neg more, List.append_assoc, along]

theorem cons (first : IsPiece (others ++ rest) piece) (ahead : BlankAhead others rest count)
    (alone : blankLength (piece ++ others) = Blank.shift piece.length (blankLength others))
    (along : blankLength (piece ++ (others ++ rest)) =
      Blank.shift piece.length (blankLength (others ++ rest))) :
    BlankAhead (piece ++ others) rest (piece.length + count) where
  alone := by rw [alone, ahead.alone]; rfl
  splits := .cons first ahead.splits
  along := by
    rw [List.append_assoc, along, ahead.along, List.length_append]
    by_cases whole : count = others.length
    · rw [if_pos whole, if_pos (by omega)]
      cases blankLength rest <;> simp [Blank.shift, Nat.add_assoc]
    · rw [if_neg whole, if_neg (by omega)]
      rfl

end BlankAhead

theorem ne_nil_of_quoted {style : Quoted.Style} {value : String}
    (found : quoted style piece = .found value count) : piece ≠ [] := by
  obtain ⟨others, rfl⟩ := exists_cons_of_quoted found
  exact List.cons_ne_nil _ _

theorem blankLength_quoted {style : Quoted.Style} {value : String}
    (found : quoted style piece = .found value count) (solid : isSolid style.quote = true)
    (more : List Char) : blankLength (piece ++ more) = .ok 0 := by
  obtain ⟨others, rfl⟩ := exists_cons_of_quoted found
  exact blankLength_solid solid _

theorem blankLength_word (some_ : piece ≠ []) (parts : ∀ char ∈ piece, isWordChar char = true)
    (more : List Char) : blankLength (piece ++ more) = .ok 0 := by
  obtain ⟨char, chars, rfl⟩ := List.exists_cons_of_ne_nil some_
  exact blankLength_solid (isSolid_of_isWordChar (parts char List.mem_cons_self)) _

theorem Scans.exists_blankAhead (scans : Scans rest text) : ∃ count, BlankAhead text rest count := by
  induction scans with
  | nil => exact ⟨0, .nil rest⟩
  | @cons piece others first later induction =>
      obtain ⟨count, ahead⟩ := induction
      cases first with
      | @mark char apart unbarred =>
          have unbarredAlone : ¬Bars (char :: others) := fun bars => unbarred (bars.append rest)
          have alone := blankLength_mark unbarredAlone
          have along := blankLength_mark unbarred
          by_cases white : isWhiteSpace char = true
          · rw [if_pos white] at alone along
            exact ⟨_, ahead.cons (.mark apart unbarred) alone along⟩
          · rw [if_neg white] at alone along
            exact ⟨0, .stays (.mark apart unbarred) later (List.cons_ne_nil _ _) alone along⟩
      | word some_ parts ends =>
          exact ⟨0, .stays (.word some_ parts ends) later some_ (blankLength_word some_ parts _)
            (blankLength_word some_ parts _)⟩
      | comment comment =>
          exact ⟨_, ahead.cons (.comment comment) (blankLength_comment comment.of_append)
            (blankLength_comment comment)⟩
      | value closed =>
          have blank := blankLength_quoted closed (show isSolid '\'' = true by decide)
          exact ⟨0, .stays (.value closed) later (ne_nil_of_quoted closed) (blank _) (blank _)⟩
      | name closed =>
          have blank := blankLength_quoted closed (show isSolid '"' = true by decide)
          exact ⟨0, .stays (.name closed) later (ne_nil_of_quoted closed) (blank _) (blank _)⟩

end ObjectQuery
