import ObjectQuery.Proofs.Lexical.Scan

namespace ObjectQuery

/-!
Places in a text where a blank or a comment comes next. What lexers find before
such a place does not depend on what follows it, and ends at another such place.
-/

section

variable {text rest more : List Char} {count : Nat}

/-- No keyword of two words begins between two pieces of the text and ends in the rest. -/
def Unpaired (text rest : List Char) : Prop :=
  ∀ before after, text = before ++ after → Scans (after ++ rest) before →
    ∀ keyword ∈ Keyword.paired, ∀ count,
      keyword.length? (after ++ rest) = some count → count ≤ after.length

namespace Unpaired

theorem of_all (all : ∀ count ≤ text.length, ∀ keyword ∈ Keyword.paired,
    (keyword.length? (text.drop count ++ rest)).all (· ≤ text.length - count) = true) :
    Unpaired text rest := by
  rintro before after rfl _ keyword member count found
  have within := all before.length (by simp) keyword member
  rw [List.drop_left, found] at within
  simpa using within

theorem of_bars (bars : Bars rest) : Unpaired text rest :=
  fun _ _ _ _ keyword member _ found =>
    Keyword.length?_le_of_bars (Keyword.isSteady_paired keyword member) bars found

end Unpaired

/--
The rest begins with a blank or a comment, the text before it is scanned up to
there, and no keyword of two words begins in the text and ends in the rest.
-/
structure Seam (text rest : List Char) : Prop where
  halts : Halts rest
  unquoted : rest.head? ≠ some '\'' ∧ rest.head? ≠ some '"'
  scans : Scans rest text
  unpaired : Unpaired text rest

namespace Seam

theorem parted (seam : Seam text rest) : Parted text rest :=
  ⟨seam.halts, seam.unpaired [] text rfl .nil⟩

theorem drop (seam : Seam text rest) (splits : Scans.SplitsAt text rest count) :
    Seam (text.drop count) rest where
  halts := seam.halts
  unquoted := seam.unquoted
  scans := splits.after
  unpaired before after same scans := by
    refine seam.unpaired (text.take count ++ before) after ?_ (.append ?_ scans)
    · rw [List.append_assoc, ← same, List.take_append_drop]
    · rw [← List.append_assoc, ← same]
      exact splits.before

/-- A mark before a seam is taken off. -/
theorem tail {char : Char} (seam : Seam (char :: text) rest) (divides : Divides char) :
    Seam text rest := by
  have apart := divides.apart
  refine seam.drop (seam.scans.splitsAt (Nat.le_add_left 1 _) ?_ (.inr (by simpa using apart)))
  intro before after same bars
  cases before with
  | nil =>
      rw [← List.nil_append after, ← same] at bars
      obtain ⟨first, more, shape, halting⟩ := (Halts.bars bars).exists_cons
      obtain ⟨rfl, _⟩ := List.cons.inj shape
      exact absurd halting divides.solid
  | cons first more => exact Nat.le_add_left 1 _

end Seam

/-- What the lexer finds before a seam does not reach over it, and ends at one. -/
def Settled (look : List Char → Lexeme α) : Prop :=
  ∀ ⦃text rest⦄, Seam text rest → look (text ++ rest) = look text ∧
    ∀ ⦃value count⦄, look text = .found value count →
      count ≤ text.length ∧ Seam (text.drop count) rest

namespace Settled

variable {α β : Type} {look other : List Char → Lexeme α}

theorem map (settled : Settled look) (make : α → β) :
    Settled fun chars => (look chars).map make := by
  intro text rest seam
  obtain ⟨same, ends⟩ := settled seam
  refine ⟨congrArg (Lexeme.map make) same, fun value count found => ?_⟩
  obtain ⟨origin, looked, _⟩ := Lexeme.exists_of_map_eq_found found
  exact ends looked

theorem orElse (first : Settled look) (second : Settled other) :
    Settled fun chars => look chars <|> other chars := by
  intro text rest seam
  obtain ⟨same, ends⟩ := first seam
  obtain ⟨sameToo, endsToo⟩ := second seam
  refine ⟨congrArg₂ (· <|> ·) same sameToo, fun value count found => ?_⟩
  exact (Lexeme.orElse_eq_found found).elim (ends ·) (endsToo ·)

end Settled

/-- What ends before comments and quoted texts, and where words end, ends between pieces. -/
theorem Separable.settled {α : Type} {look : List Char → Lexeme α} (separable : Separable look) :
    Settled look := by
  intro text rest seam
  have same := separable.append seam.parted
  refine ⟨same, fun value count found => ?_⟩
  have inside := separable.length_le found
  refine ⟨inside, seam.drop (seam.scans.splitsAt inside ?_ ?_)⟩
  · rintro before after rfl bars
    have alone := separable.append (bars.parted before)
    rw [← List.append_assoc, same, found] at alone
    exact separable.length_le alone.symm
  · refine (separable.ends found).imp_left fun ends => ?_
    rwa [isWordEnd_drop inside seam.halts.isWordEnd]

namespace Quoted

/-- A bounded run of characters that is stopped in a text does not go on after it. -/
theorem takeWhile_take_append {test : Char → Bool} {most : Nat}
    (stopped : most ≤ text.length ∨ ∃ char ∈ text, test char = false) (rest : List Char) :
    ((text ++ rest).take most).takeWhile test = (text.take most).takeWhile test := by
  rcases Nat.le_total most text.length with inside | short
  · rw [List.take_append_of_le_length inside]
  · rw [List.take_append, List.take_of_length_le short, List.takeWhile_append]
    split
    · rename_i whole
      rcases stopped with inside | ⟨char, member, ends⟩
      · rw [Nat.le_antisymm short inside, Nat.sub_self, List.take_zero, List.takeWhile_nil,
          List.append_nil, (List.takeWhile_prefix test).eq_of_length whole]
      · rw [← (List.takeWhile_prefix test).eq_of_length whole] at member
        rw [List.mem_takeWhile_imp member] at ends
        cases ends
    · rfl

theorem codePoint_append {least most base : Nat}
    (stopped : most ≤ text.length ∨ ∃ char ∈ text, Digit.isOf base char = false) (rest : List Char) :
    codePoint least most base (text ++ rest) = codePoint least most base text := by
  simp only [codePoint, takeWhile_take_append stopped]

theorem bracedEscape_append {value : List Char} (found : bracedEscape text = .ok (value, count))
    (rest : List Char) : bracedEscape (text ++ rest) = .ok (value, count) := by
  unfold bracedEscape at found
  split at found
  · rename_i char length code
    split at found
    · rename_i closed
      have member : '\x7d' ∈ text := List.mem_of_mem_drop (List.mem_of_mem_head? closed)
      obtain ⟨digits, after, rfl, rfl, _, _⟩ := exists_of_codePoint code
      rw [List.drop_left] at closed
      have closedToo : (after ++ rest).head? = some '\x7d' := by
        obtain ⟨more, rfl⟩ := List.head?_eq_some_iff.1 closed
        rfl
      rw [bracedEscape, codePoint_append (.inr ⟨_, member, by decide⟩), code]
      simp only [List.append_assoc, List.drop_left, closedToo, if_true]
      exact found
    · cases found
  · cases found

theorem fixedEscape_append {base width : Nat} {value : List Char}
    (found : fixedEscape width base text = .ok (value, count)) (rest : List Char) :
    fixedEscape width base (text ++ rest) = .ok (value, count) := by
  obtain ⟨digits, after, rfl, rfl, _, enough⟩ := exists_of_fixedEscape found
  rw [fixedEscape, codePoint_append (.inl ?_)]
  · exact found
  · rw [List.length_append]
    omega

theorem shift_append {reading longer : Reading (List Char)} {value : List Char} {before : Nat}
    (found : reading.shift before = .ok (value, count))
    (same : ∀ length, reading = .ok (value, length) → longer = .ok (value, length)) :
    longer.shift before = .ok (value, count) := by
  obtain ⟨length, read, rfl⟩ := exists_of_shift found
  rw [same length read]
  rfl

theorem escape_append {value : List Char} (found : escape text = .ok (value, count))
    (rest : List Char) : escape (text ++ rest) = .ok (value, count) := by
  cases text with
  | nil => cases found
  | cons char others =>
      simp only [List.cons_append, escape] at found ⊢
      split at found
      · exact found
      · split at found
        · rename_i unicode
          rw [if_pos unicode]
          split at found
          · exact shift_append found fun _ read => bracedEscape_append read rest
          · rename_i unbraced
            cases others with
            | nil => simp [fixedEscape, codePoint, Except.map, Reading.shift] at found
            | cons first more =>
                have other : first ≠ '\x7b' := fun same => unbraced more (by rw [same])
                simp only [List.cons_append]
                split
                · rename_i same
                  exact absurd (List.cons.inj same).1 other
                · exact shift_append found fun _ read => fixedEscape_append read rest
        · rename_i unicode
          rw [if_neg unicode]
          split at found
          · rename_i hexadecimal
            rw [if_pos hexadecimal]
            exact shift_append found fun _ read => fixedEscape_append read rest
          · rename_i hexadecimal
            rw [if_neg hexadecimal]
            split at found
            · rename_i octal
              rw [if_pos octal]
              exact fixedEscape_append found rest
            · cases found

theorem prepend_append {unit value : List Char} {before : Nat} {reading longer : Reading (List Char)}
    (found : prepend unit before reading = .ok (value, count))
    (same : ∀ others length, reading = .ok (others, length) → longer = .ok (others, length)) :
    prepend unit before longer = .ok (value, count) := by
  cases reading with
  | error fault => cases found
  | ok result =>
      rw [same _ _ rfl]
      exact found

theorem escape_le {value : List Char} (found : escape text = .ok (value, count)) :
    count ≤ text.length := by
  cases text with
  | nil => cases found
  | cons char others =>
      obtain ⟨more, after, rfl, rfl, _⟩ := exists_of_escape found
      simp

/-- A quoted text that is closed is read the same, whatever follows it. -/
theorem body_append {style : Style} {value : List Char} (found : body style text = .ok (value, count))
    (rest : List Char) : body style (text ++ rest) = .ok (value, count) := by
  induction size : text.length using Nat.strongRecOn generalizing text value count with
  | ind bound induction =>
      subst size
      cases text with
      | nil =>
          rw [body] at found
          cases found
      | cons char others =>
          rw [List.cons_append, body]
          rw [body] at found
          split at found
          · rename_i quote
            rw [if_pos quote]
            exact found
          · rename_i unclosed
            rw [if_neg unclosed]
            split at found
            · rename_i backslash
              rw [if_pos backslash]
              split at found
              · rename_i unit taken escaped
                rw [escape_append escaped rest]
                have inside := escape_le escaped
                refine prepend_append found fun later length read => ?_
                rw [List.drop_append_of_le_length inside]
                refine induction _ ?_ read rfl
                rw [List.length_drop, List.length_cons]
                omega
              · cases found
            · rename_i plainly
              rw [if_neg plainly]
              split at found
              · cases found
              · rename_i goesOn
                rw [if_neg goesOn]
                exact prepend_append found fun later length read =>
                  induction _ (Nat.lt_succ_self _) read rfl

end Quoted

theorem quoted_append {style : Quoted.Style} {value : String}
    (found : quoted style text = .found value count) (rest : List Char) :
    quoted style (text ++ rest) = .found value count := by
  obtain ⟨others, rfl⟩ := exists_cons_of_quoted found
  simp only [quoted, List.cons_append, if_true] at found ⊢
  cases read : Quoted.body style others with
  | error fault => simp [read] at found
  | ok reading =>
      obtain ⟨chars, length⟩ := reading
      rw [Quoted.body_append read]
      rwa [read] at found

theorem quoted_of_head?_ne {style : Quoted.Style} (other : text.head? ≠ some style.quote) :
    quoted style text = .absent := by
  cases text with
  | nil => rfl
  | cons char others =>
      have other : char ≠ style.quote := by simpa using other
      simp [quoted, other]

namespace IsPiece

variable {piece others : List Char}

theorem ne_nil (first : IsPiece rest piece) : piece ≠ [] := by
  cases first with
  | mark => exact List.cons_ne_nil _ _
  | word some_ => exact some_
  | comment comment => cases comment <;> exact List.cons_ne_nil _ _
  | value closed => exact ne_nil_of_quoted closed
  | name closed => exact ne_nil_of_quoted closed

/-- A piece that begins with a quote is the quoted text itself. -/
theorem exists_of_quote (first : IsPiece rest piece) {style : Quoted.Style}
    (known : style = .value ∨ style = .symbol) (quote : piece.head? = some style.quote) :
    ∃ value, quoted style piece = .found value piece.length := by
  have apart : isWordChar style.quote = false := by
    rcases known with rfl | rfl <;> decide +kernel
  obtain ⟨others, rfl⟩ := List.head?_eq_some_iff.1 quote
  cases first with
  | mark _ unbarred =>
      rcases known with rfl | rfl
      · exact absurd (.text _) unbarred
      · exact absurd (.name _) unbarred
  | word _ parts =>
      rw [parts _ List.mem_cons_self] at apart
      cases apart
  | comment comment => rcases known with rfl | rfl <;> cases comment
  | @value _ value closed =>
      rcases known with rfl | rfl
      · exact ⟨value, closed⟩
      · obtain ⟨others, same⟩ := exists_cons_of_quoted closed
        cases same
  | @name _ value closed =>
      rcases known with rfl | rfl
      · obtain ⟨others, same⟩ := exists_cons_of_quoted closed
        cases same
      · exact ⟨value, closed⟩

end IsPiece

theorem settled_quoted {style : Quoted.Style} (known : style = .value ∨ style = .symbol) :
    Settled (quoted style) := by
  intro text rest seam
  have unquoted : rest.head? ≠ some style.quote := by
    rcases known with rfl | rfl
    · exact seam.unquoted.1
    · exact seam.unquoted.2
  have scans := seam.scans
  cases scans with
  | nil =>
      refine ⟨(quoted_of_head?_ne unquoted).trans rfl, fun value count found => ?_⟩
      cases found
  | @cons piece others first later =>
      have head (more : List Char) : (piece ++ more).head? = piece.head? := by
        obtain ⟨char, chars, rfl⟩ := List.exists_cons_of_ne_nil first.ne_nil
        rfl
      by_cases quote : piece.head? = some style.quote
      · obtain ⟨value, closed⟩ := first.exists_of_quote known quote
        rw [List.append_assoc, quoted_append closed, quoted_append closed]
        refine ⟨rfl, fun value count found => ?_⟩
        cases found
        have splits := Scans.SplitsAt.cons first (.zero later)
        exact ⟨splits.inside, seam.drop splits⟩
      · have absent (more : List Char) : quoted style (piece ++ more) = .absent :=
          quoted_of_head?_ne (by rwa [head])
        rw [List.append_assoc, absent, absent]
        refine ⟨rfl, fun value count found => ?_⟩
        cases found

end

/-!
Two texts that differ in a gap: where one has a comment, the other has a blank.
Lexers find the same in both.
-/

namespace Keyword

theorem isKnown_reserved : ∀ keyword ∈ reserved, keyword.IsKnown := by
  simp only [reserved, List.forall_mem_cons]
  exact ⟨.word (by decide), .word (by decide), .word (by decide), .pair (by simp [paired]),
    .pair (by simp [paired]), .word (by decide), .word (by decide), .word (by decide),
    .word (by decide), List.forall_mem_nil _⟩

end Keyword

/-- A comment between tokens, and what follows it. -/
structure Gap where
  comment : List Char
  rest : List Char
  isComment : IsComment rest comment

namespace Gap

variable {gap : Gap} {chars others : List Char} {count : Nat}

/-- The gap with the comment in it. -/
def commented (gap : Gap) : List Char :=
  gap.comment ++ gap.rest

/-- The gap with a blank in it. -/
def spaced (gap : Gap) : List Char :=
  ' ' :: gap.rest

/-- The same text, before the gap with the one or the other in it, or behind the gap. -/
inductive Aligned (gap : Gap) : List Char → List Char → Prop where
  | before {text : List Char} (commented : Seam text gap.commented)
      (spaced : Seam text gap.spaced) : Aligned gap (text ++ gap.commented) (text ++ gap.spaced)
  | after (text : List Char) : Aligned gap text text

theorem blankLength_commented (gap : Gap) :
    blankLength gap.commented = Blank.shift gap.comment.length (blankLength gap.rest) :=
  blankLength_comment gap.isComment

theorem blankLength_spaced (gap : Gap) :
    blankLength gap.spaced = Blank.shift 1 (blankLength gap.rest) := by
  have unbarred : ¬Bars gap.spaced := by rintro ⟨⟩
  exact (blankLength_mark unbarred).trans (if_pos (by decide))

theorem length_comment_pos (gap : Gap) : 0 < gap.comment.length := by
  obtain ⟨comment, rest, isComment⟩ := gap
  cases isComment <;> exact Nat.succ_pos _

theorem drop_commented (gap : Gap) (count : Nat) :
    gap.commented.drop (gap.comment.length + count) = gap.rest.drop count := by
  rw [commented, ← List.drop_drop, List.drop_left]

theorem drop_spaced (gap : Gap) (count : Nat) :
    gap.spaced.drop (1 + count) = gap.rest.drop count := by
  rw [spaced, Nat.add_comm, List.drop_succ_cons]

namespace Aligned

/-- Lexers find the same, and stop at the same places. -/
theorem settled {α : Type} {look : List Char → Lexeme α} (settled : Settled look)
    (aligned : gap.Aligned chars others) : look chars = look others ∧
      ∀ ⦃value count⦄, look chars = .found value count →
        gap.Aligned (chars.drop count) (others.drop count) := by
  cases aligned with
  | after => exact ⟨rfl, fun _ _ _ => .after _⟩
  | before commented spaced =>
      obtain ⟨same, ends⟩ := settled commented
      obtain ⟨sameToo, endsToo⟩ := settled spaced
      refine ⟨same.trans sameToo.symm, fun value count found => ?_⟩
      obtain ⟨inside, seam⟩ := ends (same.symm.trans found)
      rw [List.drop_append_of_le_length inside, List.drop_append_of_le_length inside]
      exact .before seam (endsToo (same.symm.trans found)).2

/-- A keyword stands at the head of both texts, or of neither. -/
theorem keyword {keyword : Keyword} (known : keyword.IsKnown) (aligned : gap.Aligned chars others) :
    keyword.length? chars = keyword.length? others ∧
      ∀ ⦃count⦄, keyword.length? chars = some count →
        gap.Aligned (chars.drop count) (others.drop count) := by
  obtain ⟨same, ends⟩ := aligned.settled (keyword.separable known ()).settled
  constructor
  · cases first : keyword.length? chars <;> cases second : keyword.length? others <;>
      simp_all
  · intro count found
    rw [found] at ends
    exact ends rfl

theorem isReserved (aligned : gap.Aligned chars others) :
    ObjectQuery.isReserved chars = ObjectQuery.isReserved others := by
  have same (keyword : Keyword) (member : keyword ∈ Keyword.reserved) :
      keyword.length? chars = keyword.length? others :=
    (aligned.keyword (Keyword.isKnown_reserved keyword member)).1
  rw [Bool.eq_iff_iff, ObjectQuery.isReserved, ObjectQuery.isReserved, List.any_eq_true,
    List.any_eq_true]
  exact exists_congr fun keyword => and_congr_right fun member => by rw [same keyword member]

theorem isAhead (aligned : gap.Aligned chars others) :
    Identifier.isAhead chars = Identifier.isAhead others := by
  cases aligned with
  | after => rfl
  | before commented spaced =>
      rw [Identifier.isAhead_halts commented.halts, Identifier.isAhead_halts spaced.halts]

theorem eq_nil_iff (aligned : gap.Aligned chars others) : chars = [] ↔ others = [] := by
  cases aligned with
  | after => rfl
  | before commented spaced => simp [commented.halts.ne_nil, spaced.halts.ne_nil]

/-- The blanks ahead end at the same place, or are both broken by a comment that does not end. -/
theorem blankLength (aligned : gap.Aligned chars others) :
    (∃ count more, ObjectQuery.blankLength chars = .ok count ∧
      ObjectQuery.blankLength others = .ok more ∧
      gap.Aligned (chars.drop count) (others.drop more) ∧ (count = 0 ↔ more = 0)) ∨
    ∃ start begun, ObjectQuery.blankLength chars = .error start ∧
      ObjectQuery.blankLength others = .error begun := by
  cases aligned with
  | after =>
      cases ObjectQuery.blankLength chars with
      | ok count => exact .inl ⟨count, count, rfl, rfl, .after _, Iff.rfl⟩
      | error start => exact .inr ⟨start, start, rfl, rfl⟩
  | @before text commented spaced =>
      obtain ⟨count, blank⟩ := commented.scans.exists_blankAhead
      obtain ⟨more, blankToo⟩ := spaced.scans.exists_blankAhead
      obtain rfl : count = more := Except.ok.inj (blank.alone.symm.trans blankToo.alone)
      rw [blank.along, blankToo.along]
      by_cases whole : count = text.length
      · rw [if_pos whole, if_pos whole, gap.blankLength_commented, gap.blankLength_spaced]
        cases ObjectQuery.blankLength gap.rest with
        | error start => exact .inr ⟨_, _, rfl, rfl⟩
        | ok length =>
            subst whole
            refine .inl ⟨_, _, rfl, rfl, ?_, ?_⟩
            · have beyond (more : List Char) (count : Nat) :
                  (text ++ more).drop (text.length + count) = more.drop count := by
                rw [← List.drop_drop, List.drop_left]
              rw [beyond, beyond, drop_commented, drop_spaced]
              exact .after _
            · have positive := gap.length_comment_pos
              omega
      · rw [if_neg whole, if_neg whole]
        refine .inl ⟨count, count, rfl, rfl, ?_, Iff.rfl⟩
        rw [List.drop_append_of_le_length blank.splits.inside,
          List.drop_append_of_le_length blank.splits.inside]
        exact .before (commented.drop blank.splits) (spaced.drop blankToo.splits)

theorem head?_iff (aligned : gap.Aligned chars others) {char : Char} (divides : Divides char) :
    chars.head? = some char ↔ others.head? = some char := by
  cases aligned with
  | after => rfl
  | @before text commented spaced =>
      cases text with
      | nil => simp [commented.halts.head?_ne divides.solid, spaced.halts.head?_ne divides.solid]
      | cons first more => rfl

/-- A mark that comes next is taken off both texts. -/
theorem tail (aligned : gap.Aligned chars others) {char : Char} (divides : Divides char)
    (head : chars.head? = some char) :
    gap.Aligned (chars.drop 1) (others.drop 1) := by
  cases aligned with
  | after => exact .after _
  | @before text commented spaced =>
      cases text with
      | nil => exact absurd head (commented.halts.head?_ne divides.solid)
      | cons first more =>
          obtain rfl : first = char := Option.some.inj head
          exact .before (commented.tail divides) (spaced.tail divides)

end Aligned

end Gap

end ObjectQuery
