import ObjectQuery.Grammar.Name
import ObjectQuery.Proofs.Syntax.Keep
import ObjectQuery.Proofs.Syntax.Take
import ObjectQuery.Query.Path

namespace ObjectQuery

/-! Names and aliases as plain texts spell them, which are read again from their text. -/

/-- A path of plain identifiers. -/
structure IsPath (path : Path) : Prop where
  nonempty : path ≠ []
  names : ∀ segment ∈ path, IsName segment

/-- The path begins with a name that opens no clause by itself. -/
def Path.IsFree (path : Path) : Prop :=
  ∀ first ∈ path.head?, isReserved first.toList = false

/-- What is left does not make two words of a name before it that open a clause. -/
def NotPairing (rest : List Char) : Prop :=
  (Keyword.later Keyword.pairingWord).length? rest = none

/-- What is left leaves the path alone, where this is the first word of two that open a clause. -/
def Path.Apart (path : Path) (rest : List Char) : Prop :=
  ∀ first, path = [first] → Keyword.pairs first.toList = true → NotPairing rest

theorem notPairing_solid {char : Char} (solid : isWhiteSpace char = false) (rest : List Char) :
    NotPairing (char :: rest) := by
  rw [NotPairing, Keyword.length?_later, Keyword.laterWordLength?_solid solid, Option.bind_none]

theorem notPairing_nil : NotPairing [] := rfl

theorem notPairing_space {first : Char} (solid : isWhiteSpace first = false)
    (other : sameUpper first 'B' = false) (rest : List Char) : NotPairing (' ' :: first :: rest) := by
  have white : ∀ char ∈ [' '], isWhiteSpace char = true :=
    List.forall_mem_singleton.2 (by decide)
  have starts : (first :: rest).head?.any isWhiteSpace = false := by simpa using solid
  have blank : Keyword.laterWordLength? Keyword.pairingWord (' ' :: first :: rest) =
      (Keyword.wordLength? Keyword.pairingWord (first :: rest)).map (1 + ·) :=
    Keyword.laterWordLength?_blanks white (by decide) starts
  have word : Keyword.wordLength? Keyword.pairingWord (first :: rest) = none := by
    rw [show Keyword.pairingWord = ['B', 'Y'] from rfl, Keyword.wordLength?, if_neg (by simp [other])]
  rw [word] at blank
  rw [NotPairing, Keyword.length?_later]
  exact congrArg (Option.bind · _) blank

theorem Path.render_cons (first : String) (others : List String) :
    ∃ tail, (Path.render (first :: others)).toList = first.toList ++ tail ∧
      (others = [] ∧ tail = [] ∨ ∃ more, tail = '.' :: more) := by
  rw [Path.render, String.toList_intercalate, List.map_cons]
  cases others with
  | nil => exact ⟨[], by simp, .inl ⟨rfl, rfl⟩⟩
  | cons next others =>
      rw [List.map_cons, List.intercalate_cons_cons, List.append_assoc]
      exact ⟨_, rfl, .inr ⟨_, rfl⟩⟩

theorem IsName.blank {name : String} (isName : IsName name) (rest : List Char) :
    blankLength (name.toList ++ rest) = .ok 0 := by
  obtain ⟨first, others, shape, start⟩ := isName.exists_cons
  rw [shape]
  exact blankLength_solid (Identifier.forall_start (by decide +kernel) start) _

theorem IsName.brackets {name : String} (isName : IsName name) :
    ObjectQuery.brackets name.toList = 0 := by
  refine List.count_eq_zero.2 fun member => ?_
  exact absurd (isName.parts _ member) (by decide)

namespace IsPath

variable {path : Path} {rest : List Char}

theorem exists_cons (isPath : IsPath path) :
    ∃ first others, path = first :: others ∧ IsName first := by
  obtain ⟨first, others, rfl⟩ := List.exists_cons_of_ne_nil isPath.nonempty
  exact ⟨first, others, rfl, isPath.names first List.mem_cons_self⟩

/-- A path begins with a name, which nothing after it continues. -/
theorem exists_render (isPath : IsPath path) (breaks : Breaks rest) :
    ∃ first tail, path.head? = some first ∧ IsName first ∧
      path.render.toList = first.toList ++ tail ∧ Breaks (tail ++ rest) := by
  obtain ⟨first, others, rfl, isName⟩ := isPath.exists_cons
  obtain ⟨tail, shown, single | ⟨more, dotted⟩⟩ := Path.render_cons first others
  · exact ⟨first, tail, rfl, isName, shown, by rwa [single.2]⟩
  · exact ⟨first, tail, rfl, isName, shown, by rw [dotted]; exact breaks_cons (by decide) _⟩

theorem blank (isPath : IsPath path) (rest : List Char) :
    blankLength (path.render.toList ++ rest) = .ok 0 := by
  obtain ⟨first, others, rfl, isName⟩ := isPath.exists_cons
  obtain ⟨tail, shown, -⟩ := Path.render_cons first others
  rw [shown, List.append_assoc]
  exact isName.blank _

theorem isReserved (isPath : IsPath path) (free : path.IsFree) (breaks : Breaks rest)
    (apart : path.Apart rest) : isReserved (path.render.toList ++ rest) = false := by
  obtain ⟨first, others, rfl, isName⟩ := isPath.exists_cons
  obtain ⟨tail, shown, single | ⟨more, dotted⟩⟩ := Path.render_cons first others
  · obtain ⟨rfl, rfl⟩ := single
    rw [shown, List.append_nil]
    exact isName.isReserved_append breaks (free first rfl) (apart first rfl)
  · rw [shown, dotted, List.append_assoc]
    exact isName.isReserved_append (breaks_cons (by decide) _) (free first rfl)
      fun _ => notPairing_solid (by decide) _

end IsPath

theorem segment_name {name : String} (isName : IsName name) {rest : List Char}
    (ends : isWordEnd rest = true) :
    segment (name.toList ++ rest) = .found name name.toList.length := by
  obtain ⟨first, others, shape, start⟩ := isName.exists_cons
  have other : first ≠ Quoted.Style.symbol.quote := by
    rintro rfl
    exact absurd start (by decide)
  have unquoted : quoted .symbol (name.toList ++ rest) = .absent := by
    rw [shape, List.cons_append, quoted, if_neg other]
  rw [segment, unquoted, Lexeme.absent_orElse, isName.identifier ends]

theorem segment_of_isPlain {chars : List Char} (plain : isPlain chars = true) :
    segment chars = identifier chars := by
  have unquoted : quoted .symbol chars = .absent := by
    cases chars with
    | nil => rfl
    | cons first others =>
        have other : first ≠ Quoted.Style.symbol.quote := (Plain.isPlain_cons plain).1
        rw [quoted, if_neg other]
  rw [segment, unquoted, Lexeme.absent_orElse]

namespace Grammar

open ObjectQuery.Parser

variable {bound : Nat} {rest : List Char}

section Takes

theorem lexeme_segment_takes {name : String} (isName : IsName name)
    (ends : isWordEnd rest = true) :
    (lexeme segment).Takes bound name.toList (some name) rest :=
  .lexeme (segment_name isName ends)

theorem skipBlank_takes {lead : List Char} (leads : lead = [] ∨ lead = [' '])
    (solid : blankLength rest = .ok 0) : skipBlank.Takes bound lead ⟨⟩ rest := by
  rcases leads with rfl | rfl
  · exact .skipBlank solid
  · exact .skipBlank (blankLength_space solid)

theorem laterSegment_takes {name : String} (isName : IsName name) (ends : isWordEnd rest = true)
    (start : Nat) : (laterSegment start).Takes bound name.toList name rest := by
  have noBlank : skipBlank.Takes bound [] ⟨⟩ (name.toList ++ rest) :=
    .skipBlank (isName.blank rest)
  exact noBlank.step ((lexeme_segment_takes isName ends).last (.pure _ _))

theorem name_takes {path : Path} (isPath : IsPath path) (follows : Follows rest) :
    name.Takes bound path.render.toList (some path) rest := by
  obtain ⟨first, others, rfl, isName⟩ := isPath.exists_cons
  have noDot : (charAhead '.').Takes bound [] false rest :=
    .charAhead_of_follows follows (by decide) (by decide)
  rw [Path.render, String.toList_intercalate, List.map_cons]
  refine .get_bind fun start _ => ?_
  cases others with
  | nil =>
      rw [List.map_nil, List.intercalate_singleton]
      exact (lexeme_segment_takes isName follows.isWordEnd).last (noDot.step (.pure _ _))
  | cons next others =>
      have dotEnds (more : List Char) : isWordEnd ('.' :: more) = true := rfl
      have dot (following : List Char) : (charAhead '.').Takes bound ['.'] true following :=
        .charAhead (blankLength_solid (by decide) following)
      rw [List.map_cons, List.intercalate_cons_cons, List.append_assoc]
      refine (lexeme_segment_takes isName (dotEnds _)).bind ((dot _).bind ?_)
      refine .last (.separated_tight dot noDot ?_ (List.cons_ne_nil _ _) (by decide)) (.pure _ _)
      intro segment member following follow
      refine laterSegment_takes (isPath.names segment (List.mem_cons_of_mem _ member)) ?_ _
      rcases follow with rfl | ⟨more, rfl⟩
      · exact follows.isWordEnd
      · exact dotEnds more

/-- A name that opens no clause is taken up where it must stand. -/
theorem requiredName_takes {path : Path} (isPath : IsPath path) (free : path.IsFree)
    (follows : Follows rest) (apart : path.Apart rest) (fault : SyntaxFault) {lead : List Char}
    (leads : lead = [] ∨ lead = [' ']) :
    (requiredName fault).Takes bound (lead ++ path.render.toList) path rest := by
  have unreserved : isReservedAhead.Takes bound [] false (path.render.toList ++ rest) := by
    rw [← isPath.isReserved free follows.breaks apart]
    exact .isReservedAhead _
  refine (skipBlank_takes leads (isPath.blank rest)).bind ?_
  exact unreserved.step ((name_takes isPath follows).last (.pure _ _))

/-- Nothing that follows is an alias. -/
inductive Unnamed : List Char → Prop where
  | nothing : Unnamed []
  | comma (rest : List Char) : Unnamed (',' :: rest)
  | closing (rest : List Char) : Unnamed (')' :: rest)
  | clause {rest : List Char} (reserved : isReserved rest = true)
      (blank : blankLength rest = .ok 0) : Unnamed (' ' :: rest)

theorem Unnamed.exists_blanks (unnamed : Unnamed rest) :
    ∃ blanks after, rest = blanks ++ after ∧ blankLength (blanks ++ after) = .ok blanks.length ∧
      brackets blanks = 0 ∧ (isReserved after || !Identifier.isAhead after) = true := by
  cases unnamed with
  | nothing => exact ⟨[], [], rfl, by rw [blankLength.eq_def]; rfl, rfl, by simp [Identifier.isAhead]⟩
  | comma rest =>
      refine ⟨[], ',' :: rest, rfl, blankLength_solid (by decide) rest, rfl, ?_⟩
      rw [show Identifier.isAhead (',' :: rest) = false from rfl, Bool.not_false, Bool.or_true]
  | closing rest =>
      refine ⟨[], ')' :: rest, rfl, blankLength_solid (by decide) rest, rfl, ?_⟩
      rw [show Identifier.isAhead (')' :: rest) = false from rfl, Bool.not_false, Bool.or_true]
  | @clause rest reserved blank =>
      exact ⟨[' '], rest, rfl, blankLength_space blank, rfl, by rw [reserved, Bool.true_or]⟩

theorem aliasName_absent (unnamed : Unnamed rest) : aliasName.Takes bound [] none rest := by
  obtain ⟨blanks, after, rfl, blank, flat, absent⟩ := unnamed.exists_blanks
  have skipped : skipBlank.Takes bound blanks ⟨⟩ after := .skipBlank blank
  intro cursor ahead room
  have room : cursor.HasRoom bound (brackets blanks) := flat ▸ room
  have here (cursor : Cursor) : (MonadState.get : Parser Cursor) cursor = .ok cursor cursor := rfl
  rw [aliasName, run_bind (here _), run_bind (skipped ahead room), run_bind (here _)]
  have moved : (cursor.advance blanks.length).ahead = after :=
    Cursor.ahead_advance_of_append ahead
  simp only [moved, absent, if_true, List.length_nil, Cursor.advance_zero]
  rfl

theorem aliasName_takes {name : String} (isName : IsName name)
    (free : isReserved name.toList = false) (follows : Follows rest)
    (apart : Keyword.pairs name.toList = true → NotPairing rest) :
    aliasName.Takes bound (' ' :: name.toList) (some name) rest := by
  have unreserved := isName.isReserved_append follows.breaks free apart
  have solid := isName.blank rest
  refine .get_bind fun cursor _ => ?_
  have blank : skipBlank.Takes bound [' '] ⟨⟩ (name.toList ++ rest) :=
    .skipBlank (blankLength_space solid)
  refine blank.bind (.get_bind fun inner ahead => ?_)
  simp only [ahead, unreserved, isName.isAhead_append, Bool.not_true, Bool.or_self,
    Bool.false_eq_true, if_false]
  exact .lexeme (isName.identifier follows.isWordEnd)

end Takes

section Reads

open Step

variable {cursor : Cursor}

/-- The name stands at the head of the characters, and ends before what is left of them. -/
structure Spells (path : Path) (chars rest : List Char) : Prop where
  isPath : IsPath path
  head : ∃ first others after, path = first :: others ∧ chars = first.toList ++ after ∧
    isWordEnd after = true ∧ (others = [] → rest = after)

theorem meets_identifier (plain : cursor.IsPlain) :
    Meets (lexeme identifier) cursor fun found after => after.IsPlain ∧
      (found = none → after = cursor) ∧ ∀ name ∈ found, IsName name ∧
        cursor.ahead = name.toList ++ after.ahead ∧ isWordEnd after.ahead = true := by
  refine meets_lexeme (fun _ => ⟨plain, fun _ => rfl, by simp⟩) fun name length found => ?_
  obtain ⟨isName, rest, ahead, rfl, ends⟩ := exists_of_identifier found
  have moved := Cursor.ahead_advance_of_append ahead
  have unquoted : '\'' ∉ cursor.ahead.take name.toList.length := by
    rw [ahead, List.take_left]
    exact fun member => Identifier.ne_quote_of_isPart (isName.parts _ member) rfl
  refine ⟨plain.advance unquoted, by simp, ?_⟩
  rintro _ ⟨⟩
  exact ⟨isName, by rw [moved, ahead], by rw [moved, ends]⟩

theorem meets_segment (plain : cursor.IsPlain) :
    Meets (lexeme segment) cursor fun found after => after.IsPlain ∧
      (found = none → after = cursor) ∧ ∀ name ∈ found, IsName name ∧
        cursor.ahead = name.toList ++ after.ahead ∧ isWordEnd after.ahead = true := by
  rw [Meets, lexeme_congr (segment_of_isPlain plain)]
  exact meets_identifier plain

theorem laterSegment_reads (start : Nat) : (laterSegment start).Reads IsName := by
  have segments : (lexeme segment).Reads fun found => ∀ name ∈ found, IsName name := by
    intro before found after plain run
    obtain ⟨later, -, names⟩ := (meets_segment plain).of_ok run
    exact ⟨fun name given => (names name given).1, later⟩
  refine skipBlank_reads.bind fun _ _ => segments.bind fun found names => ?_
  cases found with
  | none => exact .failFrom
  | some name => exact .pure (names name rfl)

theorem meets_name (plain : cursor.IsPlain) :
    Meets name cursor fun found after => after.IsPlain ∧ (found = none → after = cursor) ∧
      ∀ path ∈ found, Spells path cursor.ahead after.ahead := by
  refine .get_bind ((meets_segment plain).bind ?_)
  rintro found after ⟨later, stays, names⟩
  cases found with
  | none => exact .pure ⟨later, fun _ => stays rfl, by simp⟩
  | some first =>
      obtain ⟨isName, ahead, ends⟩ := names first rfl
      refine (charAhead_offers (by decide) later).bind ?_
      rintro dotted next ⟨plain, stayed⟩
      refine .ite (fun _ => ?_) fun single => ?_
      · have dots : (charAhead '.').Offers := charAhead_offers (by decide)
        have others := Step.Yields.separatedBy dots.reads (laterSegment_reads cursor.position)
        refine (others.meets plain).bind fun others rest read => .pure ⟨read.2, by simp, ?_⟩
        rintro _ ⟨⟩
        refine ⟨⟨List.cons_ne_nil _ _, List.forall_mem_cons.2 ⟨isName, read.1.2⟩⟩, ?_⟩
        exact ⟨first, others, _, rfl, ahead, ends, fun none => absurd none read.1.1⟩
      · obtain rfl := stayed (by simpa using single)
        refine .pure ⟨plain, by simp, ?_⟩
        rintro _ ⟨⟩
        refine ⟨⟨List.cons_ne_nil _ _, by simpa using isName⟩, ?_⟩
        exact ⟨first, [], _, rfl, ahead, ends, fun _ => rfl⟩

theorem Spells.isFree {path : Path} {chars : List Char} (spells : Spells path chars rest)
    (free : isReserved chars = false) : path.IsFree ∧
      ∀ first, path = [first] → isWordEnd rest = true ∧
        (Keyword.pairs first.toList = true → NotPairing rest) := by
  obtain ⟨first, others, after, rfl, rfl, ends, alone⟩ := spells.head
  have isName := spells.isPath.names first List.mem_cons_self
  obtain ⟨single, paired⟩ := isName.of_isReserved_append ends free
  refine ⟨?_, ?_⟩
  · rintro _ ⟨⟩
    exact single
  · rintro _ ⟨⟩
    rw [alone rfl]
    exact ⟨ends, paired⟩

theorem meets_requiredName (plain : cursor.IsPlain) (fault : SyntaxFault) :
    Meets (requiredName fault) cursor fun path after => after.IsPlain ∧ IsPath path ∧
      path.IsFree ∧ ∀ first, path = [first] → isWordEnd after.ahead = true ∧
        (Keyword.pairs first.toList = true → NotPairing after.ahead) := by
  refine (meets_skipBlank plain).bind ?_
  rintro ⟨⟩ inner ⟨plain, -⟩
  refine meets_isReservedAhead.bind ?_
  rintro _ _ ⟨rfl, rfl⟩
  refine .ite (fun _ => ?_) fun free => ?_
  · exact meets_fail_bind
  · refine (meets_name plain).bind ?_
    rintro found after ⟨later, -, spells⟩
    cases found with
    | none => exact meets_fail
    | some path =>
        have spelled := spells path rfl
        obtain ⟨isFree, alone⟩ := spelled.isFree (by simpa using free)
        exact .pure ⟨later, spelled.isPath, isFree, alone⟩

/-- An alias: a plain identifier that opens no clause. -/
structure IsAlias (name : String) : Prop where
  isName : IsName name
  free : isReserved name.toList = false

theorem meets_aliasName (plain : cursor.IsPlain) :
    Meets aliasName cursor fun found after => after.IsPlain ∧ ∀ name ∈ found, IsAlias name ∧
      (isWordEnd cursor.ahead = true → NotPairing cursor.ahead →
        Keyword.length? ⟨[Keyword.pairingWord], true⟩ name.toList = none) := by
  refine .get_bind ((meets_skipBlank plain).bind ?_)
  rintro ⟨⟩ inner ⟨later, blanks, split, white⟩
  refine .get_bind (.ite (fun _ => .set_bind (.pure ⟨plain, by simp⟩)) fun free => ?_)
  obtain ⟨free, start⟩ := by simpa using free
  refine meets_lexeme (fun _ => ⟨later, by simp⟩) fun name length found => ?_
  obtain ⟨isName, rest, ahead, rfl, ends⟩ := exists_of_identifier found
  have unquoted : '\'' ∉ inner.ahead.take name.toList.length := by
    rw [ahead, List.take_left]
    exact fun member => Identifier.ne_quote_of_isPart (isName.parts _ member) rfl
  refine ⟨later.advance unquoted, ?_⟩
  rintro _ ⟨⟩
  rw [ahead] at free split
  refine ⟨⟨isName, (isName.of_isReserved_append ends free).1⟩, fun past unpaired => ?_⟩
  have some_ : blanks ≠ [] := by
    rintro rfl
    obtain ⟨first, others, shape, start⟩ := isName.exists_cons
    rw [split, shape] at past
    have part := Identifier.isWordChar_of_isPart (Identifier.isPart_of_isStart start)
    simp [isWordEnd, part] at past
  rw [split, NotPairing, isName.length?_later_append white some_, Option.map_eq_none_iff] at unpaired
  exact Keyword.length?_eq_none_of_append unpaired ends

end Reads

end Grammar

end ObjectQuery
