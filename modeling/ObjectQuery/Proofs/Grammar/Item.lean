import ObjectQuery.Grammar.Clause
import ObjectQuery.Proofs.Grammar.Name
import ObjectQuery.Proofs.Query.Display

namespace ObjectQuery

/-! What closes the text of a clause: the end of its query, or the keyword of a later clause. -/

/-- Nothing, a closing bracket, or one of the keywords, which open clauses, after a blank. -/
inductive Closed (keywords : List Keyword) : List Char → Prop where
  | nothing : Closed keywords []
  | closing (rest : List Char) : Closed keywords (')' :: rest)
  | clause {keyword : Keyword} (reserved : keyword ∈ Keyword.reserved) (member : keyword ∈ keywords)
      (rest : List Char) : Closed keywords (' ' :: (keyword.spelled ++ ' ' :: rest))

namespace Closed

variable {keywords : List Keyword} {keyword : Keyword} {rest : List Char}

theorem exists_spelled (reserved : keyword ∈ Keyword.reserved) :
    ∃ first others, keyword.spelled = first :: others ∧ isLead first = true ∧
      isSolid first = true ∧ sameUpper first 'B' = false := by
  have leads : ∀ keyword ∈ Keyword.reserved, keyword.spelled.head?.any (fun first =>
      isLead first && isSolid first && !sameUpper first 'B') = true := by
    decide
  have lead := leads keyword reserved
  cases shown : keyword.spelled with
  | nil => simp [shown] at lead
  | cons first others => exact ⟨first, others, rfl, by simpa [shown, and_assoc] using lead⟩

theorem blank_spelled (reserved : keyword ∈ Keyword.reserved) (rest : List Char) :
    blankLength (keyword.spelled ++ rest) = .ok 0 := by
  obtain ⟨first, others, shown, -, solid, -⟩ := exists_spelled reserved
  rw [shown]
  exact blankLength_solid solid _

theorem isReserved_spelled (reserved : keyword ∈ Keyword.reserved) (rest : List Char) :
    isReserved (keyword.spelled ++ ' ' :: rest) = true := by
  simp only [Keyword.reserved, List.mem_cons, List.not_mem_nil, or_false] at reserved
  rcases reserved with rfl | rfl | rfl | rfl | rfl | rfl | rfl | rfl | rfl <;> rfl

theorem length?_spelled (reserved : keyword ∈ Keyword.reserved) (rest : List Char) :
    keyword.length? (keyword.spelled ++ ' ' :: rest) = some keyword.spelled.length := by
  simp only [Keyword.reserved, List.mem_cons, List.not_mem_nil, or_false] at reserved
  rcases reserved with rfl | rfl | rfl | rfl | rfl | rfl | rfl | rfl | rfl <;> rfl

theorem mono (closed : Closed keywords rest) {more : List Keyword} (subset : keywords ⊆ more) :
    Closed more rest := by
  cases closed with
  | nothing => exact .nothing
  | closing rest => exact .closing rest
  | clause reserved member rest => exact .clause reserved (subset member) rest

theorem keywordAhead_spelled (reserved : keyword ∈ Keyword.reserved) (bound : Nat)
    (rest : List Char) :
    (Parser.keywordAhead keyword).Takes bound (' ' :: keyword.spelled) true (' ' :: rest) := by
  have blank : blankLength ([' '] ++ (keyword.spelled ++ ' ' :: rest)) = .ok 1 :=
    blankLength_space (blank_spelled reserved _)
  exact .keywordAhead blank (length?_spelled reserved rest)

/-- A clause that may be empty closes what stands before it. -/
theorem of_clauseChars (closed : Closed keywords rest) (keyword : Keyword) (isEmpty : Bool)
    (content : List Char) (reserved : keyword ∈ Keyword.reserved := by simp [Keyword.reserved]) :
    Closed (keyword :: keywords) (clauseChars keyword isEmpty content ++ rest) := by
  cases isEmpty with
  | true => exact closed.mono (List.subset_cons_self _ _)
  | false =>
      have shape : clauseChars keyword false content ++ rest =
          ' ' :: (keyword.spelled ++ ' ' :: (content ++ rest)) := by
        simp [clauseChars]
      rw [shape]
      exact .clause reserved List.mem_cons_self _

theorem of_rowBound (closed : Closed keywords rest) (keyword : Keyword) (rows : Option RowBound)
    (reserved : keyword ∈ Keyword.reserved := by simp [Keyword.reserved]) :
    Closed (keyword :: keywords) (RowBound.clause keyword rows ++ rest) :=
  closed.of_clauseChars keyword _ _ reserved

theorem follows (closed : Closed keywords rest) : Follows rest := by
  cases closed with
  | nothing => exact .nothing
  | closing rest => exact .closing rest
  | clause reserved _ rest =>
      obtain ⟨first, others, shown, lead, -⟩ := exists_spelled reserved
      rw [shown]
      exact .word lead _

theorem notPairing (closed : Closed keywords rest) : NotPairing rest := by
  cases closed with
  | nothing => exact notPairing_nil
  | closing rest => exact notPairing_solid (by decide) rest
  | clause reserved _ rest =>
      obtain ⟨first, others, shown, -, solid, other⟩ := exists_spelled reserved
      rw [shown]
      exact notPairing_space (isSolid_iff.1 solid).1 other _

theorem unnamed (closed : Closed keywords rest) : Grammar.Unnamed rest := by
  cases closed with
  | nothing => exact .nothing
  | closing rest => exact .closing rest
  | clause reserved _ rest => exact .clause (isReserved_spelled reserved rest) (blank_spelled reserved _)

theorem exists_blanks (closed : Closed keywords rest) : ∃ blanks text after,
    rest = blanks ++ (text ++ after) ∧ blankLength (blanks ++ (text ++ after)) = .ok blanks.length ∧
      brackets blanks = 0 ∧ Breaks after ∧
        (text = [] ∨ ∃ keyword ∈ keywords, text = keyword.spelled) := by
  cases closed with
  | nothing =>
      refine ⟨[], [], [], rfl, ?_, rfl, Follows.nothing.breaks, .inl rfl⟩
      rw [blankLength.eq_def]
      rfl
  | closing rest =>
      exact ⟨[], [], ')' :: rest, rfl, blankLength_solid (by decide) rest, rfl,
        (Follows.closing rest).breaks, .inl rfl⟩
  | @clause keyword reserved member rest =>
      exact ⟨[' '], keyword.spelled, ' ' :: rest, rfl,
        blankLength_space (blank_spelled reserved _), rfl, breaks_cons (by decide) _,
        .inr ⟨keyword, member, rfl⟩⟩

/-- A keyword apart from those that may stand here does not. -/
theorem keywordAhead (closed : Closed keywords rest) (lettered : keyword.isLettered = true)
    (apart : keyword.isApart [] = true ∧ ∀ other ∈ keywords, keyword.isApart other.spelled = true)
    (bound : Nat) : (Parser.keywordAhead keyword).Takes bound [] false rest := by
  obtain ⟨blanks, text, after, rfl, blank, flat, breaks, stands⟩ := closed.exists_blanks
  refine .keywordAhead_absent blank flat (Keyword.length?_eq_none_of_isApart lettered ?_ breaks)
  rcases stands with rfl | ⟨other, member, rfl⟩
  · exact apart.1
  · exact apart.2 other member

theorem charAhead (closed : Closed keywords rest) (bound : Nat) :
    (Parser.charAhead ',').Takes bound [] false rest := by
  cases closed with
  | nothing =>
      have blank : blankLength ([] ++ []) = .ok 0 := by
        rw [List.append_nil, blankLength.eq_def]
      exact .charAhead_absent blank rfl (by simp)
  | closing rest => exact .charAhead_of_closing (by decide) rest
  | @clause keyword reserved member rest =>
      obtain ⟨first, others, shown, lead, -⟩ := exists_spelled reserved
      have blank : blankLength ([' '] ++ (keyword.spelled ++ ' ' :: rest)) = .ok 1 :=
        blankLength_space (blank_spelled reserved _)
      refine .charAhead_absent blank rfl ?_
      rw [shown]
      rintro ⟨⟩
      exact absurd lead (by decide)

end Closed

/-- What closes the text of an item: a comma, or what closes the clause. -/
inductive ItemEnd (keywords : List Keyword) : List Char → Prop where
  | comma (more : List Char) : ItemEnd keywords (',' :: more)
  | closed {rest : List Char} (closed : Closed keywords rest) : ItemEnd keywords rest

namespace ItemEnd

variable {keywords : List Keyword} {keyword : Keyword} {rest : List Char}

theorem follows (ends : ItemEnd keywords rest) : Follows rest := by
  cases ends with
  | comma more => exact .comma more
  | closed closed => exact closed.follows

theorem notPairing (ends : ItemEnd keywords rest) : NotPairing rest := by
  cases ends with
  | comma more => exact notPairing_solid (by decide) more
  | closed closed => exact closed.notPairing

theorem unnamed (ends : ItemEnd keywords rest) : Grammar.Unnamed rest := by
  cases ends with
  | comma more => exact .comma more
  | closed closed => exact closed.unnamed

theorem keywordAhead (ends : ItemEnd keywords rest) (lettered : keyword.isLettered = true)
    (apart : keyword.isApart [] = true ∧ ∀ other ∈ keywords, keyword.isApart other.spelled = true)
    (bound : Nat) : (Parser.keywordAhead keyword).Takes bound [] false rest := by
  cases ends with
  | comma more =>
      have blank : blankLength ([] ++ ',' :: more) = .ok 0 := blankLength_solid (by decide) more
      have breaks : Breaks (',' :: more) := breaks_cons (by decide) more
      exact .keywordAhead_absent blank rfl
        (Keyword.length?_eq_none_of_isApart lettered apart.1 breaks)
  | closed closed => exact closed.keywordAhead lettered apart bound

end ItemEnd

/-! Aliases, objects and keys as plain texts spell them, which are read again from their text. -/

/-- An alias after a blank, or nothing. -/
def aliasChars (aliasName : Option String) : List Char :=
  aliasName.elim [] fun name => ' ' :: name.toList

/-- An alias as it is read, or none, after what may be a single name. -/
structure IsAliasAfter (single : String → Prop) (aliasName : Option String) : Prop where
  isAlias : ∀ name ∈ aliasName, Grammar.IsAlias name
  /-- It does not make two words of the single name that open a clause. -/
  unpaired : ∀ first, single first → Keyword.pairs first.toList = true →
    ∀ name ∈ aliasName, Keyword.length? ⟨[Keyword.pairingWord], true⟩ name.toList = none

/-- An object as it is read. -/
inductive SourceObject.IsRead : SourceObject Query → Prop where
  | intro {path : Path} {aliasName : Option String} (isPath : IsPath path) (free : path.IsFree)
      (isAlias : IsAliasAfter (fun first => path = [first]) aliasName) :
      IsRead { path, aliasName }

/-- A column by which rows are grouped or sorted, as it is read. -/
def Field.IsKey (key : Field Query) : Prop :=
  ∃ path, IsPath path ∧ path.IsFree ∧ key = .ofKind (.column path)

/-- The keyword after a blank where it is chosen. -/
def wordChars (keyword : Keyword) (chosen : Bool) : List Char :=
  if chosen then ' ' :: keyword.spelled else []

theorem SourceObject.toList_render (object : SourceObject Query) :
    object.render.toList = object.path.render.toList ++ aliasChars object.aliasName := by
  rw [SourceObject.render, aliasChars]
  cases object.aliasName with
  | none => exact (List.append_nil _).symm
  | some name =>
      rw [String.toList_append, String.toList_append, List.append_assoc]
      rfl

theorem Query.toList_renderOrderKey (order : OrderKey Query) :
    (renderOrderKey order).toList = (renderField order.field).toList ++
      (wordChars .descending order.descending ++ wordChars .nullsLast order.nullsLast) := by
  have word (keyword : Keyword) (text : String) (spelled : text.toList = ' ' :: keyword.spelled)
      (chosen : Bool) : (if chosen then text else "").toList = wordChars keyword chosen := by
    cases chosen with
    | true => exact spelled
    | false => rfl
  rw [renderOrderKey, OrderKey.map, OrderKey.render, String.toList_append, String.toList_append,
    List.append_assoc, word .descending _ (by decide), word .nullsLast _ (by decide)]
  rfl

namespace IsAliasAfter

variable {single : String → Prop} {aliasName : Option String} {keywords : List Keyword}
  {rest : List Char}

theorem follows (isAlias : IsAliasAfter single aliasName) (ends : ItemEnd keywords rest) :
    Follows (aliasChars aliasName ++ rest) := by
  cases aliasName with
  | none => exact ends.follows
  | some name =>
      obtain ⟨first, others, shown, start⟩ := (isAlias.isAlias name rfl).isName.exists_cons
      have lead : isLead first = true := by rw [isLead, start, Bool.true_or]
      rw [aliasChars, Option.elim_some, shown]
      exact .word lead _

theorem notPairing (isAlias : IsAliasAfter single aliasName) (ends : ItemEnd keywords rest)
    {first : String} (alone : single first) (pairs : Keyword.pairs first.toList = true) :
    NotPairing (aliasChars aliasName ++ rest) := by
  cases aliasName with
  | none => exact ends.notPairing
  | some name =>
      have white : ∀ char ∈ [' '], isWhiteSpace char = true :=
        List.forall_mem_singleton.2 (by decide)
      have unpaired := isAlias.unpaired first alone pairs name rfl
      have shape : aliasChars (some name) ++ rest = [' '] ++ (name.toList ++ rest) := rfl
      rw [shape, NotPairing,
        (isAlias.isAlias name rfl).isName.length?_later_append white (List.cons_ne_nil _ _)]
      have absent : Keyword.length? ⟨[Keyword.pairingWord], true⟩ (name.toList ++ rest) = none := by
        rw [Keyword.length?_append (by decide) ends.follows.breaks]
        exact unpaired
      rw [absent, Option.map_none]

theorem takes (isAlias : IsAliasAfter single aliasName) (ends : ItemEnd keywords rest)
    (bound : Nat) : Grammar.aliasName.Takes bound (aliasChars aliasName) aliasName rest := by
  cases aliasName with
  | none => exact Grammar.aliasName_absent ends.unnamed
  | some name =>
      have isName := isAlias.isAlias name rfl
      exact Grammar.aliasName_takes isName.isName isName.free ends.follows fun _ => ends.notPairing

end IsAliasAfter

namespace Grammar

open ObjectQuery.Parser

variable {bound : Nat} {keywords : List Keyword} {rest lead : List Char}

section Takes

theorem object_takes {object : SourceObject Query} (isRead : object.IsRead)
    (ends : ItemEnd keywords rest) (leads : lead = [] ∨ lead = [' ']) :
    Grammar.object.Takes bound (lead ++ object.render.toList) object rest := by
  obtain ⟨isPath, free, isAlias⟩ := isRead
  rw [SourceObject.toList_render, ← List.append_assoc]
  refine (requiredName_takes isPath free (isAlias.follows ends) ?_ _ leads).bind ?_
  · intro first alone pairs
    exact isAlias.notPairing ends alone pairs
  · exact (isAlias.takes ends bound).last (.pure _ _)

theorem groupKey_takes {key : Field Query} (isKey : key.IsKey) (ends : ItemEnd keywords rest)
    (leads : lead = [] ∨ lead = [' ']) :
    groupKey.Takes bound (lead ++ (Query.renderField key).toList) key rest := by
  obtain ⟨path, isPath, free, rfl⟩ := isKey
  rw [Query.renderField_column]
  refine (requiredName_takes isPath free ends.follows ?_ _ leads).last (.pure _ _)
  exact fun _ _ _ => ends.notPairing

theorem eitherWord_takes {first second : Keyword} {chosen : Bool}
    (present : chosen = true → (keywordAhead first).Takes bound (' ' :: first.spelled) true rest)
    (absent : chosen = false → (keywordAhead first).Takes bound [] false rest ∧
      (keywordAhead second).Takes bound [] false rest) :
    (eitherWord first second).Takes bound (wordChars first chosen) chosen rest := by
  cases chosen with
  | true => exact (present rfl).last (.pure _ _)
  | false =>
      refine (absent rfl).1.step ?_
      exact (absent rfl).2.last (.pure _ _)

/-- The words that put empty values last are taken up where they stand. -/
theorem nullsLast_takes (ends : ItemEnd [.offset, .limit, .access] rest) (nullsLast : Bool) :
    (eitherWord .nullsLast .nullsFirst).Takes bound (wordChars .nullsLast nullsLast) nullsLast
      rest := by
  have found : Keyword.nullsLast.length? (Keyword.nullsLast.spelled ++ rest) = some 10 := by
    cases ends with
    | comma more => rfl
    | closed closed => cases closed <;> rfl
  have blank : blankLength ([' '] ++ (Keyword.nullsLast.spelled ++ rest)) = .ok 1 :=
    blankLength_space (blankLength_solid (by decide) _)
  refine eitherWord_takes (fun _ => .keywordAhead blank found) fun _ => ⟨?_, ?_⟩
  · exact ends.keywordAhead (by decide) (by decide) bound
  · exact ends.keywordAhead (by decide) (by decide) bound

/-- The word for a descending order is taken up before those for empty values. -/
theorem descending_takes (ends : ItemEnd [.offset, .limit, .access] rest)
    (descending nullsLast : Bool) :
    (eitherWord .descending .ascending).Takes bound (wordChars .descending descending) descending
      (wordChars .nullsLast nullsLast ++ rest) := by
  have past : isWordEnd (wordChars .nullsLast nullsLast ++ rest) = true := by
    cases nullsLast with
    | true => rfl
    | false => exact ends.follows.isWordEnd
  have found : Keyword.descending.length? (Keyword.descending.spelled ++
      (wordChars .nullsLast nullsLast ++ rest)) = some 4 :=
    Keyword.length?_append_of_some rfl past
  have blank (following : List Char) :
      blankLength ([' '] ++ (Keyword.descending.spelled ++ following)) = .ok 1 :=
    blankLength_space (blankLength_solid (by decide) _)
  refine eitherWord_takes (fun _ => .keywordAhead (blank _) found) fun _ => ?_
  cases nullsLast with
  | false =>
      exact ⟨ends.keywordAhead (by decide) (by decide) bound,
        ends.keywordAhead (by decide) (by decide) bound⟩
  | true =>
      have nulls : blankLength ([' '] ++ (Keyword.nullsLast.spelled ++ rest)) = .ok 1 :=
        blankLength_space (blankLength_solid (by decide) _)
      have shape : wordChars .nullsLast true ++ rest = [' '] ++ (Keyword.nullsLast.spelled ++ rest) :=
        rfl
      rw [shape]
      exact ⟨.keywordAhead_absent nulls rfl rfl, .keywordAhead_absent nulls rfl rfl⟩

theorem orderKey_takes {order : OrderKey Query} (isKey : order.field.IsKey)
    (ends : ItemEnd [.offset, .limit, .access] rest) (leads : lead = [] ∨ lead = [' ']) :
    orderKey.Takes bound (lead ++ (Query.renderOrderKey order).toList) order rest := by
  obtain ⟨field, descending, nullsLast⟩ := order
  obtain ⟨path, isPath, free, rfl⟩ := isKey
  have follows : Follows ((wordChars .descending descending ++ wordChars .nullsLast nullsLast) ++
      rest) := by
    cases descending <;> cases nullsLast
    · exact ends.follows
    all_goals exact .word (by decide) _
  have unpaired : NotPairing ((wordChars .descending descending ++ wordChars .nullsLast nullsLast) ++
      rest) := by
    cases descending <;> cases nullsLast
    · exact ends.notPairing
    all_goals exact notPairing_space (by decide) (by decide) _
  have shown : (Query.renderOrderKey { field := .ofKind (.column path), descending, nullsLast }).toList =
      path.render.toList ++ (wordChars .descending descending ++ wordChars .nullsLast nullsLast) := by
    rw [Query.toList_renderOrderKey]
    dsimp only
    rw [Query.renderField_column]
  rw [shown, ← List.append_assoc]
  refine (requiredName_takes isPath free follows (fun _ _ _ => unpaired) _ leads).bind ?_
  refine (descending_takes ends descending nullsLast).bind ?_
  exact (nullsLast_takes ends nullsLast).last (.pure _ _)

end Takes

section Reads

open Step

variable {cursor : Cursor}

theorem meets_aliasAfter {single : String → Prop} (plain : cursor.IsPlain)
    (alone : ∀ first, single first → isWordEnd cursor.ahead = true ∧
      (Keyword.pairs first.toList = true → NotPairing cursor.ahead)) :
    Meets aliasName cursor fun found after => IsAliasAfter single found ∧ after.IsPlain := by
  refine (meets_aliasName plain).mono fun found after => ?_
  rintro ⟨later, names⟩
  refine ⟨⟨fun name given => (names name given).1, fun first isSingle pairs name given => ?_⟩, later⟩
  obtain ⟨past, unpaired⟩ := alone first isSingle
  exact (names name given).2 past (unpaired pairs)

theorem object_reads : object.Reads SourceObject.IsRead := by
  refine .of_meets fun before plain => (meets_requiredName plain _).bind ?_
  rintro path next ⟨plain, isPath, free, alone⟩
  refine (meets_aliasAfter plain alone).bind ?_
  rintro aliasName after ⟨isAlias, later⟩
  exact .pure ⟨.intro isPath free isAlias, later⟩

theorem groupKey_reads : groupKey.Reads Field.IsKey := by
  refine .of_meets fun before plain => (meets_requiredName plain _).bind ?_
  rintro path next ⟨later, isPath, free, -⟩
  exact .pure ⟨⟨path, isPath, free, rfl⟩, later⟩

theorem eitherWord_reads {first second : Keyword} (firstLettered : first.isLettered = true)
    (secondLettered : second.isLettered = true) :
    (eitherWord first second).Reads fun _ => True := by
  refine (keywordAhead_offers firstLettered).reads.bind fun _ _ => .ite (fun _ => .pure trivial) ?_
  exact fun _ => (keywordAhead_offers secondLettered).reads.bind fun _ _ => .pure trivial

theorem orderKey_reads : orderKey.Reads fun order => order.field.IsKey := by
  refine .of_meets fun before plain => (meets_requiredName plain _).bind ?_
  rintro path next ⟨plain, isPath, free, -⟩
  refine ((eitherWord_reads (by decide) (by decide)).meets plain).bind fun _ next held => ?_
  refine ((eitherWord_reads (by decide) (by decide)).meets held.2).bind fun _ after held => ?_
  exact .pure ⟨⟨path, isPath, free, rfl⟩, held.2⟩

end Reads

end Grammar

end ObjectQuery
