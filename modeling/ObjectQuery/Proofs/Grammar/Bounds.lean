import ObjectQuery.Grammar.Clause
import ObjectQuery.Proofs.Grammar.Item
import ObjectQuery.Proofs.Grammar.Value

namespace ObjectQuery

/-!
The rows that a query takes and the uses it announces, as plain texts spell them,
which are read again from their text.
-/

/-- A number of rows as it is read. -/
inductive RowBound.IsRead : RowBound → Prop where
  | count {value : Int64} (natural : 0 ≤ value) : IsRead (.count value)
  | parameter {name : String} (isName : IsName name) : IsRead (.parameter name)

/-- The numbers of rows are such as they are read. -/
structure RowBounds.AreRead (bounds : RowBounds) : Prop where
  offset : ∀ bound ∈ bounds.offset, bound.IsRead
  limit : ∀ bound ∈ bounds.limit, bound.IsRead

/-- The uses that one text can announce. -/
inductive AccessClause.IsRead : AccessClause → Prop where
  | viewed (reference : Bool) : IsRead { view := true, reference }
  | referenced : IsRead { reference := true }
  | updated (updateTracking updateViewstat : Bool) :
      IsRead { update := true, updateTracking, updateViewstat }

/-- A second use after a comma where it is chosen. -/
def partnerChars (keyword : Keyword) (chosen : Bool) : List Char :=
  if chosen then [','] ++ ([' '] ++ keyword.spelled) else []

/-- The uses after that of an update. -/
def updateChars (tracking viewstat : Bool) : List Char :=
  if tracking then ' ' :: Keyword.tracking.spelled ++ partnerChars .viewstat viewstat
  else wordChars .viewstat viewstat

namespace AccessClause

/-- The words of the uses. -/
def uses : List Keyword :=
  [.view, .reference, .update, .tracking, .viewstat]

variable {keyword : Keyword} {rest : List Char}

theorem length?_spelled (use : keyword ∈ uses) (past : isWordEnd rest = true) :
    keyword.length? (keyword.spelled ++ rest) = some keyword.spelled.length := by
  simp only [uses, List.mem_cons, List.not_mem_nil, or_false] at use
  rcases use with rfl | rfl | rfl | rfl | rfl <;> exact Keyword.length?_append_of_some rfl past

theorem blank_spelled (use : keyword ∈ uses) (rest : List Char) :
    blankLength (keyword.spelled ++ rest) = .ok 0 := by
  simp only [uses, List.mem_cons, List.not_mem_nil, or_false] at use
  rcases use with rfl | rfl | rfl | rfl | rfl <;> exact blankLength_solid (by decide) _

theorem toList_render_viewed (reference : Bool) :
    (render { view := true, reference }).toList = "FOR".toList ++
      ([' '] ++ (Keyword.view.spelled ++ partnerChars .reference reference)) := by
  cases reference <;> rfl

theorem toList_render_referenced : (render { reference := true }).toList =
    "FOR".toList ++ ([' '] ++ Keyword.reference.spelled) :=
  rfl

theorem toList_render_updated (updateTracking updateViewstat : Bool) :
    (render { update := true, updateTracking, updateViewstat }).toList = "FOR".toList ++
      ([' '] ++ (Keyword.update.spelled ++ updateChars updateTracking updateViewstat)) := by
  cases updateTracking <;> cases updateViewstat <;> rfl

end AccessClause

namespace Grammar

open ObjectQuery.Parser

variable {bound : Nat} {rest : List Char}

section Takes

theorem rowBound_takes {rows : RowBound} (isRead : rows.IsRead) (follows : Follows rest)
    (clause : Clause) :
    (rowBound clause).Takes bound ([' '] ++ rows.render.toList) rows rest := by
  cases isRead with
  | @parameter name isName =>
      have shown : (RowBound.parameter name).render.toList = ':' :: name.toList := by
        rw [RowBound.render, String.toList_append]
        rfl
      have spelled : (lexeme parameter).Takes bound (':' :: name.toList) (some name) rest := by
        refine .lexeme ?_
        rw [List.cons_append, parameter_colon isName follows.isWordEnd, List.length_cons,
          Nat.add_comm]
      rw [shown]
      refine Takes.bind (.expectBlank (blankLength_space ?_) (List.cons_ne_nil _ _))
        (spelled.last (.pure _ _))
      exact blankLength_solid (by decide) _
  | @count value natural =>
      have begins := Numeral.begins_toString value.toInt
      have opens : Opens (toString value.toInt).toList := .number begins
      have unnamed : (lexeme parameter).Takes bound [] none ((toString value.toInt).toList ++ rest) := by
        refine .lexeme_absent ?_
        generalize (toString value.toInt).toList = text at begins
        cases begins with
        | @digit first digit others =>
            rw [List.cons_append, parameter]
            rintro rest ⟨⟩
            exact absurd digit (by decide)
        | minus => rfl
      have spelled : (lexeme numeral).Takes bound (toString value.toInt).toList
          (some (.int value)) rest :=
        .lexeme (numeral_append follows.stops (numeral_toString value))
      refine Takes.bind (.expectBlank (blankLength_space (opens.fronts.blank rest))
        (List.cons_ne_nil _ _)) (unnamed.step (.get_bind fun start _ => spelled.last ?_))
      simp only [natural, if_true]
      exact .pure _ _

/-- A parser that is tried only where something is given. -/
theorem andM_takes {parser : Parser Bool} {text : List Char}
    (takes : parser.Takes bound text true rest) :
    (pure true <&&> parser : Parser Bool).Takes bound text true rest :=
  (Takes.pure true _).step takes

theorem andM_absent {parser : Parser Bool} (given : Bool)
    (absent : parser.Takes bound [] false rest) :
    (pure given <&&> parser : Parser Bool).Takes bound [] false rest := by
  cases given with
  | true => exact (Takes.pure true _).step absent
  | false => exact (Takes.pure false _).step (.pure _ _)

theorem addRowBound_offset {limit : Option RowBound} {rows : RowBound} (isRead : rows.IsRead)
    (ends : Closed [.limit, .access] rest) :
    (addRowBound { limit }).Takes bound (RowBound.clause .offset (some rows))
      { offset := some rows, limit } rest := by
  have reserved : Keyword.offset ∈ Keyword.reserved := by simp [Keyword.reserved]
  refine (andM_takes (Closed.keywordAhead_spelled reserved bound _)).bind ?_
  exact (rowBound_takes isRead ends.follows _).last (.pure _ _)

theorem addRowBound_limit {offset : Option RowBound} {rows : RowBound} (isRead : rows.IsRead)
    (ends : Closed [.access] rest) :
    (addRowBound { offset }).Takes bound (RowBound.clause .limit (some rows))
      { offset, limit := some rows } rest := by
  have reserved : Keyword.limit ∈ Keyword.reserved := by simp [Keyword.reserved]
  have limited : Closed [.limit, .access] (RowBound.clause .limit (some rows) ++ rest) :=
    ends.of_rowBound .limit _
  refine (andM_absent _ (limited.keywordAhead (by decide) (by decide) bound)).step ?_
  refine (andM_takes (Closed.keywordAhead_spelled reserved bound _)).bind ?_
  exact (rowBound_takes isRead ends.follows _).last (.pure _ _)

theorem addRowBound_absent (bounds : RowBounds) (ends : Closed [.access] rest) :
    (addRowBound bounds).Takes bound [] bounds rest := by
  have none (keyword : Keyword) (isBound : keyword = .offset ∨ keyword = .limit) (given : Bool) :
      (pure given <&&> keywordAhead keyword : Parser Bool).Takes bound [] false rest := by
    refine andM_absent given (ends.keywordAhead ?_ ?_ bound)
    · rcases isBound with rfl | rfl <;> decide
    · rcases isBound with rfl | rfl <;> decide
  refine (none .offset (.inl rfl) _).step ?_
  exact (none .limit (.inr rfl) _).step (.pure _ _)

/-- The rows to leave out and the rows to take are taken up, where they are printed in this order. -/
theorem rowBounds_takes {bounds : RowBounds} (areRead : bounds.AreRead)
    (ends : Closed [.access] rest) :
    rowBounds.Takes bound (RowBound.clause .offset bounds.offset ++
      RowBound.clause .limit bounds.limit) bounds rest := by
  obtain ⟨offset, limit⟩ := bounds
  have stays (bounds : RowBounds) : (addRowBound bounds).Takes bound [] bounds rest :=
    addRowBound_absent bounds ends
  cases offset with
  | none =>
      cases limit with
      | none => exact (stays {}).step (.pure _ _)
      | some rows => exact (addRowBound_limit (areRead.limit rows rfl) ends).last (stays _)
  | some first =>
      have isRead := areRead.offset first rfl
      cases limit with
      | none =>
          refine Takes.bind (addRowBound_offset isRead ?_) (stays _)
          exact ends.mono (List.subset_cons_self _ _)
      | some rows =>
          refine Takes.bind (addRowBound_offset isRead ?_)
            (addRowBound_limit (areRead.limit rows rfl) ends)
          exact ends.of_rowBound .limit _

theorem partner_takes {keyword : Keyword} (use : keyword ∈ AccessClause.uses) (chosen : Bool)
    (ends : Closed [] rest) :
    (partner keyword).Takes bound (partnerChars keyword chosen) chosen rest := by
  refine .get_bind fun start _ => ?_
  cases chosen with
  | false => exact (ends.charAhead bound).step (.pure _ _)
  | true =>
      have comma : (charAhead ',').Takes bound [','] true
          (([' '] ++ keyword.spelled) ++ rest) :=
        .charAhead (blankLength_solid (by decide) _)
      have blank : skipBlank.Takes bound [' '] ⟨⟩ (keyword.spelled ++ rest) :=
        .skipBlank (blankLength_space (AccessClause.blank_spelled use rest))
      have word : (takeKeyword keyword).Takes bound keyword.spelled true rest :=
        .takeKeyword (AccessClause.length?_spelled use ends.follows.isWordEnd)
      exact comma.bind (blank.bind (word.last (.pure _ _)))

theorem isWordEnd_partnerChars (keyword : Keyword) (chosen : Bool) (ends : Closed [] rest) :
    isWordEnd (partnerChars keyword chosen ++ rest) = true := by
  cases chosen with
  | true => rfl
  | false => exact ends.follows.isWordEnd

theorem updateUses_takes (updateTracking updateViewstat : Bool) (ends : Closed [] rest) :
    updateUses.Takes bound (updateChars updateTracking updateViewstat)
      { update := true, updateTracking, updateViewstat } rest := by
  have tracking : Keyword.tracking ∈ AccessClause.uses := by simp [AccessClause.uses]
  have viewstat : Keyword.viewstat ∈ AccessClause.uses := by simp [AccessClause.uses]
  have wordAhead {keyword : Keyword} (use : keyword ∈ AccessClause.uses) {following : List Char}
      (past : isWordEnd following = true) :
      (keywordAhead keyword).Takes bound (' ' :: keyword.spelled) true following := by
    have blank : blankLength ([' '] ++ (keyword.spelled ++ following)) = .ok 1 :=
      blankLength_space (AccessClause.blank_spelled use _)
    exact .keywordAhead blank (AccessClause.length?_spelled use past)
  cases updateTracking with
  | true =>
      refine (wordAhead tracking (isWordEnd_partnerChars _ updateViewstat ends)).bind ?_
      exact (partner_takes viewstat updateViewstat ends).last (.pure _ _)
  | false =>
      cases updateViewstat with
      | true =>
          have blank : blankLength ([' '] ++ (Keyword.viewstat.spelled ++ rest)) = .ok 1 :=
            blankLength_space (AccessClause.blank_spelled viewstat _)
          have absent : (keywordAhead .tracking).Takes bound [] false
              ([' '] ++ (Keyword.viewstat.spelled ++ rest)) :=
            .keywordAhead_absent blank rfl rfl
          have untracked : (keywordAhead .tracking).Takes bound [] false
              (updateChars false true ++ rest) := absent
          refine untracked.step ((wordAhead viewstat ends.follows.isWordEnd).last ?_)
          exact (partner_takes tracking false ends).last (.pure _ _)
      | false =>
          refine (ends.keywordAhead (by decide) (by decide) bound).step ?_
          exact (ends.keywordAhead (by decide) (by decide) bound).step (.pure _ _)

/-- The uses are taken up after the keyword of their clause. -/
theorem access_takes {clause : AccessClause} (isRead : clause.IsRead) (ends : Closed [] rest) :
    ∃ content, clause.render.toList = "FOR".toList ++ ([' '] ++ content) ∧
      access.Takes bound ([' '] ++ content) clause rest := by
  have blank (keyword : Keyword) (use : keyword ∈ AccessClause.uses) (following : List Char) :
      (expectBlank (.badClause .access)).Takes bound [' '] ⟨⟩ (keyword.spelled ++ following) :=
    .expectBlank (blankLength_space (AccessClause.blank_spelled use _)) (List.cons_ne_nil _ _)
  have word (keyword : Keyword) (use : keyword ∈ AccessClause.uses) {following : List Char}
      (past : isWordEnd following = true) :
      (takeKeyword keyword).Takes bound keyword.spelled true following :=
    .takeKeyword (AccessClause.length?_spelled use past)
  cases isRead with
  | viewed reference =>
      have use : Keyword.view ∈ AccessClause.uses := by simp [AccessClause.uses]
      have past := isWordEnd_partnerChars .reference reference ends
      have referenced : (partner .reference).Takes bound (partnerChars .reference reference)
          reference rest := partner_takes (by simp [AccessClause.uses]) reference ends
      refine ⟨_, AccessClause.toList_render_viewed reference, .get_bind fun start _ => ?_⟩
      refine Takes.bind (by simpa using blank .view use _) ?_
      exact (word .view use past).bind (referenced.last (.pure _ _))
  | referenced =>
      have use : Keyword.reference ∈ AccessClause.uses := by simp [AccessClause.uses]
      have unviewed : (takeKeyword .view).Takes bound [] false (Keyword.reference.spelled ++ rest) :=
        .takeKeyword_absent rfl
      have alone : (partner .view).Takes bound (partnerChars .view false) false rest :=
        partner_takes (by simp [AccessClause.uses]) false ends
      refine ⟨_, AccessClause.toList_render_referenced, .get_bind fun start _ => ?_⟩
      refine Takes.bind (blank .reference use rest) (unviewed.step ?_)
      exact (word .reference use ends.follows.isWordEnd).last (alone.last (.pure _ _))
  | updated updateTracking updateViewstat =>
      have use : Keyword.update ∈ AccessClause.uses := by simp [AccessClause.uses]
      have past : isWordEnd (updateChars updateTracking updateViewstat ++ rest) = true := by
        cases updateTracking with
        | true => rfl
        | false =>
            cases updateViewstat with
            | true => rfl
            | false => exact ends.follows.isWordEnd
      have other {keyword : Keyword} (earlier : keyword = .view ∨ keyword = .reference) :
          (takeKeyword keyword).Takes bound [] false
            (Keyword.update.spelled ++ updateChars updateTracking updateViewstat ++ rest) := by
        rcases earlier with rfl | rfl <;> exact .takeKeyword_absent rfl
      refine ⟨_, AccessClause.toList_render_updated _ _, .get_bind fun start _ => ?_⟩
      refine Takes.bind (by simpa using blank .update use _) ?_
      refine (other (.inl rfl)).step ((other (.inr rfl)).step ?_)
      exact (word .update use past).bind (updateUses_takes _ _ ends)

end Takes

section Reads

open Step

theorem rowBound_reads (clause : Clause) : (rowBound clause).Reads RowBound.IsRead := by
  have parameters : (lexeme parameter).Reads fun found => ∀ name ∈ found, IsName name := by
    refine lexeme_reads (by simp) fun chars name length found plain => ?_
    obtain ⟨isName, unquoted⟩ := exists_of_parameter found
    exact ⟨by simpa using isName, Plain.isPlain_drop plain unquoted⟩
  have numerals : (lexeme numeral).Reads fun _ => True :=
    lexeme_reads trivial fun chars number length found plain =>
      ⟨trivial, Plain.isPlain_drop plain (quote_not_mem_of_numeral found)⟩
  refine (expectBlank_reads _).bind fun _ _ => parameters.bind fun found names => ?_
  cases found with
  | some name => exact .pure (.parameter (names name rfl))
  | none =>
      refine .bind .get fun cursor _ => numerals.bind fun number _ => ?_
      split
      · exact .ite (fun natural => .pure (.count natural)) fun _ => .failFrom
      · exact .failFrom

theorem addRowBound_reads {bounds : RowBounds} (areRead : bounds.AreRead) :
    (addRowBound bounds).Reads RowBounds.AreRead := by
  have offered {keyword : Keyword} (lettered : keyword.isLettered = true) (given : Bool) :
      (pure given <&&> keywordAhead keyword : Parser Bool).Reads fun _ => True := by
    cases given with
    | true => exact (keywordAhead_offers lettered).reads
    | false => exact .pure trivial
  refine (offered (by decide) _).bind fun _ _ => .ite (fun _ => ?_) fun _ => ?_
  · refine (rowBound_reads _).bind fun rows isRead => .pure ⟨?_, areRead.limit⟩
    rintro _ ⟨⟩
    exact isRead
  · refine (offered (by decide) _).bind fun _ _ => .ite (fun _ => ?_) fun _ => .pure areRead
    refine (rowBound_reads _).bind fun rows isRead => .pure ⟨areRead.offset, ?_⟩
    rintro _ ⟨⟩
    exact isRead

theorem rowBounds_reads : rowBounds.Reads RowBounds.AreRead :=
  (addRowBound_reads ⟨by simp, by simp⟩).bind fun _ areRead =>
    .ite (fun _ => .pure areRead) fun _ => addRowBound_reads areRead

theorem partner_reads {keyword : Keyword} (lettered : keyword.isLettered = true) :
    (partner keyword).Reads fun _ => True := by
  refine .bind .get fun cursor _ => (charAhead_offers (by decide)).reads.bind fun _ _ =>
    .ite (fun _ => ?_) fun _ => .pure trivial
  refine skipBlank_reads.bind fun _ _ => (takeKeyword_offers lettered).reads.bind fun _ _ => ?_
  exact .ite (fun _ => .pure trivial) fun _ => .failFrom_bind

theorem updateUses_reads : updateUses.Reads AccessClause.IsRead := by
  refine (keywordAhead_offers (by decide)).reads.bind fun _ _ => .ite (fun _ => ?_) fun _ => ?_
  · exact (partner_reads (by decide)).bind fun viewstat _ => .pure (.updated true viewstat)
  · refine (keywordAhead_offers (by decide)).reads.bind fun _ _ => .ite (fun _ => ?_) fun _ => ?_
    · exact (partner_reads (by decide)).bind fun tracking _ => .pure (.updated tracking true)
    · exact .pure (.updated false false)

theorem access_reads : access.Reads AccessClause.IsRead := by
  refine .bind .get fun cursor _ => (expectBlank_reads _).bind fun _ _ => ?_
  refine (takeKeyword_offers (by decide)).reads.bind fun _ _ => .ite (fun _ => ?_) fun _ => ?_
  · exact (partner_reads (by decide)).bind fun reference _ => .pure (.viewed reference)
  · refine (takeKeyword_offers (by decide)).reads.bind fun _ _ => .ite (fun _ => ?_) fun _ => ?_
    · refine (partner_reads (by decide)).bind fun view _ => .pure ?_
      cases view with
      | true => exact .viewed true
      | false => exact .referenced
    · refine (takeKeyword_offers (by decide)).reads.bind fun _ _ => .ite (fun _ => ?_) fun _ => ?_
      · exact updateUses_reads
      · exact .failFrom

end Reads

end Grammar

end ObjectQuery
