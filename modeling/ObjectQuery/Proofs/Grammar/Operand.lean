import ObjectQuery.Grammar.Condition
import ObjectQuery.Proofs.Grammar.Call

namespace ObjectQuery

/-!
The sides of comparisons as plain texts spell them, which are read again from
their text.
-/

/-- A column or a call, which begins with a name that has the property. -/
inductive Field.IsNamed (holds : String → Prop) : Field Query → Prop where
  | column {first : String} {others : List String} (isPath : IsPath (first :: others))
      (head : holds first) : IsNamed holds (.ofKind (.column (first :: others)))
  | call {name : String} {field : Field Query} (isCall : field.IsCall name) (head : holds name) :
      IsNamed holds field

/-- The left side of a comparison as it is read. Its name does not begin a clause or a negation. -/
structure Field.IsLeft (clause : ConditionClause) (field : Field Query) : Prop where
  isNamed : field.IsNamed fun name =>
    isReserved name.toList = false ∧ Keyword.not.length? name.toList = none
  calls : clause = .having → field.kind.isCall = true

/-- The right side of a comparison as it is read. -/
inductive Field.IsRight (clause : ConditionClause) : Field Query → Prop where
  | item {item : ListItem} (isRead : item.IsRead) : IsRight clause (.ofListItem item)
  | subquery (query : Query) : IsRight clause (.ofKind (.subquery query))
  | list {items : List ListItem} (some : items ≠ []) (each : ∀ item ∈ items, item.IsRead) :
      IsRight clause (.ofKind (.literal (.list items)))
  | named {field : Field Query} (isNamed : field.IsNamed fun name => isFreeWord name.toList = true)
      (calls : clause = .having → field.kind.isCall = true) : IsRight clause field

namespace Field.IsNamed

variable {holds : String → Prop} {field : Field Query} {rest : List Char}

/-- The text of the field is its name, or goes on after the name with a mark. -/
theorem exists_render (isNamed : field.IsNamed holds) :
    ∃ name tail, holds name ∧ IsName name ∧
      (Query.renderField field).toList = name.toList ++ tail ∧
        (tail = [] ∧ field = .ofKind (.column [name]) ∨
          ∃ mark more, tail = mark :: more ∧ (mark = '.' ∨ mark = '(')) := by
  cases isNamed with
  | @column first others isPath head =>
      have isName := isPath.names first List.mem_cons_self
      obtain ⟨tail, shown, ⟨rfl, rfl⟩ | ⟨more, dotted⟩⟩ := Path.render_cons first others
      · exact ⟨first, [], head, isName, by rw [Query.renderField_column, shown], .inl ⟨rfl, rfl⟩⟩
      · exact ⟨first, tail, head, isName, by rw [Query.renderField_column, shown],
          .inr ⟨'.', more, dotted, .inl rfl⟩⟩
  | @call name _ isCall head =>
      obtain ⟨isName, each⟩ := isCall
      exact ⟨name, _, head, isName, Query.renderField_call _ _, .inr ⟨'(', _, rfl, .inr rfl⟩⟩

/-- The name that the text begins with ends there. -/
theorem exists_name (isNamed : field.IsNamed holds) (breaks : Breaks rest) :
    ∃ name tail, holds name ∧ IsName name ∧
      (Query.renderField field).toList = name.toList ++ tail ∧ Breaks (tail ++ rest) := by
  obtain ⟨name, tail, head, isName, shown, ⟨rfl, -⟩ | ⟨mark, more, rfl, isMark⟩⟩ :=
    isNamed.exists_render
  · exact ⟨name, [], head, isName, shown, breaks⟩
  · exact ⟨name, _, head, isName, shown, breaks_cons (by rcases isMark with rfl | rfl <;> decide) _⟩

theorem kind_query? (isNamed : field.IsNamed holds) : field.kind.query? = none := by
  cases isNamed with
  | column => rfl
  | call isCall =>
      obtain ⟨isName, each⟩ := isCall
      rfl

theorem fronts (isNamed : field.IsNamed holds) : Fronts (Query.renderField field).toList := by
  obtain ⟨name, tail, -, isName, shown, -⟩ := isNamed.exists_render
  rw [shown]
  exact .name isName tail

/-- The field opens no clause where its name does not, alone or with what follows the field. -/
theorem isReserved (isNamed : field.IsNamed holds)
    (free : ∀ name, holds name → ObjectQuery.isReserved name.toList = false) (breaks : Breaks rest)
    (apart : ∀ name, field = .ofKind (.column [name]) → Keyword.pairs name.toList = true →
      NotPairing rest) : ObjectQuery.isReserved ((Query.renderField field).toList ++ rest) = false := by
  obtain ⟨name, tail, head, isName, shown, ⟨rfl, single⟩ | ⟨mark, more, rfl, isMark⟩⟩ :=
    isNamed.exists_render
  · rw [shown, List.append_nil]
    exact isName.isReserved_append breaks (free name head) (apart name single)
  · rw [shown, List.append_assoc]
    refine isName.isReserved_append (breaks_cons ?_ _) (free name head) fun _ =>
      notPairing_solid ?_ _
    · rcases isMark with rfl | rfl <;> decide
    · rcases isMark with rfl | rfl <;> decide

end Field.IsNamed

namespace Field

variable {clause : ConditionClause} {field : Field Query} {rest : List Char}

theorem IsLeft.isReserved (isLeft : field.IsLeft clause) (breaks : Breaks rest)
    (unpaired : NotPairing rest) :
    ObjectQuery.isReserved ((Query.renderField field).toList ++ rest) = false :=
  isLeft.isNamed.isReserved (fun _ head => head.1) breaks fun _ _ _ => unpaired

/-- No negation stands before the left side of a comparison. -/
theorem IsLeft.bare (isLeft : field.IsLeft clause) (breaks : Breaks rest) :
    Keyword.not.length? ((Query.renderField field).toList ++ rest) = none := by
  obtain ⟨name, tail, ⟨-, bare⟩, isName, shown, breaks⟩ := isLeft.isNamed.exists_name breaks
  have same : Keyword.not.length? (name.toList ++ (tail ++ rest)) = Keyword.not.length? name.toList :=
    Keyword.length?_append (by decide) breaks
  rw [shown, List.append_assoc, same, bare]

/-- No blank stands before the right side of a comparison. -/
theorem IsRight.blank (isRight : field.IsRight clause) (printable : field.IsPrintable)
    (rest : List Char) : blankLength ((Query.renderField field).toList ++ rest) = .ok 0 := by
  cases isRight with
  | item isRead =>
      have printable := isPrintable_listItem.1 printable
      rw [Query.renderField_listItem]
      exact (Opens.of_isRead isRead printable).fronts.blank rest
  | subquery query =>
      rw [Query.renderField_subquery]
      exact blankLength_solid (by decide) _
  | list =>
      rw [Query.renderField_list]
      exact blankLength_solid (by decide) _
  | named isNamed => exact isNamed.fronts.blank rest

end Field

/-- The parser takes the query up in its brackets, whatever follows. -/
def Parser.TakesQuery (subquery : Parser Query) (bound : Nat) (query : Query) : Prop :=
  ∀ rest, subquery.Takes bound ('(' :: (query.render.toList ++ [')'])) query rest

namespace Grammar

open ObjectQuery.Parser

variable {bound : Nat} {rest : List Char} {clause : ConditionClause} {field : Field Query}

section Takes

theorem isSubqueryAhead_absent (other : rest.head? ≠ some '(') :
    isSubqueryAhead.Takes bound [] false rest := by
  refine .get_bind fun cursor ahead => ?_
  rw [ahead, List.nil_append]
  split
  · exact absurd rfl other
  · exact .pure _ _

theorem isSubqueryAhead_bracket {answer : Bool} (blank : blankLength rest = .ok 0)
    (selects : (Keyword.select.length? rest).isSome = answer) :
    isSubqueryAhead.Takes bound [] answer ('(' :: rest) := by
  refine .get_bind fun cursor ahead => ?_
  rw [ahead, List.nil_append]
  simp only [blank, List.drop_zero, selects]
  exact .pure _ _

theorem valueList_takes {items : List ListItem} (some : items ≠ [])
    (each : ∀ item ∈ items, item.IsRead) (printable : ∀ item ∈ items, item.IsPrintable)
    (rest : List Char) : valueList.Takes bound
      ('(' :: (listText ListItem.render items ++ [')']))
      (.list items) rest := by
  refine .get_bind fun cursor _ => .opens (.expectChar '(' _ _) rfl ?_
  have noBlank : skipBlank.Takes (bound - 1) [] ⟨⟩ ([')'] ++ rest) :=
    .skipBlank (blankLength_solid (by decide) rest)
  have listed : (separated (charAhead ',') (requiredListItem cursor.position)).Takes (bound - 1)
      ([] ++ listText ListItem.render items) items
      ([')'] ++ rest) := by
    refine .commaSeparated ?_ (Follows.closing rest) Follows.comma
      (.charAhead_of_closing (by decide) rest) some (.inl rfl)
    intro item member lead leads following follows
    have opens := Opens.of_isRead (each item member) (printable item member)
    have spelled : (lexeme listItem).Takes (bound - 1) item.render.toList (.some item) following :=
      .lexeme (listItem_render (each item member) (printable item member) follows.stops)
    exact (skipBlank_takes leads (opens.fronts.blank following)).bind (spelled.last (.pure _ _))
  exact Closes.bind listed (.step noBlank (.last (.takeChar ')' rest) (.leave (.pure _ _))))

theorem leftOperand_takes (isLeft : field.IsLeft clause) (printable : field.IsPrintable)
    (follows : Follows rest) :
    (leftOperand clause).Takes bound (Query.renderField field).toList field rest := by
  obtain ⟨isNamed, calls⟩ := isLeft
  cases isNamed with
  | @column first others isPath head =>
      cases clause with
      | having => exact absurd (calls rfl) (by simp [Field.ofKind, FieldKind.isCall])
      | filter =>
          rw [Query.renderField_column]
          refine (call_absent (.of_isPath isPath follows)).step ?_
          exact (name_takes isPath follows).last (.pure _ _)
  | call isCall head => exact (call_takes isCall printable rest).last (.pure _ _)

theorem rightNameOrList_column {path : Path} (isPath : IsPath path) (follows : Follows rest) :
    (rightNameOrList .filter).Takes bound path.render.toList (.ofKind (.column path)) rest := by
  rw [rightNameOrList, if_pos rfl]
  exact (name_takes isPath follows).last (.pure _ _)

/-- No name stands where a bracket is. -/
theorem rightNameOrList_list {items : List ListItem} (some : items ≠ [])
    (each : ∀ item ∈ items, item.IsRead) (printable : ∀ item ∈ items, item.IsPrintable)
    (clause : ConditionClause) (rest : List Char) : (rightNameOrList clause).Takes bound
      ('(' :: (listText ListItem.render items ++ [')']))
      (.ofKind (.literal (.list items))) rest := by
  have bracket (following : List Char) :
      (isAhead '(').Takes bound [] true ('(' :: following) := .isAhead '(' _
  have unnamed (following : List Char) : name.Takes bound [] none ('(' :: following) := by
    have absent : (lexeme segment).Takes bound [] none ([] ++ '(' :: following) :=
      .lexeme_absent rfl
    exact .get_bind fun cursor _ => absent.step (.pure _ _)
  unfold rightNameOrList
  split
  · refine (unnamed _).step ((bracket _).step ?_)
    exact (valueList_takes some each printable rest).last (.pure _ _)
  · refine (Takes.pure none _).step ((bracket _).step ?_)
    exact (valueList_takes some each printable rest).last (.pure _ _)

/-- The right side of a comparison is taken up, where its queries are. -/
theorem rightOperand_takes {subquery : Parser Query} (isRight : field.IsRight clause)
    (printable : field.IsPrintable) (nested : field.Nests (subquery.TakesQuery bound))
    (follows : Follows rest) :
    (rightOperand subquery clause).Takes bound (Query.renderField field).toList field rest := by
  have noItem (following : List Char) : (lexeme listItem).Takes bound [] none ('(' :: following) :=
    .lexeme_absent (listItem_bracket following)
  cases isRight with
  | @item item isRead =>
      have printable := Field.isPrintable_listItem.1 printable
      rw [Query.renderField_listItem]
      exact (Takes.lexeme (listItem_render isRead printable follows.stops)).last (.pure _ _)
  | subquery query =>
      rw [Query.renderField_subquery]
      obtain ⟨more, shown⟩ := query.exists_render_eq
      have ahead : isSubqueryAhead.Takes bound [] true
          ('(' :: (query.render.toList ++ [')']) ++ rest) := by
        rw [shown]
        exact isSubqueryAhead_bracket (blankLength_solid (by decide) _) rfl
      refine (noItem _).step (ahead.step ?_)
      exact (nested query rfl rest).last (.pure _ _)
  | @list items some each =>
      have printable := Field.isPrintable_list.1 printable
      obtain ⟨first, others, rfl⟩ := List.exists_cons_of_ne_nil some
      have opens := Opens.of_isRead (each first List.mem_cons_self) (printable first List.mem_cons_self)
      rw [Query.renderField_list]
      obtain ⟨tail, shown, follow⟩ :=
        exists_listText_append ListItem.render first others ([')'] ++ rest)
      have breaks : Breaks tail := by
        rcases follow with rfl | ⟨more, rfl⟩ <;> exact breaks_cons (by decide) _
      have ahead : isSubqueryAhead.Takes bound [] false
          ('(' :: (listText ListItem.render (first :: others) ++ [')']) ++ rest) := by
        rw [List.cons_append, List.append_assoc, shown]
        exact isSubqueryAhead_bracket (opens.fronts.blank tail) (by rw [opens.unselected breaks]; rfl)
      refine (noItem _).step (ahead.step ((call_absent (.of_head (by decide) _)).step ?_))
      exact rightNameOrList_list some each printable clause rest
  | named isNamed calls =>
      obtain ⟨name, tail, free, isName, shown, breaks⟩ := isNamed.exists_name follows.breaks
      have noValue : (lexeme listItem).Takes bound [] none ((Query.renderField field).toList ++ rest) := by
        rw [shown, List.append_assoc]
        exact .lexeme_absent (listItem_of_isFreeWord isName breaks free)
      have noQuery : isSubqueryAhead.Takes bound [] false ((Query.renderField field).toList ++ rest) :=
        isSubqueryAhead_absent (isNamed.fronts.head?_ne rest (by decide) (by decide))
      refine noValue.step (noQuery.step ?_)
      cases isNamed with
      | @column first others isPath head =>
          cases clause with
          | having => exact absurd (calls rfl) (by simp [Field.ofKind, FieldKind.isCall])
          | filter =>
              rw [Query.renderField_column]
              exact (call_absent (.of_isPath isPath follows)).step (rightNameOrList_column isPath follows)
      | call isCall head => exact (call_takes isCall printable rest).last (.pure _ _)

end Takes

section Reads

open Step

variable {cursor : Cursor} {property : Query → Prop}

/-- The property holds of the name that stands at the head of the characters. -/
def HeadHolds (holds : String → Prop) (chars : List Char) : Prop :=
  ∀ name rest, IsName name → chars = name.toList ++ rest → isWordEnd rest = true → holds name

theorem HeadHolds.column {holds : String → Prop} {path : Path} {chars : List Char}
    (head : HeadHolds holds chars) (spells : Spells path chars rest) :
    Field.IsNamed holds (.ofKind (.column path)) := by
  obtain ⟨first, others, after, rfl, shape, ends, -⟩ := spells.head
  exact .column spells.isPath
    (head first after (spells.isPath.names _ List.mem_cons_self) shape ends)

/-- A call as it is read is named as its text begins. -/
theorem meets_namedCall {holds : String → Prop} (head : HeadHolds holds cursor.ahead)
    (plain : cursor.IsPlain) :
    Meets call cursor fun found after => after.IsPlain ∧ (found = none → after = cursor) ∧
      ∀ field ∈ found, field.IsNamed holds ∧ field.kind.isCall = true := by
  refine (meets_call plain).mono fun found after => ?_
  rintro ⟨plain, stays, calls⟩
  refine ⟨plain, stays, fun field given => ?_⟩
  obtain ⟨name, rest, ⟨isName, each⟩, shape, ends⟩ := calls field given
  exact ⟨.call (.intro isName each) (head name rest isName shape ends), rfl⟩

theorem headHolds_free {chars : List Char} (free : isReserved chars = false) :
    HeadHolds (fun name => isReserved name.toList = false) chars := by
  rintro name rest isName rfl ends
  exact (isName.of_isReserved_append ends free).1

theorem meets_leftOperand (free : isReserved cursor.ahead = false)
    (bare : Keyword.not.length? cursor.ahead = none) (plain : cursor.IsPlain) :
    Meets (leftOperand clause) cursor fun field after => field.IsLeft clause ∧ after.IsPlain := by
  have head : HeadHolds (fun name => isReserved name.toList = false ∧
      Keyword.not.length? name.toList = none) cursor.ahead := by
    intro name rest isName shape ends
    refine ⟨headHolds_free free name rest isName shape ends, ?_⟩
    rw [shape] at bare
    exact Keyword.length?_eq_none_of_append bare ends
  refine (meets_namedCall head plain).bind ?_
  rintro found next ⟨plain, stays, calls⟩
  cases found with
  | some field =>
      obtain ⟨isNamed, isCall⟩ := calls field rfl
      exact .pure ⟨⟨isNamed, fun _ => isCall⟩, plain⟩
  | none =>
      obtain rfl := stays rfl
      cases clause with
      | having => exact meets_fail
      | filter =>
          refine (meets_name plain).bind ?_
          rintro path after ⟨plain, -, spells⟩
          cases path with
          | none => exact meets_fail
          | some path => exact .pure ⟨⟨head.column (spells path rfl), by simp⟩, plain⟩

theorem meets_isSubqueryAhead :
    Meets isSubqueryAhead cursor fun _ after => after = cursor := by
  refine .get_bind ?_
  split
  · split
    · exact .pure rfl
    · exact .throw trivial
  · exact .pure rfl

theorem valueList_reads : valueList.Reads fun value =>
    ∃ items, value = .list items ∧ items ≠ [] ∧ ∀ item ∈ items, item.IsRead := by
  have opening (fault : SyntaxFault) : (expectChar '(' fault).Reads fun _ => True :=
    (takeChar_offers (by decide)).reads.bind fun _ _ => .ite (fun _ => .pure trivial) fun _ => .fail
  have item (start : Nat) : (requiredListItem start).Reads ListItem.IsRead := by
    refine skipBlank_reads.bind fun _ _ => .of_meets fun before plain =>
      (meets_listItem plain).bind ?_
    rintro found after ⟨plain, isRead, -⟩
    cases found with
    | none => exact meets_failFrom
    | some item => exact .pure ⟨isRead item rfl, plain⟩
  have comma := (charAhead_offers (show '\'' ≠ ',' by decide)).reads
  refine .bind .get fun cursor _ => (opening _).bind fun _ _ => enter_reads.bind fun _ _ => ?_
  refine (Yields.separatedBy comma (item _)).bind fun items read => ?_
  refine skipBlank_reads.bind fun _ _ => (takeChar_offers (by decide)).reads.bind fun closed _ => ?_
  refine .ite (fun _ => leave_reads.bind fun _ _ => ?_) fun _ => .failFrom_bind
  exact .pure ⟨items, rfl, read⟩

theorem meets_rightNameOrList (head : HeadHolds (fun name => isFreeWord name.toList = true) cursor.ahead)
    (plain : cursor.IsPlain) : Meets (rightNameOrList clause) cursor fun field after =>
      (field.IsRight clause ∧ field.Nests property) ∧ after.IsPlain := by
  have listed : Parser.Reads (do
      if ← isAhead '(' then
        return .ofKind (.literal (← valueList))
      else
        fail (.badComparison clause.clause .right)) fun field : Field Query =>
      field.IsRight clause ∧ field.Nests property := by
    refine (isAhead_reads _).bind fun bracket _ => .ite (fun _ => ?_) fun _ => .fail
    refine valueList_reads.bind fun value read => .pure ?_
    obtain ⟨items, rfl, some, each⟩ := read
    exact ⟨.list some each, Field.nests_of_none rfl⟩
  have unnamed : Meets (pure none : Parser (Option Path)) cursor fun path after =>
      path = none ∧ after.IsPlain := .pure ⟨rfl, plain⟩
  unfold rightNameOrList
  refine .ite (fun filters => (meets_name plain).bind ?_) fun _ => unnamed.bind ?_
  · rintro path after ⟨plain, -, spells⟩
    cases path with
    | none => exact (listed.meets plain).mono fun _ _ => id
    | some path =>
        have isNamed := head.column (spells path rfl)
        exact .pure ⟨⟨.named isNamed (by simp [filters]), Field.nests_of_none isNamed.kind_query?⟩, plain⟩
  · rintro _ after ⟨rfl, plain⟩
    exact listed.meets plain

theorem meets_rightOperand {subquery : Parser Query} (inner : subquery.Reads property)
    (plain : cursor.IsPlain) : Meets (rightOperand subquery clause) cursor fun field after =>
      (field.IsRight clause ∧ field.Nests property) ∧ after.IsPlain := by
  refine (meets_listItem plain).bind ?_
  rintro found next ⟨plain, isRead, stays⟩
  cases found with
  | some item =>
      refine .pure ⟨⟨.item (isRead item rfl), Field.nests_of_none ?_⟩, plain⟩
      cases item <;> rfl
  | none =>
      obtain ⟨rfl, absent⟩ := stays rfl
      have head : HeadHolds (fun name => isFreeWord name.toList = true) next.ahead := by
        intro name rest isName shape ends
        rw [shape] at absent
        exact isFreeWord_of_listItem isName ends absent
      refine meets_isSubqueryAhead.bind ?_
      rintro nested _ rfl
      refine .ite (fun _ => ?_) fun _ => ?_
      · refine (inner.meets plain).bind ?_
        rintro query after ⟨holds, plain⟩
        refine .pure ⟨⟨.subquery query, ?_⟩, plain⟩
        rintro _ ⟨⟩
        exact holds
      · refine (meets_namedCall head plain).bind ?_
        rintro found after ⟨plain, stays, calls⟩
        cases found with
        | some field =>
            obtain ⟨isNamed, isCall⟩ := calls field rfl
            exact .pure ⟨⟨.named isNamed fun _ => isCall, Field.nests_of_none isNamed.kind_query?⟩, plain⟩
        | none =>
            obtain rfl := stays rfl
            exact meets_rightNameOrList head plain

end Reads

end Grammar

end ObjectQuery
