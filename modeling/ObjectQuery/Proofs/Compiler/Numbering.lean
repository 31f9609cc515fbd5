import ObjectQuery.Proofs.Compiler.Column
import ObjectQuery.Proofs.Plan.Mark

namespace ObjectQuery

/-!
The numbers of columns in a compiled query. Within a query and the lists of
related rows in it, columns share a number if they share their keys, and no
other field shares its number with anything in the whole query.
-/

open Ledger (Marked Draws Consistent)

namespace Statement

variable {site : Site} {statement : Statement Query}

theorem OwnCourse.unnumbered {before : Session} (course : OwnCourse site statement before)
    (read : statement.Parsed) : course.resolved.Unnumbered := by
  obtain ⟨filtered, grouped⟩ := read.registered before.nextQueryId site.parent
  have fresh : (statement.registered before.nextQueryId site.parent).Unnumbered := read.fresh
  exact (resolve_holds Field.stays_unnumbered site.place course.primary filtered grouped fresh
    _).of_ok course.resolves

/-- What a statement draws from the numbers of columns, and what is borrowed for it. -/
structure DrawsOwn (site : Site) (before after : Session) (own : Statement Query)
    (around : Option (Statement Query)) : Prop where
  marked : Marked before.columns after.columns own.marks
  complete : Mark.Complete own.marks
  borrows : Option.Rel (Borrows own.marks) site.parent around

theorem compileOwn_draws (read : statement.Parsed) {before : Session}
    (sound : before.columns.Sound) :
    Step.Meets (statement.compileOwn site.place site.depth site.inherited site.parent) before
      fun result after => DrawsOwn site before after result.1 result.2.1 := by
  refine .of_runs fun result after run => ?_
  obtain ⟨course, rfl, rfl⟩ := (compileOwn_course before).of_ok run
  obtain ⟨marked, complete⟩ := (assignIds_marked site.depth course.selected
    (course.unnumbered read) _ (by exact sound)).of_ok course.numbers
  obtain ⟨same, borrows⟩ := course.plan.borrows
  rw [← same] at marked complete borrows
  exact ⟨marked, complete, course.relates_around (Option.Rel _) borrows
    (rel_borrows_refl _ site.parent)⟩

theorem marks_map {P Q : Type} (f : P → Q) (statement : Statement P) :
    (statement.map f).marks = statement.marks := by
  have operands (conditions : List (Condition (Field P))) :
      (conditions.map (Condition.map (Field.map f))).filterMap Condition.operand? =
        (conditions.filterMap Condition.operand?).map (Field.map f) := by
    simp only [List.filterMap_map, List.map_filterMap, Function.comp_def, Condition.operand?_map]
  have all (fields : List (Field P)) :
      Field.allMarks (fields.map (Field.map f)) = Field.allMarks fields := by
    rw [← Field.mapAll_eq_map, Field.allMarks_mapAll]
  have orders : (statement.orderBy.map (OrderKey.map f)).map (·.field) =
      (statement.orderBy.map (·.field)).map (Field.map f) := by
    simp only [List.map_map]
    rfl
  rw [marks_eq, marks_eq, ← all statement.fields, ← all statement.groupBy,
    ← all (statement.filter.filterMap _), ← all (statement.having.filterMap _),
    ← all (statement.orderBy.map _), ← operands, ← operands, ← orders]
  rfl

/-- Each query in a condition has numbers of its own for its columns and those in its lists. -/
def NumberedApart (statement : Statement Query) : Prop :=
  ∀ head ∈ statement.conditional, ∃ ledger : Ledger, ledger.Sound ∧
    ∀ inner, head.Spans inner → ledger.Consistent inner.body.marks

theorem marks_replaceNested {statement : Statement Query} {index : Nat} {query : Query}
    (found : Query.nestedAt? statement index = some query) (body : Query) :
    (statement.replaceNested index body).marks = statement.marks := by
  obtain ⟨field, present, nested⟩ := Option.bind_eq_some_iff.1 found
  have kind : field.kind = .subquery query := by
    cases kind : field.kind <;> rw [kind] at nested <;> cases nested
    rfl
  have same : (statement.replaceNested index body).fields.map Field.marks =
      statement.fields.map Field.marks := by
    apply List.ext_getElem?
    intro other
    simp only [replaceNested, List.getElem?_map, List.getElem?_modify]
    split
    · rename_i equal
      subst equal
      rw [present]
      simp [Field.marks_eq, Field.mark, kind, FieldKind.marks, FieldKind.isColumn]
    · simp
  have fields := congrArg List.flatten same
  rw [← List.flatMap_def, ← List.flatMap_def, ← Field.allMarks_eq_flatMap,
    ← Field.allMarks_eq_flatMap] at fields
  rw [marks_eq, marks_eq, fields]
  rfl

/-- Borrowed columns are added to the marks of a statement. -/
theorem Grown.exists_perm {reads : Path → String → Prop} {marks : List Mark}
    {statement grown : Statement Query} (grows : statement.Grown reads grown)
    (borrows : Borrows marks statement grown) : ∃ added ⊆ marks,
      (∀ mark ∈ added, mark.isColumn = true) ∧ grown.marks.Perm (statement.marks ++ added) := by
  obtain ⟨added, fields, held⟩ := borrows.added
  have own : ∀ mark ∈ Field.allMarks added, mark ∈ marks ∧ mark.isColumn = true := by
    rw [Field.allMarks_eq_flatMap, List.forall_mem_flatMap]
    intro field member
    obtain ⟨mark, given, column, same⟩ := held field member
    rw [same, List.forall_mem_singleton]
    exact ⟨given, column⟩
  refine ⟨Field.allMarks added, fun mark member => (own mark member).1,
    fun mark member => (own mark member).2, ?_⟩
  rw [grows.frame, marks_eq, marks_eq, fields, Field.allMarks_append]
  simp only [List.append_assoc]
  refine .append_left _ (List.perm_append_comm.trans (.of_eq ?_))
  simp only [List.append_assoc]

end Statement

namespace Query

/-- The marks of a query and of the queries nested in it. -/
def marks (query : Query) : List Mark :=
  query.fold fun statement => statement.marks ++ statement.nested.flatten

theorem marks_mk (statement : Statement Query) :
    marks ⟨statement⟩ = statement.marks ++ statement.nested.flatMap marks := by
  rw [marks, fold_mk, Statement.marks_map, Statement.nested_map, List.flatMap_def]
  rfl

theorem marks_sublist {query inner : Query} (reaches : query.Reaches inner) :
    inner.body.marks.Sublist query.marks := by
  induction reaches with
  | self query =>
      obtain ⟨statement⟩ := query
      rw [marks_mk]
      exact List.sublist_append_left ..
  | @nested query next inner member reaches induction =>
      obtain ⟨statement⟩ := query
      rw [marks_mk, List.flatMap_def]
      refine induction.trans (.trans ?_ (List.sublist_append_right ..))
      exact List.sublist_flatten_of_mem (List.mem_map_of_mem member)

theorem subset_marks {query inner : Query} (reaches : query.Reaches inner) :
    inner.body.marks ⊆ query.marks :=
  (marks_sublist reaches).subset

/-- What a compiled query draws from the numbers of columns. -/
structure Numbered (site : Site) (before after : Session) (result : Statement Query)
    (around : Option (Statement Query)) : Prop where
  draws : Draws before.columns after.columns (marks ⟨result⟩)
  consistent : ∀ inner, Spans ⟨result⟩ inner → after.columns.Consistent inner.body.marks
  apart : Throughout Statement.NumberedApart ⟨result⟩
  borrows : ∃ marks, after.columns.Consistent marks ∧
    Option.Rel (Statement.Borrows marks) site.parent around

def numbers : Outcome := fun site _ before result around after =>
  before.columns.Sound → Numbered site before after result around

/-- What a query and the lists among its fields have drawn from the numbers of columns. -/
structure Listed (before state : Session) (statement : Statement Query) (lists : List Query) :
    Prop where
  draws : Draws before.columns state.columns (statement.marks ++ lists.flatMap marks)
  own : state.columns.Consistent statement.marks
  spans : ∀ list ∈ lists, ∀ inner, list.Spans inner → state.columns.Consistent inner.body.marks
  apart : ∀ list ∈ lists, list.Throughout Statement.NumberedApart

theorem listed_of_drawsOwn {site : Site} {before planned : Session} {own : Statement Query}
    {around : Option (Statement Query)} (drawn : Statement.DrawsOwn site before planned own around) :
    Listed before planned own [] where
  draws := by simpa using Draws.of_marked drawn.marked drawn.complete
  own := drawn.marked.consistent drawn.complete
  spans := by simp
  apart := by simp

theorem Lists.numbered {depth done : Nat} {aliases : AliasMap} {own statement : Statement Query}
    {before start state : Session} (first : Listed before start own [])
    (lists : Lists numbers depth aliases own start done statement state) :
    start.columns.Grows state.columns ∧
      Listed before state statement (listedBefore statement done) := by
  induction lists with
  | start => exact ⟨.refl first.draws.grows.sound, first⟩
  | skip lists plain induction => rwa [listedBefore_skip plain]
  | @nested done statement grown body state after query lists found grows compiled induction =>
      obtain ⟨growing, listed⟩ := induction
      have nested := compiled listed.draws.grows.sound
      obtain ⟨borrowed, known, borrows⟩ := nested.borrows
      cases borrows with
      | some borrows =>
          obtain ⟨added, subset, columns, turn⟩ := grows.exists_perm borrows
          have consistent : after.columns.Consistent added :=
            fun mark member => known mark (subset member)
          have growth := nested.draws.grows
          have present : nestedAt? grown done = some query := (grows.nestedAt done).trans found
          rw [listedBefore_replaceNested grows found]
          refine ⟨growing.trans growth, ?_, ?_, ?_, ?_⟩
          · rw [Statement.marks_replaceNested present, List.flatMap_append, List.flatMap_singleton]
            refine ((listed.draws.trans nested.draws).columnsToo columns consistent).perm ?_
            refine .trans ?_ (turn.append_right _).symm
            simp only [List.append_assoc]
            refine .append_left _ ?_
            rw [← List.append_assoc]
            exact List.perm_append_comm
          · rw [Statement.marks_replaceNested present]
            intro mark member
            rcases List.mem_append.1 (turn.mem_iff.1 member) with earlier | later
            · exact listed.own.mono growth mark earlier
            · exact consistent mark later
          · refine List.forall_mem_append.2 ⟨fun list member inner spans =>
              (listed.spans list member inner spans).mono growth, ?_⟩
            simpa using nested.consistent
          · exact List.forall_mem_append.2 ⟨listed.apart, by simpa using nested.apart⟩

/-- What the queries in conditions draw, each with numbers of its own for keys. -/
structure Conditional (before after : Session) (queries : List Query) : Prop where
  draws : Draws before.columns after.columns (queries.flatMap marks)
  apart : ∀ query ∈ queries, query.Throughout Statement.NumberedApart
  ledger : ∀ query ∈ queries, ∃ ledger : Ledger, ledger.Sound ∧
    ∀ inner, query.Spans inner → ledger.Consistent inner.body.marks

theorem Conditional.trans {before middle after : Session} {queries more : List Query}
    (first : Conditional before middle queries) (second : Conditional middle after more) :
    Conditional before after (queries ++ more) where
  draws := by
    rw [List.flatMap_append]
    exact first.draws.trans second.draws
  apart := List.forall_mem_append.2 ⟨first.apart, second.apart⟩
  ledger := List.forall_mem_append.2 ⟨first.ledger, second.ledger⟩

theorem Operands.numbered {depth : Nat} {around : Statement Query}
    {conditions results : List (Condition (Field Query))} {before after : Session}
    (operands : Operands numbers depth around conditions before results after)
    (sound : before.columns.Sound) :
    Conditional before after (results.filterMap Condition.query?) := by
  induction operands with
  | nil => exact ⟨.refl sound, by simp, by simp⟩
  | plain plain later induction =>
      rw [List.filterMap_cons_none plain]
      exact induction sound
  | @nested field query body parent rest results before middle after kind compiled later induction =>
      have first := compiled sound
      have growth := first.draws.grows
      have own : Conditional before middle [⟨body⟩] := {
        draws := by simpa using first.draws
        apart := by simpa using first.apart
        ledger := by simpa using ⟨_, growth.sound, first.consistent⟩ }
      exact own.trans (induction growth.sound)

theorem Operands.marks {outcome : Outcome} {depth : Nat} {around : Statement Query}
    {conditions results : List (Condition (Field Query))} {before after : Session}
    (operands : Operands outcome depth around conditions before results after) :
    Field.allMarks (results.filterMap Condition.operand?) =
      Field.allMarks (conditions.filterMap Condition.operand?) := by
  simp only [Field.allMarks_operands]
  induction operands with
  | nil => rfl
  | plain plain later induction => rw [List.flatMap_cons, List.flatMap_cons, induction]
  | nested kind compiled later induction =>
      rw [List.flatMap_cons, List.flatMap_cons, induction]
      simp [Field.operandMarks, Field.marks_eq, Field.mark, kind, FieldKind.marks,
        FieldKind.isColumn]

theorem numbers_of_compiled {site : Site} {statement result : Statement Query}
    {before after : Session} {around : Option (Statement Query)} (read : statement.Parsed)
    (compiled : Compiled numbers site statement before result around after) :
    numbers site statement before result around after := by
  intro sound
  cases compiled with
  | @intro own selected _ _ filter having planned listing starting filtering ending after compiled
      lists begins filtered grouped ends ran =>
      have drawn := (Statement.compileOwn_draws read sound).of_ok ran
      have first := listed_of_drawsOwn drawn
      obtain ⟨grown, listed⟩ := lists.numbered first
      rw [lists.listed] at listed
      -- Queries in conditions start without numbers for keys, and those from before are back then.
      have start : starting.columns = listing.columns.apart := by
        rw [begins]
        rfl
      have filters := filtered.numbered (start ▸ Ledger.sound_apart listed.draws.grows.sound)
      have havings := filters.trans (grouped.numbered filters.draws.grows.sound)
      have draws := havings.draws
      rw [start] at draws
      have drawsApart := draws.of_apart listed.draws.grows.sound
      have same : after.columns = { listing.columns with next := ending.columns.next } := by
        rw [ends]
        rfl
      rw [← same] at drawsApart
      have marks : Statement.marks { selected with filter, having } = selected.marks := by
        rw [Statement.marks_eq, Statement.marks_eq, filtered.marks, grouped.marks]
      have growth := drawsApart.grows
      refine ⟨?_, ?_, ?_, ?_⟩
      · rw [marks_mk, marks, Statement.nested_eq_append, List.flatMap_append, ← List.append_assoc]
        exact listed.draws.trans drawsApart
      · intro inner spans
        cases spans with
        | self =>
            rw [marks]
            exact listed.own.mono growth
        | listed member spans => exact (listed.spans _ member inner spans).mono growth
      · refine .intro havings.ledger ?_
        rw [Statement.nested_eq_append]
        exact List.forall_mem_append.2 ⟨listed.apart, havings.apart⟩
      · exact ⟨_, first.own.mono (grown.trans growth), drawn.borrows⟩

/-- Each query that stands alone or in a condition has its numbers for keys. -/
theorem Numbered.exists_ledger {site : Site} {result : Statement Query} {before after : Session}
    {around : Option (Statement Query)} (numbered : Numbered site before after result around)
    {metadata : Option Metadata} {head : Query} (stands : Heads ⟨{ result with metadata }⟩ head) :
    ∃ ledger : Ledger, ledger.Sound ∧
      ∀ inner, head.Spans inner → ledger.Consistent inner.body.marks := by
  rcases stands with rfl | ⟨outer, reaches, member⟩
  · refine ⟨_, numbered.draws.grows.sound, fun inner spans => ?_⟩
    cases spans with
    | self =>
        have own := numbered.consistent ⟨result⟩ (.self _)
        exact own
    | listed member spans => exact numbered.consistent inner (.listed member spans)
  · have apart : Throughout Statement.NumberedApart ⟨{ result with metadata }⟩ :=
      numbered.apart.withMetadata fun own => own
    exact throughout_iff.1 apart outer reaches head member

end Query

namespace CompilerOptions

/--
The numbers of columns in a compiled query lie below the next one, and each
column has one. Within a query that stands alone or in a condition and the lists
of related rows in it, columns have the same number if they have the same key.
No field but a column shares its number with another field of any query.
-/
theorem columnId_of_compile {options : CompilerOptions} {source : String} {date : Instant}
    {elapsedTime : Nat} {query : Query}
    (compiled : options.compile source date elapsedTime = .ok query) :
    ∃ metadata, query.body.metadata = some metadata ∧
      (∀ inner, query.Reaches inner → ∀ mark ∈ inner.body.marks,
        (∀ id, mark.id = some id → 1 ≤ id ∧ id < metadata.nextColumnId) ∧
          (mark.isColumn = true → ∃ id, mark.id = some id)) ∧
      (∀ head, query.Heads head → ∀ left right, head.Spans left → head.Spans right →
        ∀ column ∈ left.body.marks, ∀ other ∈ right.body.marks,
          column.isColumn = true → other.isColumn = true →
            (column.id = other.id ↔ column.key = other.key)) ∧
      query.marks.Pairwise Mark.Apart := by
  obtain ⟨parsed, around, after, body, _, numbered, rfl⟩ := outcome_of_compile (fun _ own => own)
    Query.numbers_of_compiled (fun _ => parsed_of_parse) compiled
  have numbered := numbered (Ledger.sound_empty (Nat.le_refl 1))
  have marks (metadata : Option Metadata) :
      Query.marks ⟨{ body with metadata }⟩ = Query.marks ⟨body⟩ := by
    rw [Query.marks_mk, Query.marks_mk]
    rfl
  refine ⟨_, rfl, ?_, ?_, ?_⟩
  · intro inner reaches mark member
    exact numbered.draws.bounds (fun _ => rfl) mark (marks _ ▸ Query.subset_marks reaches member)
  · intro head stands left right leftSpans rightSpans column member other memberToo
    obtain ⟨ledger, sound, consistent⟩ := numbered.exists_ledger stands
    exact sound.id_eq_iff (consistent left leftSpans) (consistent right rightSpans) member memberToo
  · rw [marks]
    exact numbered.draws.apart

/-- A name that a query and a list in it read, a call, and a query in a condition. -/
def sharedName : String :=
  "SELECT Name, UPPER(Name), (SELECT Id FROM Contact.Tasks WHERE Contact.Name = Kind) " ++
    "FROM Contact WHERE Id IN (SELECT Name FROM Visit)"

/-- The keys and numbers of the fields, which for all but columns have no key. -/
def sharedNameIds : List (String × Option Nat) :=
  [("contact.name", some 1), ("", some 2), ("contact.name", some 1), ("", some 3),
    ("contact.id", some 4), ("contact.id", some 4), ("", some 5), ("contact.tasks.id", some 6),
    ("contact.name", some 1), ("contact.tasks.kind", some 7), ("contact.name", some 1),
    ("contact.tasks.kind", some 7), ("visit.name", some 8)]

theorem compile_sharedName :
    ∃ query, compile {} sharedName = .ok query ∧
      query.marks.map (fun mark => (mark.key, mark.id)) = sharedNameIds := by
  have run : compilesTo {} sharedName (fun query =>
      query.marks.map (fun mark => (mark.key, mark.id)) == sharedNameIds) = true := by
    decide +kernel
  obtain ⟨query, compiled, ids⟩ := exists_of_compilesTo run
  exact ⟨query, compiled, eq_of_beq ids⟩

theorem columnId_of_sharedName :
    ∃ query metadata, compile {} sharedName = .ok query ∧ query.body.metadata = some metadata ∧
      query.marks.map (fun mark => (mark.key, mark.id)) = sharedNameIds ∧
      (∀ mark ∈ query.body.marks, ∀ id, mark.id = some id →
        1 ≤ id ∧ id < metadata.nextColumnId) ∧
      (∀ column ∈ query.body.marks, ∀ other ∈ query.body.marks,
        column.isColumn = true → other.isColumn = true →
          (column.id = other.id ↔ column.key = other.key)) ∧
      query.marks.Pairwise Mark.Apart := by
  obtain ⟨query, compiled, ids⟩ := compile_sharedName
  obtain ⟨metadata, present, bounds, shared, apart⟩ := columnId_of_compile compiled
  exact ⟨query, metadata, compiled, present, ids,
    fun mark member => (bounds query (.self query) mark member).1,
    shared query (.inl rfl) query query (.self query) (.self query), apart⟩

end CompilerOptions

end ObjectQuery
