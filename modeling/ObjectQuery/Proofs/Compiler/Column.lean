import ObjectQuery.Proofs.Compiler.Site
import ObjectQuery.Proofs.Compiler.Source
import ObjectQuery.Proofs.Query.Mention

namespace ObjectQuery

/-!
The places of columns in a compiled query. Where no name holds a dot, each column
of a query that stands alone, or in a condition, is returned by its object.
-/

namespace Statement

/-- A statement that returns its own, and in whose conditions queries return what they read. -/
structure Placed (statement : Statement Query) : Prop where
  supplied : statement.Supplied
  conditional : ∀ query ∈ statement.conditional, ∀ column ∈ query.body.columns,
    query.body.Covers column
  contained : ∀ query ∈ statement.conditional, query.body.SelfContained

end Statement

namespace Query

open Statement (Grown Placed)

/-- What is known of a compiled query, and of the query that its columns are fetched from. -/
structure Places (site : Site) (result : Statement Query) (around : Option (Statement Query)) :
    Prop where
  fetched : Option.Rel (Grown Path.Keyed) site.parent around
  placed : Throughout Placed ⟨result⟩
  covers : site.place ≠ .select → ∀ column ∈ result.columns, result.Covers column
  contained : site.place ≠ .select → result.SelfContained

def places : Outcome := fun site _ _ result around _ => site.Sound → Places site result around

theorem Lists.placed {depth done : Nat} {aliases : AliasMap} {own statement : Statement Query}
    {start state : Session} (lists : Lists places depth aliases own start done statement state)
    (inherits : Scope.Inherits (fun _ => True) aliases) (supplied : own.Supplied) :
    own.Keeps statement ∧ ∀ query ∈ listedBefore statement done, query.Throughout Placed := by
  induction lists with
  | start => exact ⟨.refl own, by simp [listedBefore]⟩
  | skip lists plain induction => rwa [listedBefore_skip plain]
  | @nested done statement grown body _ _ _ lists found grows compiled induction =>
      obtain ⟨keeps, placed⟩ := induction
      -- Columns are fetched from the statement before the list takes its place in it.
      have nested := compiled (Site.sound_list inherits (keeps.supplied supplied))
      cases nested.fetched with
      | some fetched =>
          refine ⟨(keeps.trans fetched.keeps).trans (grown.keeps_replaceNested done ⟨body⟩), ?_⟩
          rw [listedBefore_replaceNested grows found, List.forall_mem_append]
          exact ⟨placed, by simpa using nested.placed⟩

/-- What is read of the operands stays, where nothing is read of nested queries. -/
theorem Operands.flatMap_operands {α : Type} {view : Field Query → List α}
    (queries : ∀ {field : Field Query} {query : Query}, field.kind = .subquery query →
      view field = []) {outcome : Outcome} {depth : Nat} {around : Statement Query}
    {conditions results : List (Condition (Field Query))} {before after : Session}
    (operands : Operands outcome depth around conditions before results after) :
    (results.filterMap Condition.operand?).flatMap view =
      (conditions.filterMap Condition.operand?).flatMap view := by
  induction operands with
  | nil => rfl
  | @plain entry _ _ _ _ plain later induction =>
      cases entry with
      | operand field =>
          rw [List.filterMap_cons, List.filterMap_cons]
          exact congrArg (view field ++ ·) induction
      | noop | unknown | operator op => exact induction
  | @nested field query body _ _ _ _ _ _ kind compiled later induction =>
      have replaced : view { field with kind := .subquery ⟨body⟩ } = [] := queries rfl
      simp only [List.filterMap_cons, Condition.operand?, List.flatMap_cons, queries kind, replaced,
        induction]

theorem Operands.allColumns {outcome : Outcome} {depth : Nat} {around : Statement Query}
    {conditions results : List (Condition (Field Query))} {before after : Session}
    (operands : Operands outcome depth around conditions before results after) :
    Field.allColumns (results.filterMap Condition.operand?) =
      Field.allColumns (conditions.filterMap Condition.operand?) := by
  simp only [Field.allColumns_eq_flatMap]
  exact operands.flatMap_operands fun kind => by simp [Field.columns_eq, kind, Field.kindColumns]

theorem Operands.allNamed {outcome : Outcome} {depth : Nat} {around : Statement Query}
    {conditions results : List (Condition (Field Query))} {before after : Session}
    (operands : Operands outcome depth around conditions before results after) :
    Field.allNamed (results.filterMap Condition.operand?) =
      Field.allNamed (conditions.filterMap Condition.operand?) := by
  simp only [Field.allNamed_eq_flatMap]
  exact operands.flatMap_operands fun kind => by simp [Field.named_eq, kind, Field.kindNamed]

theorem Operands.placed {depth : Nat} {around : Statement Query}
    {conditions results : List (Condition (Field Query))} {before after : Session}
    (operands : Operands places depth around conditions before results after) :
    ∀ query ∈ results.filterMap Condition.query?, query.Throughout Placed ∧
      (∀ column ∈ query.body.columns, query.body.Covers column) ∧ query.body.SelfContained := by
  have alone : QueryPlace.conditional ≠ .select := by decide
  refine operands.forall_of_outcome fun compiled => ?_
  have places := compiled (Site.sound_alone alone)
  exact ⟨places.placed, places.covers alone, places.contained alone⟩

theorem keeps_conditions {outcome : Outcome} {depth : Nat} {selected : Statement Query}
    {filter having : List (Condition (Field Query))} {starting filtering ending : Session}
    (filtered : Operands outcome depth selected selected.filter starting filter filtering)
    (grouped : Operands outcome depth selected selected.having filtering having ending) :
    selected.Keeps { selected with filter, having } := by
  refine .of_objects rfl (fun column member => ?_) fun field member => ?_
  · rw [Statement.mem_columns_iff] at member ⊢
    rwa [filtered.allColumns, grouped.allColumns] at member
  · rw [Statement.named, Statement.everyField] at member ⊢
    simpa only [Field.allNamed_append, filtered.allNamed, grouped.allNamed] using member

theorem places_of_compiled {site : Site} {statement result : Statement Query}
    {before after : Session} {around : Option (Statement Query)}
    (given : statement.Parsed ∧ statement.Undotted)
    (compiled : Compiled places site statement before result around after) :
    places site statement before result around after := by
  intro sound
  obtain ⟨read, undotted⟩ := given
  cases compiled with
  | @intro own selected _ _ filter having planned listing starting filtering ending after compiled
      lists begins filtered grouped ends =>
      have supplied := compiled.supplied read undotted sound
      have inherits := (compiled.located read undotted sound).1
      obtain ⟨keepsFirst, listed⟩ := lists.placed inherits supplied
      have keeps := keepsFirst.trans (keeps_conditions filtered grouped)
      have filters := filtered.placed
      have havings := grouped.placed
      have conditional := List.forall_mem_append.2 ⟨filters, havings⟩
      rw [lists.listed] at listed
      refine ⟨compiled.fetched read undotted sound, .intro ⟨keeps.supplied supplied, ?_, ?_⟩ ?_, ?_, ?_⟩
      · exact fun query member => (conditional query member).2.1
      · exact fun query member => (conditional query member).2.2
      · rw [Statement.nested_eq_append, Statement.conditional]
        simp only [List.forall_mem_append]
        exact ⟨listed, fun query member => (filters query member).1,
          fun query member => (havings query member).1⟩
      · intro alone column member
        -- A column that was not read before is one that was fetched, and is returned already.
        rcases keeps.columns column member with own | covered
        · exact keeps.covers (compiled.covers read undotted sound alone column own)
        · exact covered
      · intro alone
        exact keeps.selfContained (keeps.supplied supplied) (compiled.selfContained read undotted alone)

end Query

namespace Query

/-- The query itself, or one in a condition of it or of a query nested in it. -/
def Heads (query head : Query) : Prop :=
  head = query ∨ ∃ outer, query.Reaches outer ∧ head ∈ outer.body.conditional

end Query

namespace CompilerOptions

variable {options : CompilerOptions} {source : String} {date : Instant} {elapsedTime : Nat}
  {query : Query}

theorem exists_places
    (undotted : ∀ parsed, options.parse source = .ok parsed →
      ∀ path ∈ parsed.paths, ∀ segment ∈ path, Undotted segment)
    (compiled : options.compile source date elapsedTime = .ok query) :
    ∃ body metadata around, Query.Places .root body around ∧ query = ⟨{ body with metadata }⟩ := by
  obtain ⟨parsed, around, after, body, _, places, rfl⟩ := outcome_of_compile
    (fun _ given => given.1) Query.places_of_compiled
    (fun parsed parses => (parsed_of_parse parses).undotted (undotted parsed parses)) compiled
  have alone : Site.root.place ≠ .select := by decide
  exact ⟨body, _, around, places (Site.sound_alone alone), rfl⟩

theorem placed_of_compile
    (undotted : ∀ parsed, options.parse source = .ok parsed →
      ∀ path ∈ parsed.paths, ∀ segment ∈ path, Undotted segment)
    (compiled : options.compile source date elapsedTime = .ok query) :
    query.Throughout Statement.Placed ∧
      ∀ column ∈ query.body.columns, query.body.Covers column := by
  obtain ⟨body, metadata, _, places, rfl⟩ := exists_places undotted compiled
  refine ⟨places.placed.withMetadata fun own => ?_, places.covers (by decide)⟩
  exact ⟨⟨own.supplied.objects, own.supplied.columns⟩, own.conditional, own.contained⟩

/--
Where no name holds a dot, each column that is read by a query that stands alone
or in a condition is returned by the object of its path there, at the place of
the column. As everywhere, paths that differ in letter case only are the same.
The query of each object of any query returns its own fields in their places.
-/
theorem columnIndex_of_compile
    (undotted : ∀ parsed, options.parse source = .ok parsed →
      ∀ path ∈ parsed.paths, ∀ segment ∈ path, Undotted segment)
    (compiled : options.compile source date elapsedTime = .ok query) :
    (∀ head, query.Heads head → ∀ column ∈ head.body.columns, ∃ path index,
      column.kind = .column path ∧ column.columnIndex = some index ∧
        ∃ object ∈ head.body.objects, object.path.same path.parent = true ∧
          object.Returns index column.key) ∧
    ∀ inner, query.Reaches inner → ∀ object ∈ inner.body.objects, object.ReturnsOwn := by
  obtain ⟨placed, covers⟩ := placed_of_compile undotted compiled
  rw [Query.throughout_iff] at placed
  have covered : ∀ head, query.Heads head → head.body.Supplied ∧
      ∀ column ∈ head.body.columns, head.body.Covers column := by
    rintro head (rfl | ⟨outer, reaches, member⟩)
    · exact ⟨(placed head (.self head)).supplied, covers⟩
    · have nested := Statement.mem_nested_iff.2 (.inr member)
      exact ⟨(placed head (reaches.trans (.nested nested (.self head)))).supplied,
        (placed outer reaches).conditional head member⟩
  refine ⟨fun head stands column member => ?_,
    fun inner reaches => (placed inner reaches).supplied.objects⟩
  obtain ⟨supplied, covers⟩ := covered head stands
  obtain ⟨index, place, returned⟩ := covers column member
  obtain ⟨path, kind⟩ := Field.exists_eq_column (Statement.isColumn_of_mem_columns member)
  have keyed := supplied.columns column member path kind
  exact ⟨path, index, kind, place, supplied.exists_object keyed returned⟩

/-- That no name of a text holds a dot can be decided. -/
theorem undotted_of_parse (run : (options.parse source).toOption.all (fun parsed =>
      parsed.paths.all (·.all fun segment => !segment.toList.contains '.')) = true) :
    ∀ parsed, options.parse source = .ok parsed →
      ∀ path ∈ parsed.paths, ∀ segment ∈ path, Undotted segment := by
  intro parsed parses path member segment given
  rw [parses] at run
  simpa [Undotted] using List.all_eq_true.1 (List.all_eq_true.1 run path member) segment given

/-- A list of tasks that reads a column of the contacts around it, which these have to return. -/
def outerCode : String :=
  "SELECT Name, (SELECT Id FROM Contact.Tasks WHERE Contact.Code = Kind) FROM Contact " ++
    "WHERE Account.Id IN (SELECT AccountId FROM Visit ORDER BY Day)"

/-- The keys and places of the columns that the contacts are read with. -/
def outerCodePlaces : List (String × Option Nat) :=
  [("contact.name", some 0), ("contact.account.id", some 0), ("contact.code", some 1),
    ("contact.account.id", some 0)]

theorem undotted_outerCode :
    ∀ parsed, parse {} outerCode = .ok parsed →
      ∀ path ∈ parsed.paths, ∀ segment ∈ path, Undotted segment :=
  undotted_of_parse (by decide +kernel)

theorem compile_outerCode :
    ∃ query, compile {} outerCode = .ok query ∧
      query.body.columns.map (fun column => (column.key, column.columnIndex)) =
        outerCodePlaces := by
  have run : compilesTo {} outerCode (fun query => query.body.columns.map (fun column =>
      (column.key, column.columnIndex)) == outerCodePlaces) = true := by
    decide +kernel
  obtain ⟨query, compiled, places⟩ := exists_of_compilesTo run
  exact ⟨query, compiled, eq_of_beq places⟩

theorem columnIndex_of_outerCode :
    ∃ query, compile {} outerCode = .ok query ∧
      query.body.columns.map (fun column => (column.key, column.columnIndex)) = outerCodePlaces ∧
      (∀ column ∈ query.body.columns, ∃ path index,
        column.kind = .column path ∧ column.columnIndex = some index ∧
          ∃ object ∈ query.body.objects, object.path.same path.parent = true ∧
            object.Returns index column.key) ∧
      ∀ object ∈ query.body.objects, object.ReturnsOwn := by
  obtain ⟨query, compiled, places⟩ := compile_outerCode
  obtain ⟨columns, objects⟩ := columnIndex_of_compile undotted_outerCode compiled
  exact ⟨query, compiled, places, columns query (.inl rfl), objects query (.self query)⟩

end CompilerOptions

end ObjectQuery
