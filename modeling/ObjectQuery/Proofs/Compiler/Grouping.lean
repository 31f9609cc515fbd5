import Mathlib
import ObjectQuery.Proofs.Compiler.Column
import ObjectQuery.Proofs.Resolution.Grouping

namespace ObjectQuery

/-!
Grouped rows of compiled queries. A column that is selected is grouped by its own
key, or by that of a field whose alias is the name of the column.
-/

namespace Statement

variable {Q : Type}

theorem primary_of_bare {before after : Statement Q}
    (same : after.objects.map SourceObject.bare = before.objects.map SourceObject.bare) :
    after.primary = before.primary := by
  have heads := congrArg List.head? same
  rw [List.head?_map, List.head?_map] at heads
  have paths := congrArg (Option.map fun object => object.path) heads
  simp only [Option.map_map] at paths
  exact congrArg (·.getD []) paths

/-- Grouping keys keep their keys and aliases when they are numbered and given places. -/
theorem Alike.exists_groupKey {before after : Statement Q} (alike : before.Alike after)
    {key : Field Q} (member : key ∈ before.groupBy) :
    ∃ later ∈ after.groupBy, later.key = key.key ∧ later.aliasName = key.aliasName := by
  obtain ⟨index, present⟩ := List.getElem?_of_mem member
  have fields := congrArg (·[index]?) alike.groupBy
  have aliases := congrArg (·[index]?) alike.groupAliases
  simp only [List.getElem?_map, present, Option.map_some] at fields aliases
  obtain ⟨later, found, same⟩ := Option.map_eq_some_iff.1 fields
  rw [found] at aliases
  exact ⟨later, List.mem_of_getElem? found, by simpa using congrArg Field.key same,
    Option.some.inj aliases⟩

namespace Grouped

theorem of_alike {before after : Statement Q} (grouped : before.Grouped)
    (alike : before.Alike after) : after.Grouped := by
  intro isAggregation field member isColumn selected
  obtain ⟨earlier, given, same⟩ := exists_mem_of_map_eq alike.fields member
  have kind : earlier.kind.isColumn = field.kind.isColumn := by
    simpa using congrArg (·.kind.isColumn) same
  have fieldKey : earlier.key = field.key := by simpa using congrArg Field.key same
  have kept : earlier.notSelected = field.notSelected := by
    simpa [Field.bare_eq] using congrArg Field.notSelected same
  obtain ⟨key, keyGiven, holds⟩ := grouped (alike.isAggregation ▸ isAggregation) earlier given
    (kind.trans isColumn) (kept.trans selected)
  obtain ⟨later, present, sameKey, sameAlias⟩ := alike.exists_groupKey keyGiven
  refine ⟨later, present, ?_⟩
  rw [Field.GroupedBy, sameKey, sameAlias, primary_of_bare alike.objects, ← fieldKey]
  exact holds

/-- Only what is added to the fields may matter, and then only columns that are selected. -/
theorem of_fields {before after : Statement Q} (grouped : before.Grouped)
    (frame : after = { before with fields := after.fields, objects := after.objects })
    (objects : after.objects.map SourceObject.bare = before.objects.map SourceObject.bare)
    (fields : ∀ field ∈ after.fields, field ∈ before.fields ∨ field.kind.isColumn = false ∨
      field.notSelected = true) : after.Grouped := by
  intro isAggregation field member isColumn selected
  have given : field ∈ before.fields := by
    rcases fields field member with given | other | fetched
    · exact given
    · cases isColumn.symm.trans other
    · cases selected.symm.trans fetched
  rw [frame] at isAggregation
  rw [primary_of_bare objects, frame]
  exact grouped isAggregation field given isColumn selected

theorem grow {reads : Path → String → Prop} {before after : Statement Query}
    (grouped : before.Grouped) (grown : Grown reads before after) : after.Grouped := by
  refine grouped.of_fields grown.frame grown.objects ?_
  induction grown with
  | refl => exact fun field member => .inl member
  | fetch _ _ _ fetches induction =>
      refine List.forall_mem_append.2 ⟨induction, ?_⟩
      obtain ⟨index, rfl⟩ := fetches.field
      simp

theorem replaceNested {statement : Statement Query} (grouped : statement.Grouped) (index : Nat)
    (query : Query) : (statement.replaceNested index query).Grouped := by
  refine grouped.of_fields rfl rfl fun field member => ?_
  exact (mem_fields_replaceNested member).imp_right fun kind => .inl (by rw [kind]; rfl)

end Grouped

theorem ResolvedAt.grouped {site : Site} {statement resolved : Statement Query} {id : Nat}
    {aliases : AliasMap}
    (resolvedAt : ResolvedAt site (statement.registered id site.parent) resolved aliases)
    (read : statement.Parsed) (undotted : statement.Undotted) (sound : site.Sound) :
    resolved.Grouped := by
  obtain ⟨primary, mentions, selected, scope, found, run, rfl⟩ := resolvedAt.run
  have names := undotted.names
  have registered : (statement.registered id site.parent).Undotted := ⟨undotted.objects,
    ⟨names.fields, names.filter, names.groupBy, names.having, names.orderBy⟩⟩
  have declared : ∀ object ∈ (statement.registered id site.parent).objects, Declared object :=
    read.declared
  have groups : (statement.registered id site.parent).GroupsAsWritten :=
    ⟨read.groups.aliases, read.groups.columns, read.groups.aggregates⟩
  have inherits : Scope.Inherits site.Knows
      ((statement.registered id site.parent).scope site.aliases mentions).aliases := sound.knows
  have objects : ((statement.registered id site.parent).scope site.aliases mentions).objects ≠ [] :=
    read.objects
  exact (resolve_grouped site.place (primaryPath_plain registered sound found) declared registered
    read.filter read.having groups rfl objects rfl inherits).of_ok run

theorem OwnCompiled.grouped {site : Site} {statement own : Statement Query} {aliases : AliasMap}
    {around : Option (Statement Query)} {before after : Session}
    (compiled : OwnCompiled site statement before own around aliases after)
    (read : statement.Parsed) (undotted : statement.Undotted) (sound : site.Sound) :
    own.Grouped := by
  obtain ⟨resolved, numbered, _, resolvedAt, alike, planned, _⟩ := compiled.planned
  exact ((resolvedAt.grouped read undotted sound).of_alike alike).of_alike planned.alike

end Statement

namespace Query

open Statement (Grouped)

/-- Rows are grouped as told in the compiled query and in those nested in it. -/
def groups : Outcome := fun site statement before result around after =>
  places site statement before result around after ∧
    (site.Sound → Throughout Grouped ⟨result⟩)

theorem Lists.grouped {depth done : Nat} {aliases : AliasMap} {own statement : Statement Query}
    {start state : Session} (lists : Lists groups depth aliases own start done statement state)
    (inherits : Scope.Inherits (fun _ => True) aliases) (supplied : own.Supplied)
    (grouped : own.Grouped) :
    statement.Grouped ∧ ∀ query ∈ listedBefore statement done, query.Throughout Grouped := by
  induction lists with
  | start => exact ⟨grouped, by simp [listedBefore]⟩
  | skip lists plain induction => rwa [listedBefore_skip plain]
  | @nested done statement grown body _ _ _ lists found grows compiled induction =>
      obtain ⟨groupedToo, earlier⟩ := induction
      have keeps := ((lists.mono And.left).placed inherits supplied).1
      have sound : Site.Sound ⟨.select, depth + 1, aliases, some statement⟩ :=
        Site.sound_list inherits (keeps.supplied supplied)
      refine ⟨(groupedToo.grow grows).replaceNested done ⟨body⟩, ?_⟩
      rw [listedBefore_replaceNested grows found, List.forall_mem_append]
      exact ⟨earlier, by simpa using compiled.2 sound⟩

theorem Operands.grouped {depth : Nat} {around : Statement Query}
    {conditions results : List (Condition (Field Query))} {before after : Session}
    (operands : Operands groups depth around conditions before results after) :
    ∀ query ∈ results.filterMap Condition.query?, query.Throughout Grouped := by
  have alone : QueryPlace.conditional ≠ .select := by decide
  exact operands.forall_of_outcome fun compiled => compiled.2 (Site.sound_alone alone)

theorem groups_of_compiled {site : Site} {statement result : Statement Query}
    {before after : Session} {around : Option (Statement Query)}
    (given : statement.Parsed ∧ statement.Undotted)
    (compiled : Compiled groups site statement before result around after) :
    groups site statement before result around after := by
  refine ⟨places_of_compiled given (compiled.mono And.left), fun sound => ?_⟩
  obtain ⟨read, undotted⟩ := given
  cases compiled with
  | @intro own selected _ _ filter having planned listing starting filtering ending after compiled
      lists begins filtered restricted ends =>
      obtain ⟨grouped, listed⟩ := lists.grouped (compiled.located read undotted sound).1
        (compiled.supplied read undotted sound) (compiled.grouped read undotted sound)
      rw [lists.listed] at listed
      refine .intro grouped ?_
      rw [Statement.nested_eq_append, Statement.conditional]
      simp only [List.forall_mem_append]
      exact ⟨listed, filtered.grouped, restricted.grouped⟩

end Query

namespace CompilerOptions

variable {options : CompilerOptions} {source : String} {date : Instant} {elapsedTime : Nat}
  {query inner : Query}

/--
Where no name holds a dot, each column that is selected from grouped rows has the
key of one of the keys they are grouped by. The one other way is that the name of
the column is the alias of another selected field, which took the place of it
among these keys.
-/
theorem groupedBy_of_compile
    (undotted : ∀ parsed, options.parse source = .ok parsed →
      ∀ path ∈ parsed.paths, ∀ segment ∈ path, Undotted segment)
    (compiled : options.compile source date elapsedTime = .ok query)
    (reaches : query.Reaches inner) (aggregates : inner.body.isAggregation = true)
    {field : Field Query} (member : field ∈ inner.body.fields)
    (isColumn : field.kind.isColumn = true) (selected : field.notSelected = false) :
    ∃ key ∈ inner.body.groupBy, key.key = field.key ∨
      ∃ aliasName, key.aliasName = some aliasName ∧
        field.key = Path.key (inner.body.primary ++ [aliasName]) := by
  obtain ⟨parsed, around, after, body, _, ⟨_, groups⟩, rfl⟩ := outcome_of_compile
    (fun _ given => given.1) Query.groups_of_compiled
    (fun parsed parses => (parsed_of_parse parses).undotted (undotted parsed parses)) compiled
  have grouped : Query.Throughout Statement.Grouped
      ⟨{ body with metadata := some { after.metadata with
        version := options.version, date, elapsedTime, source } }⟩ :=
    (groups (Site.sound_alone (by decide))).withMetadata fun own => own
  exact Query.throughout_iff.1 grouped inner reaches aggregates field member isColumn selected

/-- Rows grouped by an alias and by a name, in a query with another one in its conditions. -/
def groupedKinds : String :=
  "SELECT Kind k, Name, MAX(Age) FROM Contact WHERE Id IN (SELECT Code FROM Task GROUP BY Code) " ++
    "GROUP BY k, Name"

/-- The name of the first column is the alias of the second, by which rows are grouped then. -/
def replacedKey : String :=
  "SELECT a, b a FROM Contact GROUP BY a"

/-- Rows are grouped, and columns with the keys are selected. -/
def selectsGrouped (keys : List String) (query : Query) : Bool :=
  query.body.isAggregation && keys.all fun key => query.body.fields.any fun field =>
    field.kind.isColumn && !field.notSelected && field.key == key

theorem exists_of_selectsGrouped {keys : List String}
    (selects : selectsGrouped keys query = true) :
    query.body.isAggregation = true ∧ ∀ key ∈ keys, ∃ field ∈ query.body.fields,
      field.kind.isColumn = true ∧ field.notSelected = false ∧ field.key = key := by
  obtain ⟨aggregates, all⟩ := (Bool.and_eq_true _ _).mp selects
  refine ⟨aggregates, fun key member => ?_⟩
  obtain ⟨field, given, holds⟩ := List.any_eq_true.1 (List.all_eq_true.1 all key member)
  simp only [Bool.and_eq_true, Bool.not_eq_true', beq_iff_eq, and_assoc] at holds
  exact ⟨field, given, holds⟩

theorem undotted_groupedKinds :
    ∀ parsed, parse {} groupedKinds = .ok parsed →
      ∀ path ∈ parsed.paths, ∀ segment ∈ path, Undotted segment :=
  undotted_of_parse (by decide +kernel)

theorem groupedBy_of_groupedKinds :
    ∃ query, compile {} groupedKinds = .ok query ∧ query.body.isAggregation = true ∧
      ∀ name ∈ ["contact.kind", "contact.name"], ∃ field ∈ query.body.fields,
        field.kind.isColumn = true ∧ field.notSelected = false ∧ field.key = name ∧
        ∃ key ∈ query.body.groupBy, key.key = field.key ∨
          ∃ aliasName, key.aliasName = some aliasName ∧
            field.key = Path.key (query.body.primary ++ [aliasName]) := by
  have run : compilesTo {} groupedKinds (selectsGrouped ["contact.kind", "contact.name"]) =
      true := by
    decide +kernel
  obtain ⟨query, compiled, selects⟩ := exists_of_compilesTo run
  obtain ⟨aggregates, fields⟩ := exists_of_selectsGrouped selects
  refine ⟨query, compiled, aggregates, fun name member => ?_⟩
  obtain ⟨field, given, isColumn, selected, same⟩ := fields name member
  exact ⟨field, given, isColumn, selected, same,
    groupedBy_of_compile undotted_groupedKinds compiled (.self query) aggregates given isColumn
      selected⟩

/-- A column may be selected from rows that are not grouped by it. -/
theorem ungrouped_of_replacedKey :
    ∃ query, compile {} replacedKey = .ok query ∧ query.body.isAggregation = true ∧
      ∃ field ∈ query.body.fields, field.kind.isColumn = true ∧ field.notSelected = false ∧
        ∀ key ∈ query.body.groupBy, key.key ≠ field.key := by
  have run : compilesTo {} replacedKey (fun query => selectsGrouped ["contact.a"] query &&
      query.body.groupBy.all (·.key != "contact.a")) = true := by
    decide +kernel
  obtain ⟨query, compiled, holds⟩ := exists_of_compilesTo run
  obtain ⟨selects, others⟩ := (Bool.and_eq_true _ _).mp holds
  obtain ⟨aggregates, fields⟩ := exists_of_selectsGrouped selects
  obtain ⟨field, given, isColumn, selected, same⟩ :=
    fields "contact.a" (List.mem_singleton_self _)
  refine ⟨query, compiled, aggregates, field, given, isColumn, selected, fun key member => ?_⟩
  rw [same]
  simpa using List.all_eq_true.1 others key member

end CompilerOptions

end ObjectQuery
