import ObjectQuery.Proofs.Query.Count
import ObjectQuery.Proofs.Resolution.Single
import ObjectQuery.Proofs.Resolution.Statement

namespace ObjectQuery

/-!
Columns of grouped rows. A column that is selected was checked against the
grouping keys as they are written. Where an alias takes the place of such a key,
the key of the column goes with it.
-/

namespace Scope

variable {Q : Type} {grouped : Bool} {start : Path} {scope : Scope Q}

/-- The first object has the path, and it is known whether rows are grouped. -/
structure Groups (grouped : Bool) (start : Path) (scope : Scope Q) : Prop where
  starts : scope.StartsAt start
  isAggregation : scope.isAggregation = grouped

theorem Groups.mention (groups : scope.Groups grouped start) (mentions : Mentions) :
    Groups grouped start { scope with mentions } :=
  ⟨groups.starts, groups.isAggregation⟩

theorem qualify_groups (registers : Bool) (path : Path) :
    Step.Yields (Groups (Q := Q) grouped start) (qualify registers path) fun _ => True :=
  qualify_yields (fun _ path _ groups => ⟨groups.starts.register path, groups.isAggregation⟩)
    registers path

theorem exists_startsAt (nonempty : scope.objects ≠ []) : scope.StartsAt scope.primary := by
  obtain ⟨object, rest, objects⟩ := List.exists_cons_of_ne_nil nonempty
  exact ⟨object, rest, objects, by rw [primary, objects]⟩

theorem resolveObject_isAggregation (scope : Scope Q) (object : SourceObject Q) :
    (scope.resolveObject object).2.isAggregation = scope.isAggregation := by
  obtain ⟨reached, after, arrives⟩ := exists_walk_eq scope (scope.expandFirst object.path)
  let alike (other : Scope Q) : Prop := other.isAggregation = scope.isAggregation
  have kept : alike after := walk_keeps (fun _ _ _ same => same) rfl arrives
  rw [resolveObject_eq arrives, ← kept]
  cases object.aliasName <;> rfl

end Scope

namespace SourceObject

theorem resolveAll_isAggregation {Q : Type} (primary : Path) (ownPrimary : Bool)
    (used : SortedSet String) (objects : List (SourceObject Q)) {before : Scope Q} :
    Step.Meets (resolveAll primary ownPrimary used objects) before fun _ after =>
      after.isAggregation = before.isAggregation := by
  induction objects generalizing ownPrimary used before with
  | nil => exact .pure rfl
  | cons object rest induction =>
      refine .get_bind ?_
      dsimp only
      generalize (if ownPrimary = true then object
        else object.qualify before.aliases primary) = given
      have own := before.resolveObject_isAggregation given
      refine .set_bind ?_
      refine (addAlias_meets used _ _).bind fun used _ same => ?_
      subst same
      exact (induction false used).bind fun resolved after kept => .pure (kept.trans own)

end SourceObject

namespace Scope

theorem resolveObjects_isAggregation {Q : Type} (place : QueryPlace) (primary : Path)
    {before : Scope Q} :
    Step.Meets (resolveObjects place primary) before fun _ after =>
      after.isAggregation = before.isAggregation := by
  refine .get_bind (.modify_bind ?_)
  exact (SourceObject.resolveAll_isAggregation primary _ .empty before.objects).bind
    fun _ _ kept => kept

end Scope

namespace Grouping

variable {Q : Type}

theorem counts_eq_kindCounts (field : Field Q) : counts field = kindCounts field.kind := by
  cases field
  rw [counts]

theorem anyCounts_eq_any (fields : List (Field Q)) : anyCounts fields = fields.any counts := by
  induction fields with
  | nil => rfl
  | cons field rest induction => rw [anyCounts, induction, List.any_cons]

end Grouping

namespace Field

open Scope (Groups)

variable {Q : Type} {grouped : Bool} {start : Path}

/-- A column of the object with the path, or of one beyond it, that is a grouping key. -/
def IsGrouped (keys : SortedSet String) (start : Path) (field : Field Q) : Prop :=
  ∀ path, field.kind = .column path → path ≠ [] →
    Grouping.isKey keys start field = true ∧ path.startsWith start = true

/-- Calls that count stand only where rows are grouped by then. -/
def CountsIn (grouped : Bool) (use : FieldUse) (counts : Bool) : Prop :=
  use.place = .select ∨ use.place = .having → counts = true → grouped = true

/-- What the resolved field keeps, and what is checked of it where rows are grouped. -/
structure ResolvesTo (grouped : Bool) (start : Path) (use : FieldUse) (field resolved : Field Q) :
    Prop where
  aliasName : ∀ name ∈ resolved.aliasName, field.aliasName = some name
  isColumn : resolved.kind.isColumn = field.kind.isColumn
  key : grouped = true → use.place = .select → use.isArgument = false →
    resolved.IsGrouped use.groupKeys start

theorem isGrouped_of_isColumn {keys : SortedSet String} {field : Field Q}
    (other : field.kind.isColumn = false) : field.IsGrouped keys start := by
  intro path kind
  rw [kind] at other
  cases other

theorem resolvesTo_self {use : FieldUse} {field : Field Q} (other : field.kind.isColumn = false) :
    ResolvesTo grouped start use field field :=
  ⟨fun _ same => same, rfl, fun _ _ _ => isGrouped_of_isColumn other⟩

theorem resolvesTo_of_call {use : FieldUse} {field resolved : Field Q} {name : String}
    {arguments : List (Field Q)} (kind : field.kind = .call name arguments)
    (other : resolved.kind.isColumn = false)
    (aliasName : ∀ name ∈ resolved.aliasName, field.aliasName = some name) :
    ResolvesTo grouped start use field resolved :=
  ⟨aliasName, by rw [other, kind]; rfl, fun _ _ _ => isGrouped_of_isColumn other⟩

theorem resolveColumn_groups (use : FieldUse) {path : Path} {field : Field Q}
    (kind : field.kind = .column path) :
    Step.Yields (Groups grouped start) (field.resolveColumn use path)
      (ResolvesTo grouped start use field) := by
  refine resolveColumn_yields (Scope.qualify_groups use.registers path) (fun empty => ?_)
    fun scope qualified groups _ admitted => ?_
  · refine ⟨fun _ same => same, rfl, fun _ _ _ other same nonempty => absurd ?_ nonempty⟩
    cases kind.symm.trans same
    exact empty
  · refine ⟨fun _ same => same, by rw [kind]; rfl, fun counts select own other same _ => ?_⟩
    cases same
    rw [← Scope.primary_of_startsAt groups.starts]
    refine ⟨admitted.grouped own ?_, admitted.within select⟩
    simp [FieldUse.isGrouped, groups.isAggregation, counts, select]

theorem resolving_groups :
    Resolving (Groups (Q := Q) grouped start)
      (fun use field => CountsIn grouped use (Grouping.counts field))
      (ResolvesTo grouped start) where
  mention _ mentions groups := groups.mention mentions
  count := by
    intro use field name arguments counted kind count place scope groups
    refine ⟨groups.starts, (counted place ?_).symm⟩
    rw [Grouping.counts_eq_kindCounts, kind, Grouping.kindCounts, ← Grouping.isCount_lowerText, count,
      Bool.true_or]
  arguments := by
    intro use field name arguments counted kind argument member place counts
    refine counted place ?_
    rw [Grouping.counts_eq_kindCounts, kind, Grouping.kindCounts, Grouping.anyCounts_eq_any,
      List.any_eq_true.2 ⟨argument, member, counts⟩, Bool.or_true]
  column _ kind := resolveColumn_groups _ kind
  fieldSet _ kind := resolveFieldSet_yields fun _ => resolvesTo_of_call kind rfl (by simp)
  call _ kind _ := resolveCall_yields fun _ => resolvesTo_of_call kind rfl fun _ same => same
  unchanged _ other _ := resolvesTo_self other

theorem replaceKeys_eq_map (selected : SelectAliases Q) (depth : Nat) (keys : SortedSet String)
    (groupBy : List (Field Q)) :
    (replaceKeys selected depth keys groupBy).1 =
      groupBy.map fun key => (selectedFor? selected depth key).getD key := by
  induction groupBy generalizing keys with
  | nil => rfl
  | cons key rest induction =>
      unfold replaceKeys
      split <;> rename_i found <;> simp [found, induction]

/--
Rows are grouped by the key of the field, or else by that of a selected field
with an alias, which names the column of the field.
-/
def GroupedBy (start : Path) (field key : Field Q) : Prop :=
  key.key = field.key ∨
    ∃ aliasName, key.aliasName = some aliasName ∧ field.key = Path.key (start ++ [aliasName])

theorem Located.found {known : Path → Prop} {objects : List (SourceObject Q)} {field : Field Q}
    (located : field.Located known objects) {path : Path} (kind : field.kind.path? = some path) :
    path.FoundIn known objects field.key := by
  refine located field ?_ path kind
  rw [named_of_path? kind]
  exact List.mem_singleton_self _

section

variable {selected : SelectAliases Q} {key field : Field Q} {path : Path}

/-- The key is that of a column whose name is the alias of the field. -/
theorem selectedFor?_eq_some (kind : key.kind.path? = some path) {name : String}
    (same : path.same (start ++ [name]) = true)
    (found : selected.find? (lowerText name) = some field) :
    selectedFor? selected start.length key = some field := by
  rw [Path.same_iff, List.map_append] at same
  have length : path.length = start.length + 1 := by simpa using congrArg List.length same
  have last : path[start.length]?.map lowerText = some (lowerText name) := by
    simpa using congrArg (·[start.length]?) same
  obtain ⟨segment, present, alike⟩ := Option.map_eq_some_iff.1 last
  simp only [selectedFor?, kind, present, alike, found, length, Option.bind_eq_bind,
    Option.bind_some, if_true]

theorem exists_of_selectedFor?_eq_some (kind : key.kind.path? = some path)
    (begins : path.startsWith start = true)
    (found : selectedFor? selected start.length key = some field) :
    ∃ segment, path.same (start ++ [segment]) = true ∧
      selected.find? (lowerText segment) = some field := by
  obtain ⟨other, same, rest⟩ := Option.bind_eq_some_iff.1 found
  cases kind.symm.trans same
  split at rest
  · rename_i length
    obtain ⟨segment, present, found⟩ := Option.bind_eq_some_iff.1 rest
    refine ⟨segment, ?_, found⟩
    obtain ⟨last, lowered⟩ := (Path.startsWith_iff _ _).1 begins
    have single : last.length = 1 := by
      have lengths := congrArg List.length lowered
      simp only [List.length_append, List.length_map, length] at lengths
      omega
    obtain ⟨name, rfl⟩ := List.length_eq_one_iff.1 single
    have named := congrArg (·[start.length]?) lowered
    simp only [List.getElem?_map, present, Option.map_some] at named
    rw [Path.same_iff, List.map_append, ← lowered]
    simpa using named
  · cases rest

end

variable {known : Path → Prop} {objects : List (SourceObject Q)} {selected : SelectAliases Q}
  {fields groupBy : List (Field Q)}

/-- A selected column that was checked is grouped by one of the keys that take the place of others. -/
theorem exists_groupedBy (plain : start.Plain) (labels : Labels fields selected)
    (undotted : ∀ field ∈ fields, ∀ name ∈ field.aliasName, Undotted name)
    (columns : ∀ key ∈ groupBy, key.kind.isColumn = true)
    (located : ∀ key ∈ groupBy, key.Located known objects) {field : Field Q}
    (member : field ∈ fields) (own : field.Located known objects)
    (isColumn : field.kind.isColumn = true)
    (grouped : field.IsGrouped (SortedSet.ofList (groupBy.map (·.key))) start) :
    ∃ key ∈ groupBy.map fun key => (selectedFor? selected start.length key).getD key,
      field.GroupedBy start key := by
  have replaced {key : Field Q} (given : key ∈ groupBy) :
      (selectedFor? selected start.length key).getD key ∈
        groupBy.map fun key => (selectedFor? selected start.length key).getD key :=
    List.mem_map_of_mem given
  have found (key : Field Q) (given : key ∈ groupBy) :
      ∃ path, key.kind.path? = some path ∧ path.FoundIn known objects key.key := by
    obtain ⟨path, kind⟩ := exists_eq_column (columns key given)
    have names : key.kind.path? = some path := congrArg FieldKind.path? kind
    exact ⟨path, names, (located key given).found names⟩
  obtain ⟨path, kind⟩ := exists_eq_column isColumn
  have finds := own.found (congrArg FieldKind.path? kind)
  obtain ⟨isKey, begins⟩ := grouped path kind finds.plain.1
  rcases Bool.or_eq_true_iff.1 isKey with byKey | byAlias
  · obtain ⟨key, given, same⟩ := List.mem_map.1 ((SortedSet.contains_ofList _ _).1 byKey)
    obtain ⟨keyPath, names, keyFound⟩ := found key given
    have alike : keyPath.same path = true := keyFound.plain.same_of_key_eq finds.plain
      (keyFound.key.symm.trans (same.trans finds.key))
    refine ⟨_, replaced given, ?_⟩
    cases replaces : selectedFor? selected start.length key with
    | none => exact .inl same
    | some other =>
        have beginsToo : keyPath.startsWith start = true := by
          rw [Path.startsWith_iff] at begins ⊢
          rwa [(Path.same_iff _ _).1 alike]
        obtain ⟨segment, last, labelled⟩ :=
          exists_of_selectedFor?_eq_some names beginsToo replaces
        obtain ⟨_, aliasName, named, lowered⟩ := labels.named _ other labelled
        refine .inr ⟨aliasName, named, ?_⟩
        rw [← same, keyFound.key, Path.key_eq_of_same last]
        refine Path.key_eq_of_same ((Path.same_iff _ _).2 ?_)
        simp [lowered]
  · obtain ⟨aliasName, named, contains⟩ := (Option.any_eq_true _ _).1 byAlias
    obtain ⟨key, given, same⟩ := List.mem_map.1 ((SortedSet.contains_ofList _ _).1 contains)
    obtain ⟨keyPath, names, keyFound⟩ := found key given
    have aliasPlain : Path.Plain (start ++ [aliasName]) :=
      plain.append (by simpa using undotted field member aliasName named)
    have alike : keyPath.same (start ++ [aliasName]) = true :=
      keyFound.plain.same_of_key_eq aliasPlain (keyFound.key.symm.trans same)
    have replaces := selectedFor?_eq_some names alike (labels.listed field member aliasName named)
    refine ⟨_, replaced given, .inl ?_⟩
    rw [replaces]
    rfl

/-- Nothing that counts stands elsewhere than among the fields and where rows are restricted. -/
theorem countsIn_of_place {grouped : Bool} {use : FieldUse}
    (elsewhere : use.place = .filter ∨ use.place = .groupBy ∨ use.place = .orderBy)
    (counts : Bool) : CountsIn grouped use counts := by
  rintro (select | having)
  · simp [select] at elsewhere
  · simp [having] at elsewhere

end Field

namespace Statement

open Scope (Groups Leads)

variable {Q : Type} {known : Path → Prop} {statement : Statement Q}

/-- The path of the first object. -/
def primary (statement : Statement Q) : Path :=
  (statement.objects.head?.map (·.path)).getD []

/-- Where rows are grouped, each selected column is grouped by one of the keys. -/
def Grouped (statement : Statement Q) : Prop :=
  statement.isAggregation = true → ∀ field ∈ statement.fields, field.kind.isColumn = true →
    field.notSelected = false → ∃ key ∈ statement.groupBy, field.GroupedBy statement.primary key

namespace Course

variable {place : QueryPlace} {primary start : Path} {before : Scope Q}

theorem primary_resolved (course : Course place primary statement before)
    (starts : course.ordering.StartsAt start) : course.resolved.selectRead.primary = start := by
  obtain ⟨object, rest, objects, path⟩ := starts
  simp [Statement.primary, selectRead, resolved, objects, SourceObject.inOrder, path]

theorem groupBy_eq (course : Course place primary statement before) :
    course.groupBy = course.written.map fun key =>
      (Field.selectedFor? course.selected course.selecting.primary.length key).getD key := by
  have replaced := Field.replaceKeys_eq_map course.selected course.selecting.primary.length
    (SortedSet.ofList (course.written.map (·.key))) course.written
  rwa [course.replaces] at replaced

/-- Once calls that count are looked for among the fields, it is settled whether rows are grouped. -/
structure Groups (start : Path) (course : Course place primary statement before) : Prop where
  written : List.Forall₂
    (Field.ResolvesTo statement.isAggregation start { place := .groupBy, groupKeys := .empty })
    statement.groupBy course.written
  fields : List.Forall₂
    (Field.ResolvesTo (statement.isAggregation || statement.fields.any Grouping.counts) start
      { place := .select, groupKeys := SortedSet.ofList (course.written.map (·.key)) })
    statement.fields course.fields
  selecting : course.selecting.StartsAt start
  ordering : course.ordering.Groups
    (statement.isAggregation || statement.fields.any Grouping.counts) start

/-- Rows are restricted only where there are keys to group them by. -/
theorem groupBy_ne_nil (course : Course place primary statement before)
    (having : statement.having ≠ []) : statement.groupBy ≠ [] := by
  intro none
  have groups := course.groups
  rw [none] at groups
  injection groups with written
  exact course.keyed having (by rw [course.groupBy_eq, ← written]; rfl)

theorem isGrouped (course : Course place primary statement before)
    (aggregates : statement.groupBy ≠ [] → statement.isAggregation = true)
    (sourced : course.sourced.Groups statement.isAggregation start) : course.Groups start := by
  obtain ⟨written, grouping⟩ := Field.resolving_groups.resolveAll _ statement.groupBy
    (fun _ _ => Field.countsIn_of_place (.inr (.inl rfl)) _) sourced course.groups
  have counting : course.counting.Groups
      (statement.isAggregation || statement.fields.any Grouping.counts) start := by
    rw [course.counts, ← grouping.isAggregation]
    exact ⟨grouping.starts, rfl⟩
  obtain ⟨fields, selecting⟩ := course.forall₂_fields (fun field member =>
    Field.resolving_groups.resolveUnlessNested _ field fun _ counts =>
      Bool.or_eq_true_iff.2 (.inr (List.any_eq_true.2 ⟨field, member, counts⟩))) counting
  obtain ⟨_, filtering⟩ := course.forall₂_filter (fun field _ =>
    Field.resolving_groups.resolveUnlessNested _ field (Field.countsIn_of_place (.inl rfl) _)) selecting
  obtain ⟨_, restricting⟩ := course.forall₂_having (fun field member =>
    Field.resolving_groups.resolveUnlessNested _ field fun _ _ => by
      have having : statement.having ≠ [] := by
        intro none
        simp [none] at member
      rw [aggregates (course.groupBy_ne_nil having), Bool.true_or]) filtering
  obtain ⟨_, ordering⟩ := course.forall₂_orderBy
    (fun order _ => OrderKey.resolve_yields (fun _ => True) (fun _ _ _ _ => trivial) fun _ =>
      (Field.resolving_groups.resolve _ order.field
        (Field.countsIn_of_place (.inr (.inr rfl)) _)).mono fun _ _ => trivial) restricting
  exact ⟨written, fields, selecting.starts, ordering⟩

end Course

/-- Where names hold no dots, the selected columns of grouped rows are grouped by the keys. -/
theorem resolve_grouped (place : QueryPlace) {primary : Path} (primaryPlain : primary.Plain)
    (declared : ∀ object ∈ statement.objects, Declared object) (undotted : statement.Undotted)
    (filtered : Condition.IsFilter statement.filter) (having : Condition.IsFilter statement.having)
    (written : statement.GroupsAsWritten) {before : Scope Q}
    (own : before.objects = statement.objects) (objects : before.objects ≠ [])
    (aggregates : before.isAggregation = statement.isAggregation)
    (inherits : Scope.Inherits known before.aliases) :
    Step.Meets (statement.resolve place primary) before (fun result _ => result.1.Grouped)
      CompileError.IsSemantic := by
  refine (resolve_course place primary filtered having before).mono ?_
  rintro _ _ ⟨course, rfl, rfl⟩
  have sound := (Scope.resolveObjects_sound place primaryPlain (own ▸ declared)
    (own ▸ undotted.objects) inherits).of_ok course.sources
  have nonempty := (Scope.resolveObjects_meets place primary objects).of_ok course.sources
  have plain := Scope.primary_plain sound nonempty
  have located := course.isLocated undotted.names sound nonempty
  have kept := (Scope.resolveObjects_isAggregation place primary).of_ok course.sources
  have groups := course.isGrouped
    (fun given => written.aggregates.trans (by simpa using given))
    ⟨Scope.exists_startsAt nonempty, kept.trans aggregates⟩
  generalize course.sourced.primary = start at plain groups
  intro isAggregation field member isColumn selectedToo
  have isGrouped := groups.ordering.isAggregation.symm.trans isAggregation
  rw [fields_selectRead] at member
  rcases List.mem_append.1 member with own | added
  · rw [course.primary_resolved groups.ordering.starts]
    change ∃ key ∈ course.groupBy, field.GroupedBy start key
    rw [course.groupBy_eq, Scope.primary_of_startsAt groups.selecting]
    refine Field.exists_groupedBy plain course.labels ?_ ?_ located.written own (located.fields field own)
      isColumn ?_
    · intro resolved member name named
      obtain ⟨earlier, present, resolves⟩ := Step.exists_of_forall₂ groups.fields member
      exact written.aliases earlier present name (resolves.aliasName name named)
    · intro key member
      obtain ⟨earlier, present, resolves⟩ := Step.exists_of_forall₂ groups.written member
      exact resolves.isColumn.trans (written.columns earlier present)
    · obtain ⟨_, _, resolves⟩ := Step.exists_of_forall₂ groups.fields own
      exact resolves.key isGrouped rfl rfl
  · obtain ⟨column, _, rfl⟩ := List.mem_map.1 added
    cases selectedToo

end Statement

end ObjectQuery
