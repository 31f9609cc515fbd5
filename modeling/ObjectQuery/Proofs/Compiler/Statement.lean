import ObjectQuery.Compiler.Query
import ObjectQuery.Proofs.Numbering.Nested
import ObjectQuery.Proofs.Plan.Column
import ObjectQuery.Proofs.Plan.Decomposition
import ObjectQuery.Proofs.Query.Parsed

namespace ObjectQuery

/-!
Compiling a statement by itself. The statement gets a number, its residual is
cut from its filter, and the queries nested in it stay as they are.
-/

namespace SourceObject

/-- The objects with their queries, before they share the filter and after. -/
structure Shares (before after : SourceObject Query) : Prop where
  bare : after.bare = before.bare
  fields : after.plan.map (·.body.fields) = before.plan.map (·.body.fields)

theorem shares_withShare (statement : Statement Query)
    (tree : Option (ConditionTree (Field Query))) (isPrimary : Bool)
    (object : SourceObject Query) : object.Shares (object.withShare statement tree isPrimary) where
  bare := rfl
  fields := by simp [withShare, Function.comp_def]

theorem shares_shareAll (statement : Statement Query)
    (tree : Option (ConditionTree (Field Query))) (objects : List (SourceObject Query)) :
    List.Forall₂ Shares objects (shareAll statement tree objects) := by
  cases objects with
  | nil => exact .nil
  | cons primary rest =>
      refine .cons (shares_withShare ..) ?_
      rw [List.forall₂_map_right_iff, List.forall₂_same]
      exact fun object _ => shares_withShare ..

theorem map_bare_of_shares {before after : List (SourceObject Query)}
    (shares : List.Forall₂ Shares before after) :
    after.map SourceObject.bare = before.map SourceObject.bare := by
  induction shares with
  | nil => rfl
  | cons first others induction => rw [List.map_cons, List.map_cons, first.bare, induction]

theorem forall_of_shares {before after : List (SourceObject Query)}
    {property : SourceObject Query → Prop} (shares : List.Forall₂ Shares before after)
    (keeps : ∀ {object other}, Shares object other → property object → property other)
    (holds : ∀ object ∈ before, property object) : ∀ object ∈ after, property object := by
  induction shares with
  | nil => exact holds
  | cons first others induction =>
      obtain ⟨head, tail⟩ := List.forall_mem_cons.1 holds
      exact List.forall_mem_cons.2 ⟨keeps first head, induction tail⟩

/-- The query of the object returns the fields of its own among the given ones. -/
def Plans (fields : List (Field Query)) (object : SourceObject Query) : Prop :=
  ∃ plan, object.plan = some plan ∧ plan.body.fields = ownFields object.path fields

theorem plans_withPlan (fields : List (Field Query)) (object : SourceObject Query) :
    (object.withPlan fields).Plans fields :=
  ⟨_, rfl, rfl⟩

theorem Shares.plans {fields : List (Field Query)} {object other : SourceObject Query}
    (shares : object.Shares other) (plans : object.Plans fields) : other.Plans fields := by
  obtain ⟨plan, planned, returned⟩ := plans
  have same := shares.fields
  rw [planned, Option.map_some, Option.map_eq_some_iff] at same
  obtain ⟨own, present, kept⟩ := same
  have path : other.path = object.path := congrArg (fun named => named.path) shares.bare
  exact ⟨own, present, by rw [kept, returned, path]⟩

theorem mem_shareAll {statement : Statement Query}
    {tree : Option (ConditionTree (Field Query))} {objects : List (SourceObject Query)}
    {object : SourceObject Query} (member : object ∈ shareAll statement tree objects) :
    ∃ own ∈ objects, ∃ isPrimary, object = own.withShare statement tree isPrimary := by
  cases objects with
  | nil => cases member
  | cons primary rest =>
      rcases List.mem_cons.1 member with rfl | later
      · exact ⟨primary, List.mem_cons_self, true, rfl⟩
      · obtain ⟨own, given, rfl⟩ := List.mem_map.1 later
        exact ⟨own, List.mem_cons_of_mem _ given, false, rfl⟩

end SourceObject

namespace Condition

/-- Shares of the filter are parts of it, and what is left for the joined rows can be told. -/
theorem IsFilter.exists_tree {conditions : List (Condition (Field Query))}
    (filter : IsFilter conditions) :
    ∃ tree, ConditionTree.ofPostfix conditions = .ok tree ∧
      (∀ path, ((tree.map fun tree => (tree.shareOf path).2).getD []).Sublist conditions) ∧
      ∀ paths, ∃ left, residualOf conditions tree paths = .ok left := by
  rcases filter with rfl | ⟨formula, rfl⟩
  · exact ⟨none, rfl, fun _ => .refl _, fun _ => ⟨[], rfl⟩⟩
  · refine ⟨_, formula.ofPostfix_postfixList,
      fun path => formula.share_tree_sublist (Field.isReadBy path) 0, fun paths => ?_⟩
    obtain ⟨left, cut, _⟩ :=
      formula.passes_residual_iff (paths.map Field.isReadBy) Truth.bySign
    exact ⟨left, cut⟩

end Condition

namespace Statement

open Correlation (Extends Placed)

variable {reads : Path → String → Prop} {statement : Statement Query}

/-- The places of columns with those that the objects of a statement give to their own. -/
def ownIndexes (statement : Statement Query) (indexes : SortedMap String Nat) :
    SortedMap String Nat :=
  (statement.objects.map (·.withPlan statement.fields)).foldl SourceObject.addIndexes indexes

/-- A statement for one object, under parts of the filter and the order of the whole. -/
structure PartOf (whole part : Statement Query) : Prop where
  filter : part.filter.Sublist whole.filter
  orderBy : part.orderBy ⊆ whole.orderBy
  groupBy : part.groupBy = []
  having : part.having = []
  residual : part.residual = []
  objects : ∀ object ∈ part.objects, object.plan = none

/-- What planning makes of a statement, of the query around it and of the places of columns. -/
structure Planned (reads : Path → String → Prop) (statement planned : Statement Query)
    (start finish : Correlation) : Prop where
  alike : statement.Alike planned
  labels : planned.fields.map (fun field => (field.aliasName, field.columnId)) =
    statement.fields.map fun field => (field.aliasName, field.columnId)
  residual : planned.residual.Sublist planned.filter
  plans : ∀ object ∈ planned.objects, object.Plans statement.fields
  parts : ∀ object ∈ planned.objects, ∀ plan, object.plan = some plan → planned.PartOf plan.body
  grows : Extends reads start finish
  correlated : finish.isCorrelated = true → planned.isCorrelated = true
  placed : ∀ column ∈ planned.columns, Placed start column
  correlates : ∀ column ∈ planned.columns, ∀ field ∈ Field.allColumns planned.fields,
    field.key = column.key → ∀ own path, column.kind = .column own → field.kind = .column path →
    own.length ≤ planned.primaryLength → path.length ≤ planned.primaryLength →
    planned.isCorrelated = true ∧
      ∃ index, column.columnIndex = some index ∧ finish.indexes.find? column.key = some index

theorem primaryLength_of_bare {before after : Statement Q}
    (same : after.objects.map SourceObject.bare = before.objects.map SourceObject.bare) :
    after.primaryLength = before.primaryLength := by
  have heads := congrArg List.head? same
  rw [List.head?_map, List.head?_map] at heads
  have lengths := congrArg (Option.map fun object => object.path.length) heads
  simp only [Option.map_map] at lengths
  exact congrArg (·.getD 0) lengths

theorem indexColumns_meets (statement : Statement Query) (parent : Option (Statement Query))
    (before : Session) :
    Step.Meets (statement.indexColumns parent) before
      (fun result after => ∃ finish, Correlation.indexStatement statement
          { indexes := before.registry.columnIndexes, parent } = .ok result.1 finish ∧
        result.2 = finish.parent ∧ after = { before with
          registry := { before.registry with columnIndexes := finish.indexes } })
      CompileError.IsSemantic := by
  unfold Step.Meets indexColumns
  dsimp only
  cases run : Correlation.indexStatement statement
      { indexes := before.registry.columnIndexes, parent } with
  | ok indexed finish => exact ⟨finish, rfl, rfl, rfl⟩
  | error error finish => exact ⟨error, rfl⟩

theorem filterTree_meets (conditions : List (Condition (Field Query))) (before : Session) :
    Step.Meets (filterTree conditions) before
      (fun tree after => ConditionTree.ofPostfix conditions = .ok tree ∧ after = before)
      fun _ => ¬Condition.IsFilter conditions := by
  unfold filterTree
  split
  · exact .pure ⟨‹_›, rfl⟩
  · refine .throw fun filter => ?_
    obtain ⟨tree, built, _⟩ := filter.exists_tree
    simp_all

/-- The steps of planning a statement, and what they lead to. -/
structure PlanCourse (statement : Statement Query) (parent : Option (Statement Query))
    (before : Session) where
  indexed : Statement Query
  finish : Correlation
  indexes : Correlation.indexStatement
    { statement with objects := statement.objects.map (·.withPlan statement.fields) }
    { indexes := statement.ownIndexes before.registry.columnIndexes, parent } =
      .ok indexed finish
  tree : Option (ConditionTree (Field Query))
  reads : ConditionTree.ofPostfix indexed.filter = .ok tree
  residual : List (Condition (Field Query))
  cuts : Condition.residualOf indexed.filter tree
    ((SourceObject.shareAll indexed tree indexed.objects).map (·.path)) = .ok residual

namespace PlanCourse

variable {parent : Option (Statement Query)} {before : Session}

def planned (course : PlanCourse statement parent before) : Statement Query :=
  { course.indexed with
    objects := SourceObject.shareAll course.indexed course.tree course.indexed.objects
    residual := course.residual }

def after (course : PlanCourse statement parent before) : Session :=
  { before with registry := { before.registry with columnIndexes := course.finish.indexes } }

theorem indexing (course : PlanCourse statement parent before)
    (holds : Field.AllRead reads statement.columns) :
    Indexed reads
      { statement with objects := statement.objects.map (·.withPlan statement.fields) }
      course.indexed { indexes := statement.ownIndexes before.registry.columnIndexes, parent }
      course.finish := by
  have reading : Field.AllRead reads (columns
    { statement with objects := statement.objects.map (·.withPlan statement.fields) }) := holds
  exact (indexStatement_meets reading _).of_ok course.indexes

theorem objects_indexed (course : PlanCourse statement parent before) :
    course.indexed.objects = statement.objects.map (·.withPlan statement.fields) :=
  (course.indexing statement.allRead_columns).objects

end PlanCourse

/-- Planning follows a course, or its author is to blame where the filter is one. -/
theorem plan_course (statement : Statement Query) (parent : Option (Statement Query))
    (before : Session) :
    Step.Meets (statement.plan parent) before
      (fun result after => ∃ course : PlanCourse statement parent before,
        result = (course.planned, course.finish.parent) ∧ after = course.after)
      fun error => Condition.IsFilter statement.filter → error.IsSemantic := by
  refine .modify_bind (((indexColumns_meets _ parent _).excuse fun _ semantic _ => semantic).bind ?_)
  rintro ⟨indexed, _⟩ _ ⟨finish, indexes, rfl, rfl⟩
  have form (filter : Condition.IsFilter statement.filter) : Condition.IsFilter indexed.filter :=
    filter.of_map_eq ((indexStatement_meets (allRead_columns _) _).of_ok indexes).alike.filter
  refine ((filterTree_meets indexed.filter _).excuse fun _ fails filter =>
    absurd (form filter) fails).bind ?_
  rintro tree _ ⟨reads, rfl⟩
  dsimp only
  split
  · rename_i residual cuts
    exact .pure ⟨⟨indexed, finish, indexes, tree, reads, residual, cuts⟩, rfl, rfl⟩
  · rename_i count fails
    refine .throw fun filter => ?_
    obtain ⟨other, built, _, cut⟩ := (form filter).exists_tree
    cases reads.symm.trans built
    obtain ⟨residual, cuts⟩ := cut ((SourceObject.shareAll indexed tree indexed.objects).map (·.path))
    simp_all

theorem PlanCourse.isPlanned {parent : Option (Statement Query)} {before : Session}
    (course : PlanCourse statement parent before) (holds : Field.AllRead reads statement.columns)
    (filter : Condition.IsFilter statement.filter) :
    statement.Planned reads course.planned
      { indexes := statement.ownIndexes before.registry.columnIndexes, parent } course.finish := by
  have indexing := course.indexing holds
  obtain ⟨tree, built, shared, _⟩ := (filter.of_map_eq indexing.alike.filter).exists_tree
  cases course.reads.symm.trans built
  have shares := SourceObject.shares_shareAll course.indexed course.tree course.indexed.objects
  have length : course.planned.primaryLength = course.indexed.primaryLength :=
    primaryLength_of_bare (SourceObject.map_bare_of_shares shares)
  exact {
    alike := { indexing.alike with
      objects := by
        rw [planned, SourceObject.map_bare_of_shares shares, indexing.objects, List.map_map]
        rfl }
    labels := indexing.labels
    residual := Condition.residual_sublist course.cuts
    plans := by
      refine SourceObject.forall_of_shares shares (fun share => share.plans) ?_
      rw [indexing.objects, List.forall_mem_map]
      exact fun object _ => object.plans_withPlan statement.fields
    parts := by
      intro object member plan given
      obtain ⟨own, listed, isPrimary, rfl⟩ := SourceObject.mem_shareAll member
      rw [indexing.objects] at listed
      obtain ⟨bare, _, rfl⟩ := List.mem_map.1 listed
      cases given
      exact {
        filter := shared bare.path
        orderBy := List.filter_subset_self _
        groupBy := rfl
        having := rfl
        residual := rfl
        objects := by simp }
    grows := indexing.grows
    correlated := indexing.correlated
    placed := indexing.placed
    correlates := by
      intro column member field reads key own path kind fieldKind short fieldShort
      rw [length] at short fieldShort
      exact indexing.correlates column member field reads key own path kind fieldKind short
        fieldShort }

/-- The names that a statement knows before it is resolved. -/
def scope (statement : Statement Q) (aliases : AliasMap) (mentions : Mentions) : Scope Q :=
  ⟨statement.objects, aliases, statement.isAggregation, mentions⟩

theorem resolveNames_meets (statement : Statement Query) (place : QueryPlace) (primary : Path)
    (aliases : AliasMap) (before : Session) :
    Step.Meets (statement.resolveNames place primary aliases) before
      (fun result after => ∃ scope,
        statement.resolve place primary (statement.scope aliases before.mentions) =
          .ok (result.1, result.2.1) scope ∧
        result.2.2 = scope.aliases ∧ after = { before with mentions := scope.mentions })
      fun error => ∃ scope,
        statement.resolve place primary (statement.scope aliases before.mentions) =
          .error error scope := by
  unfold Step.Meets resolveNames
  dsimp only
  rw [← scope]
  cases run : statement.resolve place primary (statement.scope aliases before.mentions) with
  | ok result scope => exact ⟨scope, rfl, rfl, rfl⟩
  | error error scope => exact ⟨scope, rfl⟩

end Statement

/-- Where a query is compiled. -/
structure Site where
  place : QueryPlace
  depth : Nat
  /-- The names that lists of related rows may use. -/
  inherited : AliasMap
  /-- The statement around the query. -/
  parent : Option (Statement Query)

namespace Site

/-- A list of related rows belongs to a query that reads from objects. -/
def HasParent (site : Site) : Prop :=
  site.place = .select → ∃ statement ∈ site.parent, statement.objects ≠ []

/-- The names that are known where the query is compiled. -/
def aliases (site : Site) : AliasMap :=
  if site.place = .select then site.inherited else .empty

/-- The query that columns may be fetched from. -/
def source (site : Site) : Option (Statement Query) :=
  if site.place = .select then site.parent else none

/-- What the graph of queries records of a query. -/
def node (site : Site) : QueryNode :=
  ⟨site.parent.map (·.id), site.depth, site.place == .conditional⟩

/-- The session with the number that the query takes. -/
def register (site : Site) (session : Session) : Session :=
  { session with
    nextQueryId := session.nextQueryId + 1
    maxQueryDepth := max session.maxQueryDepth site.depth
    queryGraph := session.queryGraph.insert session.nextQueryId site.node }

end Site

namespace Statement

open Correlation (Extends Placed)

variable {statement : Statement Query}

/-- The statement with its number and that of the query around it. -/
def registered (id : Nat) (parent : Option (Statement Query)) (statement : Statement Query) :
    Statement Query :=
  { statement with id, parentId := parent.map (·.id) }

theorem primaryPath_fails {site : Site} (hasParent : site.HasParent)
    (nonempty : statement.objects ≠ []) {error : CompileError}
    (failed : primaryPath site.place site.parent statement = .error error) :
    error.IsSemantic := by
  unfold primaryPath at failed
  split at failed
  · exact absurd (List.head?_eq_none_iff.1 ‹_›) nonempty
  · obtain ⟨around, present, objects⟩ := hasParent ‹_›
    obtain ⟨object, rest, listed⟩ := List.exists_cons_of_ne_nil objects
    simp [Option.mem_def.1 present, listed] at failed
  · split at failed
    · cases failed
    · cases failed
      exact ⟨_, rfl⟩
  · split at failed
    · cases failed
    · cases failed
      exact ⟨_, rfl⟩

/-- How the names of a statement are resolved where it is compiled. -/
structure ResolvedAt (site : Site) (statement resolved : Statement Query) (aliases : AliasMap) :
    Prop where
  run : ∃ primary mentions selected scope,
    primaryPath site.place site.parent statement = .ok primary ∧
    statement.resolve site.place primary (statement.scope site.aliases mentions) =
      .ok (resolved, selected) scope ∧
    aliases = scope.aliases

/--
What compiling a statement by itself makes of it, on the way from names that are
resolved over parts that are numbered to the queries of its objects.
-/
structure OwnCompiled (site : Site) (statement : Statement Query) (before : Session)
    (own : Statement Query) (around : Option (Statement Query)) (aliases : AliasMap)
    (after : Session) : Prop where
  limit : ∀ limit, before.limit = some limit → site.depth ≤ limit
  tally : after.tally = before.tally.register site.node
  id : own.id = before.nextQueryId
  parentId : own.parentId = site.parent.map (·.id)
  nested : own.nested = statement.nested
  objects : own.objects ≠ []
  bounds : own.bounds = statement.bounds
  residual : own.residual.Sublist own.filter
  grown : Option.Rel (Grown fun _ _ => True) site.parent around
  planned : ∃ resolved numbered finish,
    ResolvedAt site (statement.registered before.nextQueryId site.parent) resolved aliases ∧
    resolved.Alike numbered ∧
    numbered.Planned resolved.Reads own
      { indexes := numbered.ownIndexes before.registry.columnIndexes, parent := site.source }
      finish ∧
    around = (if site.place = .select then finish.parent else site.parent) ∧
    after.registry.columnIndexes = finish.indexes

theorem Parsed.registered (read : statement.Parsed) (id : Nat) (parent : Option (Statement Query)) :
    Condition.IsFilter (statement.registered id parent).filter ∧
      Condition.IsFilter (statement.registered id parent).having :=
  ⟨read.filter, read.having⟩

theorem resolve_registered (read : statement.Parsed) (site : Site) (id : Nat) (primary : Path)
    (mentions : Mentions) :
    Step.Meets ((statement.registered id site.parent).resolve site.place primary)
      ((statement.registered id site.parent).scope site.aliases mentions)
      (fun result _ => (statement.registered id site.parent).Resolves result.1)
      CompileError.IsSemantic := by
  obtain ⟨filtered, grouped⟩ := read.registered id site.parent
  have objects : ((statement.registered id site.parent).scope site.aliases mentions).objects ≠ [] :=
    read.objects
  exact resolve_meets site.place primary filtered grouped objects

/-- The steps of compiling a statement by itself, and what they lead to. -/
structure OwnCourse (site : Site) (statement : Statement Query) (before : Session) where
  within : ∀ limit, before.limit = some limit → site.depth ≤ limit
  primary : Path
  begins : primaryPath site.place site.parent
    (statement.registered before.nextQueryId site.parent) = .ok primary
  resolved : Statement Query
  selected : SelectAliases Query
  scope : Scope Query
  resolves : (statement.registered before.nextQueryId site.parent).resolve site.place primary
    ((statement.registered before.nextQueryId site.parent).scope site.aliases before.mentions) =
      .ok (resolved, selected) scope
  numbered : Statement Query
  planning : Session
  numbers : resolved.assignIds site.depth selected
    { site.register before with mentions := scope.mentions } = .ok numbered planning
  plan : PlanCourse numbered site.source planning

namespace OwnCourse

variable {site : Site} {before : Session}

def around (course : OwnCourse site statement before) : Option (Statement Query) :=
  if site.place = .select then course.plan.finish.parent else site.parent

/-- Nothing is borrowed from the query around a query in a condition. -/
theorem relates_around (course : OwnCourse site statement before)
    (related : Option (Statement Query) → Option (Statement Query) → Prop)
    (borrowed : related site.source course.plan.finish.parent)
    (kept : related site.parent site.parent) : related site.parent course.around := by
  unfold around
  generalize course.plan.finish.parent = fetched at borrowed ⊢
  split
  · rename_i select
    rwa [Site.source, if_pos select] at borrowed
  · exact kept

theorem alike (course : OwnCourse site statement before) : course.resolved.Alike course.numbered :=
  ((assignIds_meets site.depth course.selected course.resolved _).of_ok course.numbers).1

end OwnCourse

/-- A statement is compiled by itself along a course, or its author is to blame where it was read. -/
theorem compileOwn_course {site : Site} (before : Session) :
    Step.Meets (statement.compileOwn site.place site.depth site.inherited site.parent) before
      (fun result after => ∃ course : OwnCourse site statement before,
        result = (course.plan.planned, course.around, course.scope.aliases) ∧
          after = course.plan.after)
      fun error => statement.Parsed → site.HasParent → error.IsSemantic := by
  have own (within : ∀ limit, before.limit = some limit → site.depth ≤ limit) : Step.Meets (do
      let statement ← Compilation.ofState (statement.register site.place site.depth site.parent)
      let primary ← Compilation.ofExcept (primaryPath site.place site.parent statement)
      let inherited := if site.place = .select then site.inherited else .empty
      let named ← statement.resolveNames site.place primary inherited
      let statement ← named.1.assignIds site.depth named.2.1
      let planned ← statement.plan (if site.place = .select then site.parent else none)
      return (planned.1, if site.place = .select then planned.2 else site.parent, named.2.2)) before
      (fun result after => ∃ course : OwnCourse site statement before,
        result = (course.plan.planned, course.around, course.scope.aliases) ∧
          after = course.plan.after)
      fun error => statement.Parsed → site.HasParent → error.IsSemantic := by
    have registers : Step.Meets
        (Compilation.ofState (statement.register site.place site.depth site.parent)) before
        (fun registered after => registered = statement.registered before.nextQueryId site.parent ∧
          after = site.register before)
        fun error => statement.Parsed → site.HasParent → error.IsSemantic :=
      ⟨rfl, rfl⟩
    refine registers.bind ?_
    rintro _ _ ⟨rfl, rfl⟩
    refine (Compilation.ofExcept_meets _ fun error fails read hasParent =>
      primaryPath_fails hasParent read.objects fails).bind ?_
    rintro primary _ ⟨begins, rfl⟩
    refine ((resolveNames_meets _ site.place primary site.aliases _).excuse
      fun error ⟨_, fails⟩ read _ =>
        (resolve_registered read site _ primary before.mentions).of_error fails).bind ?_
    rintro ⟨resolved, selected, _⟩ _ ⟨scope, resolves, rfl, rfl⟩
    refine ((assignIds_meets site.depth selected resolved _).excuse
      fun error semantic _ _ => semantic).run.bind ?_
    rintro numbered planning ⟨⟨alike, _⟩, numbers⟩
    refine ((plan_course numbered site.source planning).excuse fun error semantic read _ =>
      semantic ?_).bind ?_
    · have resolved := (resolve_registered read site _ primary before.mentions).of_ok resolves
      exact resolved.filter.of_map_eq alike.filter
    · rintro _ _ ⟨plan, rfl, rfl⟩
      exact .pure ⟨⟨within, primary, begins, resolved, selected, scope, resolves, numbered,
        planning, numbers, plan⟩, rfl, rfl⟩
  refine .get_bind ?_
  dsimp only
  split
  · rename_i limit limited
    refine .guarded (fun _ _ _ => ⟨_, rfl⟩) fun within => own fun other same => ?_
    rw [limited] at same
    cases same
    exact Nat.le_of_not_lt within
  · rename_i unlimited
    exact own fun other same => by
      rw [same] at unlimited
      exact absurd rfl (unlimited other)

namespace OwnCourse

variable {site : Site} {before : Session}

theorem isResolved (course : OwnCourse site statement before) (read : statement.Parsed) :
    (statement.registered before.nextQueryId site.parent).Resolves course.resolved :=
  (resolve_registered read site _ course.primary before.mentions).of_ok course.resolves

theorem isPlanned (course : OwnCourse site statement before) (read : statement.Parsed) :
    course.numbered.Planned course.resolved.Reads course.plan.planned
      { indexes := course.numbered.ownIndexes before.registry.columnIndexes, parent := site.source }
      course.plan.finish := by
  obtain ⟨_, kept, _⟩ :=
    (assignIds_meets site.depth course.selected course.resolved _).of_ok course.numbers
  have indexes : course.planning.registry.columnIndexes = before.registry.columnIndexes :=
    kept.indexes
  exact indexes ▸ course.plan.isPlanned
    (course.resolved.allRead_columns.of_bare course.alike.columns)
    ((course.isResolved read).filter.of_map_eq course.alike.filter)

theorem isCompiled (course : OwnCourse site statement before) (read : statement.Parsed) :
    OwnCompiled site statement before course.plan.planned course.around course.scope.aliases
      course.plan.after := by
  obtain ⟨_, kept, _⟩ :=
    (assignIds_meets site.depth course.selected course.resolved _).of_ok course.numbers
  have resolves := course.isResolved read
  have planned := course.isPlanned read
  have whole := course.alike.trans planned.alike
  exact {
    limit := course.within
    tally := kept.tally
    id := whole.id.trans resolves.id
    parentId := whole.parentId.trans resolves.parentId
    nested := whole.nested.trans resolves.nested
    objects := whole.objects_ne_nil resolves.objects
    bounds := whole.bounds.trans resolves.bounds
    residual := planned.residual
    grown := course.relates_around (Option.Rel _)
      (Correlation.rel_mono planned.grows.parent fun _ _ _ => trivial)
      (Correlation.rel_refl site.parent)
    planned :=
      ⟨course.resolved, course.numbered, course.plan.finish,
        ⟨course.primary, before.mentions, course.selected, course.scope, course.begins,
          course.resolves, rfl⟩, course.alike, planned, rfl, rfl⟩ }

end OwnCourse

theorem compileOwn_meets {site : Site} (read : statement.Parsed) (hasParent : site.HasParent)
    (before : Session) :
    Step.Meets (statement.compileOwn site.place site.depth site.inherited site.parent) before
      (fun result after =>
        OwnCompiled site statement before result.1 result.2.1 result.2.2 after)
      CompileError.IsSemantic := by
  refine ((compileOwn_course before).excuse fun _ excused => excused read hasParent).mono ?_
  rintro _ _ ⟨course, rfl, rfl⟩
  exact course.isCompiled read

end Statement

end ObjectQuery
