import ObjectQuery.Proofs.Compiler.Cohort
import ObjectQuery.Proofs.Compiler.Contained
import ObjectQuery.Proofs.Resolution.Order

namespace ObjectQuery

/-!
The numbers of queries in conditions. None of the numbers of objects and columns
in such a query is found outside of it, but that queries in conditions of one
query have the same numbers for what has the same key.
-/

namespace SourceObject

variable {Q : Type}

/-- The numbers of an object and of its parent, with the keys that they are given for. -/
def viewMarks (object : SourceObject Q) : List Mark :=
  [⟨true, object.key, object.viewId⟩, ⟨true, Path.key object.path.parent, object.parentViewId⟩]

theorem viewMarks_unplanned (object : SourceObject Q) : object.unplanned.viewMarks = object.viewMarks :=
  rfl

end SourceObject

def Session.views (session : Session) : Ledger :=
  session.chart.views

namespace Ledger

/-- The marks have no numbers but those of their keys. -/
def HasAll (ledger : Ledger) (marks : List Mark) : Prop :=
  ∀ mark ∈ marks, ∀ id, mark.id = some id → ledger.Has mark id

variable {before after : Ledger} {marks : List Mark}

theorem HasAll.mono (has : before.HasAll marks) (grows : before.Grows after) : after.HasAll marks :=
  fun mark member id numbered => (has mark member id numbered).mono grows

end Ledger

open Session (Leads)

namespace SourceObject

variable {Q : Type}

/-- An object that is not linked yet has no number afterwards but those of its key and its parent's. -/
theorem assignId_hasAll (queryId queryDepth : Nat) {object : SourceObject Q}
    (unlinked : object.parentViewId = none) {before : Session} (sound : before.views.Sound) :
    Leads (object.assignId queryId queryDepth) before fun numbered after =>
      before.views.Grows after.views ∧ after.views.HasAll numbered.viewMarks := by
  have viewed : Leads (Session.viewId object.key) before fun id after =>
      Chart.Gives before.views after.views object.key id := by
    have get : Leads get before fun session after => session = before ∧ after = before :=
      ⟨rfl, rfl⟩
    refine get.bind ?_
    rintro _ _ ⟨rfl, rfl⟩
    split
    · exact .inl ⟨‹_›, rfl⟩
    · exact .inr ⟨‹_›, rfl, rfl⟩
  refine viewed.bind fun id middle gives => ?_
  refine ⟨gives.grows sound, List.forall_mem_cons.2 ⟨?_, List.forall_mem_singleton.2 ?_⟩⟩
  · rintro _ ⟨⟩
    exact ⟨rfl, gives.find?⟩
  · intro parentId linked
    have linked : (if 1 < object.path.length then
        middle.registry.viewIds.find? (Path.key object.path.parent) <|> object.parentViewId
      else object.parentViewId) = some parentId := linked
    rw [unlinked] at linked
    split at linked
    · simp only [Option.orElse_eq_orElse, Option.orElse_eq_or, Option.or_none] at linked
      exact ⟨rfl, linked⟩
    · cases linked

end SourceObject

namespace Statement

variable {Q : Type}

/-- The numbers of the objects of a statement and of their parents. -/
def viewMarks (statement : Statement Q) : List Mark :=
  statement.objects.flatMap SourceObject.viewMarks

/-- The numbers of all objects in a statement, also of those in the queries of its objects. -/
def wholeViewMarks (statement : Statement Query) : List Mark :=
  statement.wholeObjects.flatMap SourceObject.viewMarks

theorem Contained.wholeViewMarks {statement : Statement Query} (contained : statement.Contained) :
    statement.wholeViewMarks ⊆ statement.viewMarks := by
  intro mark member
  obtain ⟨object, given, own⟩ := List.mem_flatMap.1 member
  obtain ⟨other, present, same⟩ := contained.wholeObjects given
  refine List.mem_flatMap.2 ⟨other, present, ?_⟩
  rwa [← other.viewMarks_unplanned, ← same]

theorem viewMarks_of_unplanned {statement other : Statement Q}
    (same : other.objects.map SourceObject.unplanned = statement.objects.map SourceObject.unplanned) :
    other.viewMarks = statement.viewMarks := by
  have marks := congrArg (·.flatMap SourceObject.viewMarks) same
  simp only [List.flatMap_map, SourceObject.viewMarks_unplanned] at marks
  exact marks

theorem assignViewIds_hasAll (depth : Nat) {statement : Statement Q} {before : Session}
    (unlinked : ∀ object ∈ statement.objects, object.parentViewId = none)
    (sound : before.views.Sound) :
    Leads (statement.assignViewIds depth) before fun viewed after =>
      before.views.Grows after.views ∧ after.views.HasAll viewed.viewMarks := by
  have objects (objects : List (SourceObject Q))
      (unlinked : ∀ object ∈ objects, object.parentViewId = none) (before : Session)
      (sound : before.views.Sound) :
      Leads (objects.mapM (·.assignId statement.id depth)) before fun viewed after =>
        before.views.Grows after.views ∧
          after.views.HasAll (viewed.flatMap SourceObject.viewMarks) := by
    induction objects generalizing before with
    | nil => exact ⟨.refl sound, fun _ member => nomatch member⟩
    | cons object rest induction =>
        obtain ⟨first, later⟩ := List.forall_mem_cons.1 unlinked
        rw [List.mapM_cons]
        refine (SourceObject.assignId_hasAll statement.id depth first sound).bind ?_
        rintro viewed middle ⟨grows, own⟩
        refine (induction later middle grows.sound).bind ?_
        rintro others after ⟨growing, has⟩
        exact ⟨grows.trans growing, List.forall_mem_append.2 ⟨own.mono growing, has⟩⟩
  exact (objects statement.objects unlinked before sound).bind fun viewed after held => held

theorem assignIds_hasAll (depth : Nat) (selected : SelectAliases Query)
    {statement : Statement Query} {before : Session}
    (unlinked : ∀ object ∈ statement.objects, object.parentViewId = none)
    (sound : before.views.Sound) :
    Step.Meets (statement.assignIds depth selected) before fun numbered after =>
      before.views.Grows after.views ∧ after.views.HasAll numbered.viewMarks := by
  have views : Step.Meets (Compilation.ofState (statement.assignViewIds depth)) before
      fun viewed after => before.views.Grows after.views ∧
        after.views.HasAll viewed.viewMarks :=
    assignViewIds_hasAll depth unlinked sound
  refine views.bind ?_
  rintro viewed middle ⟨grows, has⟩
  have numbers : Step.Meets (Compilation.ofState viewed.assignColumnIds) middle
      fun numbered after => numbered.objects = viewed.objects ∧
        after.uncounted = middle.uncounted :=
    ((assignColumnIds_numbers viewed).meets middle).mono fun _ _ held => held.imp_left And.right
  refine numbers.bind ?_
  rintro numbered after ⟨objects, same⟩
  dsimp only
  split
  · exact .throw trivial
  · refine .pure ?_
    have kept : after.views = middle.views := congrArg (·.views) (chart_of_uncounted same)
    rw [kept]
    refine ⟨grows, ?_⟩
    unfold viewMarks at has ⊢
    exact objects ▸ has

variable {site : Site} {statement : Statement Query}

theorem compileOwn_hasAll (read : statement.AsRead) {before : Session}
    (sound : before.views.Sound) :
    Step.Meets (statement.compileOwn site.place site.depth site.inherited site.parent) before
      fun result after => before.views.Grows after.views ∧
        after.views.HasAll result.1.viewMarks := by
  refine .of_runs fun result after run => ?_
  obtain ⟨course, rfl, rfl⟩ := (compileOwn_course before).of_ok run
  obtain ⟨filtered, grouped⟩ := read.parsed.registered before.nextQueryId site.parent
  have declared : ∀ object ∈ ((statement.registered before.nextQueryId site.parent).scope
      site.aliases before.mentions).objects, object.parentViewId = none := read.unlinked
  obtain ⟨unlinked, _⟩ := (resolve_forall SourceObject.settling_unlinked site.place course.primary
    filtered grouped declared).of_ok course.resolves
  have held := (assignIds_hasAll site.depth course.selected unlinked (by exact sound)).of_ok
    course.numbers
  rw [viewMarks_of_unplanned course.plan.map_unplanned]
  exact held

end Statement

namespace Query

open Ledger (Private)

theorem Reaches.eq_of_nested_eq_nil {query inner : Query} (reaches : query.Reaches inner)
    (none : query.body.nested = []) : inner = query := by
  cases reaches with
  | self => rfl
  | nested member _ => simp [none] at member

theorem Isolated.of_subset {marking smaller : Marking} {query : Query}
    (isolated : query.Isolated marking)
    (part : query.Throughout fun statement => smaller statement ⊆ marking statement) :
    query.Isolated smaller := by
  rw [throughout_iff] at part
  intro outer reached head given inner inside other reaches outside mark member also memberToo
  have innerReached :=
    reached.trans (.nested (Statement.mem_nested_iff.2 (.inr given)) inside)
  exact isolated outer reached head given inner inside other reaches outside mark
    (part inner innerReached member) also (part other reaches memberToo)

theorem Lists.map_unplanned {outcome : Outcome} {depth done : Nat} {aliases : AliasMap}
    {own statement : Statement Query} {start state : Session}
    (lists : Lists outcome depth aliases own start done statement state) :
    statement.objects.map SourceObject.unplanned = own.objects.map SourceObject.unplanned := by
  induction lists with
  | start => rfl
  | skip lists plain induction => exact induction
  | nested lists found grows compiled induction => exact grows.map_unplanned.trans induction

/-- Columns are all that lists add to the marks of the statement around them. -/
theorem Lists.mem_marks {depth done : Nat} {aliases : AliasMap} {own statement : Statement Query}
    {before start state : Session} (first : Listed before start own [])
    (lists : Lists numbers depth aliases own start done statement state) :
    ∀ mark ∈ statement.marks, mark.isColumn = false → mark ∈ own.marks := by
  induction lists with
  | start => exact fun _ member _ => member
  | skip lists plain induction => exact induction
  | nested lists found grows compiled induction =>
      obtain ⟨_, listed⟩ := lists.numbered first
      obtain ⟨borrowed, _, borrows⟩ := (compiled listed.draws.grows.sound).borrows
      cases borrows with
      | some borrows =>
          obtain ⟨added, _, columns, turn⟩ := grows.exists_perm borrows
          rw [Statement.marks_replaceNested ((grows.nestedAt _).trans found)]
          intro mark member own
          rcases List.mem_append.1 (turn.mem_iff.1 member) with earlier | later
          · exact induction mark earlier own
          · simp [columns mark later] at own

/-- What is known of a query that compiles, and of the numbers in it. -/
structure Separated (site : Site) (statement : Statement Query) (before after : Session)
    (result : Statement Query) (around : Option (Statement Query)) : Prop where
  numbered : numbers site statement before result around after
  contained : Throughout Statement.Contained ⟨result⟩
  columns : isolates Statement.marks Session.columns site statement before result around after
  views : isolates Statement.viewMarks Session.views site statement before result around after

def separates : Outcome := fun site statement before result around after =>
  Separated site statement before after result around

theorem columns_of_compiled {site : Site} {statement result : Statement Query}
    {before after : Session} {around : Option (Statement Query)} (read : statement.AsRead)
    (compiled : Compiled separates site statement before result around after) :
    isolates Statement.marks Session.columns site statement before result around after := by
  intro sound metadata
  cases compiled with
  | @intro own selected _ _ filter having planned listing starting filtering ending after compiled
      lists begins filtered grouped ends ran =>
      have drawn := (Statement.compileOwn_draws read.parsed sound).of_ok ran
      have first := listed_of_drawsOwn drawn
      have numbered := lists.mono Separated.numbered
      have listed := (numbered.numbered first).2
      have ownMarks := numbered.mem_marks first
      rw [lists.listed] at listed
      have cohort := (lists.mono Separated.columns).cohort drawn.marked.grows.sound
      rw [lists.listed] at cohort
      -- Queries in conditions start without numbers for keys, and those from before are back then.
      have start : starting.columns = listing.columns.apart := by
        rw [begins]
        rfl
      have same : after.columns = { listing.columns with next := ending.columns.next } := by
        rw [ends]
        rfl
      have marks : Statement.marks { selected with filter, having, metadata } = selected.marks := by
        rw [Statement.marks_eq, Statement.marks_eq, filtered.marks, grouped.marks]
      have filters := (filtered.mono Separated.columns).cohort
        (start ▸ Ledger.sound_apart cohort.grows.sound)
      have havings := (grouped.mono Separated.columns).cohort filters.grows.sound
      have conditional := filters.append havings
      rw [start] at conditional
      have own : ∀ mark ∈ selected.marks, ∀ id, mark.id = some id → listing.columns.Has mark id ∨
          (Private before.columns listing.columns id ∧ id < planned.columns.next) := by
        intro mark member id numbered
        cases column : mark.isColumn with
        | true =>
            obtain ⟨own, given, found⟩ := listed.own mark member column
            cases numbered.symm.trans given
            exact .inl ⟨column, found⟩
        | false =>
            obtain ⟨least, below, free⟩ :=
              drawn.marked.own mark (ownMarks mark member column) column id numbered
            exact .inr ⟨Private.later ⟨least, below, free⟩ cohort.grows, below⟩
      have parted : Parted Statement.marks before.columns planned.columns listing.columns
          ending.columns { selected with filter, having, metadata } :=
        ⟨drawn.marked.grows, marks ▸ own, cohort, conditional⟩
      rw [same]
      exact parted.cohort

theorem views_of_compiled {site : Site} {statement result : Statement Query}
    {before after : Session} {around : Option (Statement Query)} (read : statement.AsRead)
    (compiled : Compiled (isolates Statement.viewMarks Session.views) site statement before result
      around after) :
    isolates Statement.viewMarks Session.views site statement before result around after := by
  intro sound metadata
  cases compiled with
  | @intro own selected _ _ filter having planned listing starting filtering ending after compiled
      lists begins filtered grouped ends ran =>
      obtain ⟨grows, has⟩ := (Statement.compileOwn_hasAll read sound).of_ok ran
      have cohort := lists.cohort grows.sound
      rw [lists.listed] at cohort
      have start : starting.views = listing.views.apart := by
        rw [begins]
        rfl
      have same : after.views =
          { listing.views with next := ending.views.next } := by
        rw [ends]
        rfl
      have filters := filtered.cohort (start ▸ Ledger.sound_apart cohort.grows.sound)
      have havings := grouped.cohort filters.grows.sound
      have conditional := filters.append havings
      rw [start] at conditional
      have own : listing.views.HasAll selected.viewMarks := by
        rw [Statement.viewMarks_of_unplanned lists.map_unplanned]
        exact has.mono cohort.grows
      have parted : Parted Statement.viewMarks before.views planned.views
          listing.views ending.views { selected with filter, having, metadata } :=
        ⟨grows, fun mark member id numbered => .inl (own mark member id numbered), cohort, conditional⟩
      rw [same]
      exact parted.cohort

theorem separates_of_compiled {site : Site} {statement result : Statement Query}
    {before after : Session} {around : Option (Statement Query)} (read : statement.AsRead)
    (compiled : Compiled separates site statement before result around after) :
    separates site statement before result around after where
  numbered := numbers_of_compiled read.parsed (compiled.mono Separated.numbered)
  contained := contains_of_compiled read.parsed (compiled.mono Separated.contained)
  columns := columns_of_compiled read compiled
  views := views_of_compiled read (compiled.mono Separated.views)

end Query

namespace CompilerOptions

variable {options : CompilerOptions} {source : String} {date : Instant} {elapsedTime : Nat}
  {query : Query}

/--
A number of an object or a column in a query in a condition, or in any query in
that, is found outside of it only for the same key, in other queries in conditions
of the same query and the lists in them.
-/
theorem isolated_of_compile (compiled : options.compile source date elapsedTime = .ok query) :
    query.Isolated Statement.wholeViewMarks ∧ query.Isolated Statement.wholeMarks := by
  obtain ⟨parsed, around, after, body, _, separated, rfl⟩ := outcome_of_compile
    (fun _ (given : Statement.AsRead _) => given.parsed) Query.separates_of_compiled
    (fun _ => asRead_of_parse) compiled
  have sound : (Ledger.mk 1 .empty).Sound := Ledger.sound_empty (Nat.le_refl 1)
  have contained (metadata : Option Metadata) :
      Query.Throughout Statement.Contained ⟨{ body with metadata }⟩ :=
    separated.contained.withMetadata fun own => own.of_marks rfl rfl rfl
  constructor
  · refine ((separated.views sound _).isolated _ (List.mem_singleton_self _)).of_subset ?_
    exact (contained _).mono fun _ own => own.wholeViewMarks
  · refine ((separated.columns sound _).isolated _ (List.mem_singleton_self _)).of_subset ?_
    exact (contained _).mono fun _ own => own.wholeMarks

/-- Contacts by two queries in conditions, of tasks and of visits. -/
def tasksAndVisits : String :=
  "SELECT Id FROM Contact WHERE Id IN (SELECT Id FROM Task) AND Name IN (SELECT Id FROM Visit)"

/-- The numbers of the objects and columns in the conditions of a query, with their keys. -/
def conditionalIds (query : Query) : List (List (String × Option Nat)) :=
  query.body.conditional.map fun head =>
    head.body.wholeObjects.map (fun object => (object.key, object.viewId)) ++
      head.body.wholeMarks.map fun mark => (mark.key, mark.id)

theorem isolated_of_tasksAndVisits :
    ∃ query, compile {} tasksAndVisits = .ok query ∧
      conditionalIds query =
        [[("task", some 2), ("task", some 2), ("task.id", some 5), ("task.id", some 5)],
          [("visit", some 3), ("visit", some 3), ("visit.id", some 6), ("visit.id", some 6)]] ∧
      query.Isolated Statement.wholeViewMarks ∧ query.Isolated Statement.wholeMarks := by
  have run : compilesTo {} tasksAndVisits (fun query => conditionalIds query ==
      [[("task", some 2), ("task", some 2), ("task.id", some 5), ("task.id", some 5)],
        [("visit", some 3), ("visit", some 3), ("visit.id", some 6), ("visit.id", some 6)]]) =
      true := by
    decide +kernel
  obtain ⟨query, compiled, ids⟩ := exists_of_compilesTo run
  exact ⟨query, compiled, eq_of_beq ids, isolated_of_compile compiled⟩

/-- Contacts by two queries in conditions, both of tasks. -/
def tasksTwice : String :=
  "SELECT Id FROM Contact WHERE Id IN (SELECT Id FROM Task) AND Name IN (SELECT Id FROM Task)"

/-- Two queries with none nested in them, which share the numbers of an object and a column. -/
def sharesNumbers (first second : Query) : Bool :=
  first.body.nested.isEmpty && second.body.nested.isEmpty && first.body.id != second.body.id &&
    first.body.objects.any (·.viewId == some 2) && second.body.objects.any (·.viewId == some 2) &&
    first.body.marks.any (·.id == some 5) && second.body.marks.any (·.id == some 5)

/-- Queries in conditions share the numbers of what they both read, though none is in the other. -/
theorem shared_of_tasksTwice :
    ∃ query, compile {} tasksTwice = .ok query ∧
      ∃ first ∈ query.body.conditional, ∃ second ∈ query.body.conditional,
        ¬first.Reaches second ∧ ¬second.Reaches first ∧
        (∃ object ∈ first.body.objects, object.viewId = some 2) ∧
        (∃ object ∈ second.body.objects, object.viewId = some 2) ∧
        (∃ mark ∈ first.body.marks, mark.id = some 5) ∧
        ∃ mark ∈ second.body.marks, mark.id = some 5 := by
  have run : compilesTo {} tasksTwice (fun query => query.body.conditional.any fun first =>
      query.body.conditional.any (sharesNumbers first)) = true := by
    decide +kernel
  obtain ⟨query, compiled, holds⟩ := exists_of_compilesTo run
  simp only [List.any_eq_true, sharesNumbers, Bool.and_eq_true, List.isEmpty_iff, beq_iff_eq,
    bne_iff_ne] at holds
  obtain ⟨first, given, second, givenToo, ⟨⟨⟨⟨⟨alone, aloneToo⟩, different⟩, views⟩, viewsToo⟩,
    columns⟩, columnsToo⟩ := holds
  refine ⟨query, compiled, first, given, second, givenToo, fun reaches => ?_, fun reaches => ?_,
    views, viewsToo, columns, columnsToo⟩
  · exact different (congrArg (·.body.id) (reaches.eq_of_nested_eq_nil alone)).symm
  · exact different (congrArg (·.body.id) (reaches.eq_of_nested_eq_nil aloneToo))

end CompilerOptions

end ObjectQuery
