import ObjectQuery.Proofs.Compiler.Grouping
import ObjectQuery.Proofs.Numbering.Column
import ObjectQuery.Proofs.Plan.Join
import ObjectQuery.Proofs.Resolution.Trace

namespace ObjectQuery

/-!
What can be told of a compiled query from what was read. The queries nested in
both are in the same places.
-/

namespace Statement

variable {site : Site} {statement before middle after : Statement Query}

theorem OwnCourse.keysApart {begin : Session} (course : OwnCourse site statement begin) :
    course.plan.planned.KeysApart := by
  obtain ⟨apart, _⟩ :=
    assignIds_keysApart site.depth course.selected course.resolved trivial course.numbers
  have keeps := course.plan.keepsKeys
  exact ⟨keeps.groupBy ▸ apart.groupBy, keeps.orderBy ▸ apart.orderBy⟩

/-- Numbers and places do not make constants of fields, nor fields of constants. -/
theorem Alike.comparesFields (alike : before.Alike after) (compares : before.ComparesFields) :
    after.ComparesFields := by
  have keeps (value other : Field Query) (same : other.bare = value.bare) :
      other.IsConstant ↔ value.IsConstant := by
    rw [← Field.isConstant_bare other, same, Field.isConstant_bare]
  exact compares.of_related (Condition.forall₂_related_of_map_eq alike.filter)
    (fun value other same => mt (keeps value other same).1) fun _ _ _ _ => trivial

/--
What of a compiled statement can be told from what was read. Where a key names
the alias of a column or a call, it looks like this; a key of groups may also
stand for a column of another object, at another distance than the primary one.
-/
structure Traces (before after : Statement Query) : Prop where
  joins : after.JoinsFiltered
  keysApart : after.KeysApart
  groupBy : ∀ (place : Nat) (key : Field Query) (name : String) (index : Nat),
    before.groupBy[place]? = some key → key.kind = .column [name] → before.Aliases name index →
    ∃ item, after.fields[index]? = some item ∧
      (item.kind.isColumn = true ∨ item.kind.isCall = true →
        ∃ entry, after.groupBy[place]? = some entry ∧ (entry.bare = item.bare ∨
          ∃ object : Path, entry.kind = .column (object ++ [name]) ∧
            object.length ≠ after.primary.length))
  orderBy : ∀ (place : Nat) (order : OrderKey Query) (name : String) (index : Nat),
    before.orderBy[place]? = some order → order.field.kind = .column [name] →
    before.Aliases name index →
    ∃ item, after.fields[index]? = some item ∧
      (item.kind.isColumn = true ∨ item.kind.isCall = true →
        ∃ entry, after.orderBy[place]? = some entry ∧ entry.field.bare = item.bare)

theorem not_fieldSet_of_bare {item field : Field Query} (same : item.bare = field.bare)
    (kind : item.kind.isColumn = true ∨ item.kind.isCall = true) (path : Path) :
    field.kind ≠ .fieldSet path := by
  intro fieldSet
  have kinds := congrArg Field.kind same
  rw [Field.kind_bare, Field.kind_bare, fieldSet] at kinds
  cases own : item.kind <;> simp_all [FieldKind.bare, FieldKind.isColumn, FieldKind.isCall]

theorem compileOwn_traces (read : statement.Parsed) (compares : statement.ComparesFields)
    (begin : Session) :
    Step.Meets (statement.compileOwn site.place site.depth site.inherited site.parent) begin
      fun result _ => statement.Traces result.1 := by
  refine .of_runs fun result finish run => ?_
  obtain ⟨course, rfl, rfl⟩ := (compileOwn_course begin).of_ok run
  obtain ⟨filtered, grouped⟩ := read.registered begin.nextQueryId site.parent
  have objects : ((statement.registered begin.nextQueryId site.parent).scope site.aliases
      begin.mentions).objects ≠ [] := read.objects
  have traced :=
    (resolve_traced site.place course.primary filtered grouped objects).of_ok course.resolves
  have alike := course.alike.trans (course.isPlanned read).alike
  have selects {index : Nat} {field : Field Query}
      (present : course.resolved.fields[index]? = some field) :
      ∃ item, course.plan.planned.fields[index]? = some item ∧ item.bare = field.bare :=
    exists_getElem?_of_map_eq alike.fields present
  refine ⟨course.plan.joinsFiltered (alike.comparesFields (traced.filter compares)),
    course.keysApart, ?_, ?_⟩
  · intro place key name index present kind labels
    obtain ⟨field, found, gives⟩ := traced.groupBy place key name index present kind labels
    obtain ⟨item, given, same⟩ := selects found
    refine ⟨item, given, fun kind => ?_⟩
    obtain ⟨entry, listed, stands⟩ := gives (not_fieldSet_of_bare same kind)
    obtain ⟨later, present, alikeToo⟩ := exists_getElem?_of_map_eq alike.groupBy listed
    refine ⟨later, present, ?_⟩
    rcases stands with rfl | ⟨object, column, length⟩
    · exact .inl (alikeToo.trans same.symm)
    · refine .inr ⟨object, Field.kind_eq_column_of_bare alikeToo.symm column, ?_⟩
      rwa [primary_of_bare alike.objects]
  · intro place order name index present kind labels
    obtain ⟨field, found, gives⟩ := traced.orderBy place order name index present kind labels
    obtain ⟨item, given, same⟩ := selects found
    refine ⟨item, given, fun kind => ?_⟩
    obtain ⟨entry, listed, rfl⟩ := gives (not_fieldSet_of_bare same kind)
    obtain ⟨later, present, alikeToo⟩ := exists_getElem?_of_map_eq alike.orderBy listed
    exact ⟨later, present, alikeToo.trans same.symm⟩

end Statement

namespace Query

open Statement (Traces)

variable {outcome : Outcome} {depth done : Nat} {aliases : AliasMap}
  {own selected statement : Statement Query} {start state : Session}

/-- A field that is no query stays in its place when the queries among the fields are compiled. -/
theorem Lists.exists_item
    (lists : Lists outcome depth aliases own start done selected state) {index : Nat}
    {field : Field Query} (present : own.fields[index]? = some field) :
    ∃ item, selected.fields[index]? = some item ∧ (item = field ∨ item.kind.isSubquery = true) := by
  induction lists with
  | start => exact ⟨field, present, .inl rfl⟩
  | skip _ _ induction => exact induction
  | @nested done statement grown body _ _ query lists found grows compiled induction =>
      obtain ⟨item, given, same⟩ := induction
      obtain ⟨added, fields, _⟩ := grows.exists_added
      have later : grown.fields[index]? = some item := by
        rw [fields, List.getElem?_append_left (List.getElem?_eq_some_iff.1 given).1, given]
      by_cases turn : done = index
      · subst turn
        refine ⟨{ item with kind := .subquery ⟨body⟩ }, ?_, .inr rfl⟩
        simp [Statement.replaceNested, later]
      · refine ⟨item, ?_, same⟩
        simp [Statement.replaceNested, turn, later]

theorem Lists.joinsFiltered (lists : Lists outcome depth aliases own start done selected state)
    (joins : own.JoinsFiltered) : selected.JoinsFiltered := by
  induction lists with
  | start => exact joins
  | skip _ _ induction => exact induction
  | nested _ _ grows _ induction => exact grows.joinsFiltered induction

theorem Lists.traces (lists : Lists outcome depth aliases own start done selected state)
    (traces : statement.Traces own) (filter having : List (Condition (Field Query))) :
    statement.Traces { selected with filter, having } := by
  have selecting := lists.selecting
  have frame := selecting.frame
  have groupBy : selected.groupBy = own.groupBy := congrArg (·.groupBy) frame
  have orderBy : selected.orderBy = own.orderBy := congrArg (·.orderBy) frame
  have primary : selected.primary = own.primary :=
    Statement.primary_of_bare selecting.objects
  have plain {item field : Field Query} (same : item = field ∨ item.kind.isSubquery = true)
      (kind : item.kind.isColumn = true ∨ item.kind.isCall = true) : item = field := by
    refine same.resolve_right fun subquery => ?_
    cases own : item.kind <;>
      simp [own, FieldKind.isColumn, FieldKind.isCall, FieldKind.isSubquery] at kind subquery
  refine ⟨lists.joinsFiltered traces.joins, ?_, ?_, ?_⟩
  · exact ⟨groupBy ▸ traces.keysApart.groupBy, orderBy ▸ traces.keysApart.orderBy⟩
  · intro place key name index present kind labels
    obtain ⟨field, found, gives⟩ := traces.groupBy place key name index present kind labels
    obtain ⟨item, given, same⟩ := lists.exists_item found
    refine ⟨item, given, fun kind => ?_⟩
    obtain rfl := plain same kind
    obtain ⟨entry, listed, stands⟩ := gives kind
    refine ⟨entry, groupBy ▸ listed, stands.imp_right ?_⟩
    rintro ⟨object, column, length⟩
    exact ⟨object, column, primary.symm ▸ length⟩
  · intro place order name index present kind labels
    obtain ⟨field, found, gives⟩ := traces.orderBy place order name index present kind labels
    obtain ⟨item, given, same⟩ := lists.exists_item found
    refine ⟨item, given, fun kind => ?_⟩
    obtain rfl := plain same kind
    obtain ⟨entry, listed, same⟩ := gives kind
    exact ⟨entry, orderBy ▸ listed, same⟩

/-- Queries whose statements are related, as are those nested in them at the same places. -/
inductive Alongside (related : Statement Query → Statement Query → Prop) :
    Query → Query → Prop where
  | intro {before after : Statement Query} (own : related before after)
      (lengths : before.nested.length = after.nested.length)
      (nested : ∀ (index : Nat) (query inner : Query), before.nested[index]? = some query →
        after.nested[index]? = some inner → Alongside related query inner) :
      Alongside related ⟨before⟩ ⟨after⟩

namespace Alongside

variable {related weaker : Statement Query → Statement Query → Prop} {query other : Query}

theorem of_forall₂ {before after : Statement Query} (own : related before after)
    (nested : List.Forall₂ (Alongside related) before.nested after.nested) :
    Alongside related ⟨before⟩ ⟨after⟩ := by
  refine .intro own nested.length_eq fun index query inner present given => ?_
  obtain ⟨other, found, along⟩ := nested.exists_getElem? present
  cases found.symm.trans given
  exact along

theorem outermost (along : Alongside related query other) : related query.body other.body := by
  cases along with
  | intro own => exact own

/-- What is recorded of a query as a whole does not matter to the queries nested in it. -/
theorem withMetadata {statement : Statement Query} {metadata : Option Metadata}
    (along : Alongside related query ⟨statement⟩)
    (keeps : ∀ before, related before statement → related before { statement with metadata }) :
    Alongside related query ⟨{ statement with metadata }⟩ := by
  cases along with
  | intro own lengths nested => exact .intro (keeps _ own) lengths nested

theorem throughout (along : Alongside related query other) {property : Statement Query → Prop}
    (holds : ∀ before after, related before after → property after) :
    other.Throughout property := by
  induction along with
  | intro own lengths nested induction =>
      refine .intro (holds _ _ own) fun inner member => ?_
      obtain ⟨index, given⟩ := List.getElem?_of_mem member
      obtain ⟨below, _⟩ := List.getElem?_eq_some_iff.1 given
      exact induction index _ inner (List.getElem?_eq_getElem (lengths ▸ below)) given

end Alongside

def tracing : Outcome := fun _ statement _ result _ _ => Alongside Traces ⟨statement⟩ ⟨result⟩

/-- The queries among the fields are compiled one after the other, each into one in its place. -/
theorem Lists.alongside (lists : Lists tracing depth aliases own start done selected state) :
    List.Forall₂ (Alongside Traces) (listedBefore own done) (listedBefore selected done) := by
  induction lists with
  | start => exact .nil
  | @skip done statement state lists plain induction =>
      have plainToo : nestedAt? own done = none :=
        (lists.selecting.remaining done (Nat.le_refl _)).symm.trans plain
      rwa [listedBefore_skip plain, listedBefore_skip plainToo]
  | @nested done statement grown body state after query lists found grows compiled induction =>
      have foundToo : nestedAt? own done = some query :=
        (lists.selecting.remaining done (Nat.le_refl _)).symm.trans found
      rw [listedBefore_replaceNested grows found, listedBefore_succ own, foundToo,
        Option.toList_some]
      obtain ⟨inner⟩ := query
      exact List.rel_append induction (.cons compiled .nil)

theorem Operands.alongside {conditions results : List (Condition (Field Query))}
    (operands : Operands tracing depth statement conditions start results state) :
    List.Forall₂ (Alongside Traces) (conditions.filterMap Condition.query?)
      (results.filterMap Condition.query?) := by
  induction operands with
  | nil => exact .nil
  | plain plain later induction =>
      rwa [List.filterMap_cons_none plain, List.filterMap_cons_none plain]
  | @nested field query body _ _ _ _ _ _ kind compiled later induction =>
      have before : (Condition.operand field).query? = some query := by
        simp [Condition.query?, Condition.operand?, kind, FieldKind.query?]
      rw [List.filterMap_cons_some before]
      obtain ⟨inner⟩ := query
      exact .cons compiled induction

theorem tracing_of_compiled {site : Site} {statement result : Statement Query}
    {before after : Session} {around : Option (Statement Query)} (read : statement.AsRead)
    (compiled : Compiled tracing site statement before result around after) :
    tracing site statement before result around after := by
  cases compiled with
  | @intro own selected _ _ filter having _ _ _ _ _ _ compiled lists begins filtered grouped ends
      ran =>
      have selecting := lists.selecting
      have listed := lists.alongside
      rw [lists.listed, listedBefore_eq_listed fun index beyond => by
        rw [nestedAt?, List.getElem?_eq_none beyond]; rfl] at listed
      have filters := filtered.alongside
      have havings := grouped.alongside
      rw [selecting.filter] at filters
      rw [selecting.having] at havings
      refine .of_forall₂ (lists.traces
        ((Statement.compileOwn_traces read.parsed read.compares _).of_ok ran) filter having) ?_
      rw [← compiled.nested, Statement.nested_eq_append, Statement.nested_eq_append]
      exact List.rel_append listed (List.rel_append filters havings)

end Query

namespace CompilerOptions

theorem traces_of_compile {options : CompilerOptions} {source : String} {date : Instant}
    {elapsedTime : Nat} {query : Query}
    (compiled : options.compile source date elapsedTime = .ok query) :
    ∃ parsed, options.parse source = .ok parsed ∧ parsed.Alongside Statement.Traces query := by
  obtain ⟨parsed, around, after, body, parses, traces, rfl⟩ := outcome_of_compile
    (fun _ read => read.parsed) Query.tracing_of_compiled (fun _ => asRead_of_parse) compiled
  obtain ⟨statement⟩ := parsed
  refine ⟨_, parses, Query.Alongside.withMetadata traces fun _ own => ?_⟩
  exact ⟨own.joins, ⟨own.keysApart.groupBy, own.keysApart.orderBy⟩, own.groupBy, own.orderBy⟩

end CompilerOptions

end ObjectQuery
