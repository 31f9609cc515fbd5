import Mathlib
import ObjectQuery.Proofs.Compiler.Source
import ObjectQuery.Proofs.Plan.Place
import ObjectQuery.Proofs.Wire.Legible

namespace ObjectQuery

/-!
Compiled queries are written and read back. What compiling adds to the text of a
query are paths, keys and numbers; the literals stay those of the text.
-/

namespace Statement

variable {statement other : Statement Query} {column : Field Query}

theorem LegiblePlan.append {plan : Statement Query} (legible : plan.LegiblePlan)
    (isColumn : column.kind.isColumn = true) :
    LegiblePlan { plan with fields := plan.fields ++ [column] } where
  fields := by
    obtain ⟨fields, others⟩ := forall_everyField_iff.1 legible.fields
    refine forall_everyField_iff.2 ⟨List.forall_mem_append.2 ⟨fields, ?_⟩, others⟩
    exact List.forall_mem_singleton.2 (Field.legible_of_isColumn isColumn)
  residual := legible.residual
  objects := legible.objects

end Statement

namespace Correlation.Fetches

open Statement (LegiblePlan)

theorem plans {objectKey : String} {column fetched : Field Query}
    {objects fetching : List (SourceObject Query)}
    (fetches : Fetches objectKey column objects fetching fetched)
    (isColumn : column.kind.isColumn = true)
    (legible : ∀ object ∈ objects, ∀ plan, object.plan = some plan → plan.body.LegiblePlan) :
    ∀ object ∈ fetching, ∀ plan, object.plan = some plan → plan.body.LegiblePlan := by
  induction fetches with
  | here rest key planned =>
      obtain ⟨first, others⟩ := List.forall_mem_cons.1 legible
      refine List.forall_mem_cons.2 ⟨fun plan given => ?_, others⟩
      cases given
      have own := first _ planned
      exact own.append isColumn
  | later fetches induction =>
      obtain ⟨first, others⟩ := List.forall_mem_cons.1 legible
      exact List.forall_mem_cons.2 ⟨first, induction others⟩

end Correlation.Fetches

namespace Statement

variable {reads : Path → String → Prop} {statement before after : Statement Query}

/-- Columns that are fetched from the statement leave its literals as they are. -/
theorem Grown.legible (grown : before.Grown reads after) (legible : before.Legible) :
    after.Legible := by
  induction grown with
  | refl => exact legible
  | @fetch after path column fetched objects grown kind holds fetches induction =>
      obtain ⟨fields, others⟩ := forall_everyField_iff.1 induction.fields
      have isColumn : column.kind.isColumn = true := by simp [kind, FieldKind.isColumn]
      have added : fetched.Legible Query.IsLegible := by
        obtain ⟨index, rfl⟩ := fetches.field
        have own : column.Legible Query.IsLegible := Field.legible_of_isColumn isColumn
        exact Field.legible_congr (by rfl) own
      exact {
        fields := forall_everyField_iff.2
          ⟨List.forall_mem_append.2 ⟨fields, List.forall_mem_singleton.2 added⟩, others⟩
        residual := induction.residual
        plans := fetches.plans isColumn induction.plans }

/-- The query that takes the place of a field is written like the field. -/
theorem Legible.replaceNested (legible : statement.Legible) (index : Nat) {query : Query}
    (nested : query.IsLegible) : (statement.replaceNested index query).Legible where
  fields := by
    obtain ⟨fields, others⟩ := forall_everyField_iff.1 legible.fields
    refine forall_everyField_iff.2 ⟨fun field member => ?_, others⟩
    obtain ⟨place, present⟩ := List.getElem?_of_mem member
    simp only [Statement.replaceNested, List.getElem?_modify] at present
    obtain ⟨own, found, rfl⟩ := Option.map_eq_some_iff.1 present
    split
    · rw [Field.Legible, Field.isLegible_eq, Field.kind_map]
      exact nested
    · exact fields own (List.mem_of_getElem? found)
  residual := legible.residual
  plans := legible.plans

end Statement

namespace SourceObject

theorem legible_ownFields {path : Path} {fields : List (Field Query)}
    (legible : ∀ field ∈ fields, field.Legible Query.IsLegible) :
    ∀ field ∈ ownFields path fields, field.Legible Query.IsLegible := by
  intro field member
  obtain ⟨index, present⟩ := List.getElem?_of_mem member
  obtain ⟨other, given, _, rfl⟩ := getElem?_ownFields present
  exact Field.legible_congr (by rfl) (legible other given)

end SourceObject

namespace Statement

variable {site : Site} {statement own : Statement Query} {aliases : AliasMap}
  {around : Option (Statement Query)} {before after : Session}

theorem legible_operands {some all : List (Condition (Field Query))} (part : some ⊆ all)
    (legible : ∀ field ∈ all.filterMap Condition.operand?, field.Legible Query.IsLegible) :
    ∀ field ∈ some.filterMap Condition.operand?, field.Legible Query.IsLegible := by
  intro field member
  obtain ⟨entry, given, operand⟩ := List.mem_filterMap.1 member
  exact legible field (List.mem_filterMap.2 ⟨entry, part given, operand⟩)

theorem Planned.legible {reads : Path → String → Prop} {start finish : Correlation}
    (planned : statement.Planned reads own start finish)
    (legible : ∀ field ∈ statement.everyField, field.Legible Query.IsLegible) : own.Legible := by
  have fields := Field.legible_of_bare planned.alike.everyField legible
  obtain ⟨_, inFilter, _, _, inOrders⟩ := forall_everyField_iff.1 fields
  refine ⟨fields, legible_operands planned.residual.subset inFilter, ?_⟩
  intro object member plan given
  obtain ⟨same, returns, returned⟩ := planned.plans object member
  cases given.symm.trans returns
  have part := planned.parts object member plan given
  refine ⟨forall_everyField_iff.2 ⟨?_, legible_operands part.filter.subset inFilter, ?_, ?_,
    fun order sorted => inOrders order (part.orderBy sorted)⟩, part.residual, part.objects⟩
  · rw [returned]
    exact SourceObject.legible_ownFields (forall_everyField_iff.1 legible).1
  · simp [part.groupBy]
  · simp [part.having]

theorem OwnCompiled.legible (compiled : OwnCompiled site statement before own around aliases after)
    (read : statement.Parsed)
    (legible : ∀ field ∈ statement.everyField, field.Legible Query.IsLegible) : own.Legible := by
  obtain ⟨resolved, numbered, finish, resolvedAt, alike, planned, _⟩ := compiled.planned
  obtain ⟨primary, mentions, selected, scope, _, run, _⟩ := resolvedAt.run
  obtain ⟨filtered, grouped⟩ := read.registered before.nextQueryId site.parent
  have resolves := resolve_holds Field.stays_legible site.place primary filtered grouped legible
    ((statement.registered before.nextQueryId site.parent).scope site.aliases mentions)
  exact planned.legible (Field.legible_of_bare alike.everyField (resolves.of_ok run))

end Statement

namespace Field

theorem nests_of_isWritable {property : Query → Prop} {field : Field Query}
    (writable : (field.map property).IsWritable) : field.Nests property := by
  intro query nested
  obtain ⟨kind, _, _, _, _, _, _⟩ := field
  cases kind <;> cases nested
  exact writable.1

end Field

namespace Condition

theorem operands_isWritable {property : Query → Prop} {conditions : List (Condition (Field Query))}
    (writable : ∀ entry ∈ conditions, (entry.map (Field.map property)).IsWritable) :
    ∀ field ∈ conditions.filterMap operand?, (field.map property).IsWritable := by
  intro field member
  obtain ⟨entry, given, operand⟩ := List.mem_filterMap.1 member
  have written := writable entry given
  cases entry <;> cases operand
  exact written

end Condition

namespace Query

/-- A query that is compiled can be written. -/
def legibles : Outcome := fun _ _ _ result _ _ => result.Legible

theorem Lists.legible {depth done : Nat} {aliases : AliasMap} {own statement : Statement Query}
    {start state : Session} (lists : Lists legibles depth aliases own start done statement state)
    (legible : own.Legible) : statement.Legible := by
  induction lists with
  | start => exact legible
  | skip lists plain induction => exact induction
  | @nested done statement grown body _ _ query lists found grows compiled induction =>
      exact (grows.legible induction).replaceNested done (Statement.Legible.isLegible compiled)

theorem Operands.legible {depth : Nat} {around : Statement Query}
    {conditions results : List (Condition (Field Query))} {before after : Session}
    (operands : Operands legibles depth around conditions before results after)
    (legible : ∀ field ∈ conditions.filterMap Condition.operand?, field.Legible IsLegible) :
    ∀ field ∈ results.filterMap Condition.operand?, field.Legible IsLegible := by
  induction operands with
  | nil => simp
  | @plain entry rest results _ _ plain later induction =>
      cases entry with
      | operand field =>
          obtain ⟨first, others⟩ := List.forall_mem_cons.1 legible
          exact List.forall_mem_cons.2 ⟨first, induction others⟩
      | noop | unknown | operator op => exact induction legible
  | @nested field query body parent rest results _ _ _ kind compiled later induction =>
      obtain ⟨_, others⟩ := List.forall_mem_cons.1 legible
      refine List.forall_mem_cons.2 ⟨?_, induction others⟩
      rw [Field.Legible, Field.isLegible_eq, Field.kind_map]
      exact Statement.Legible.isLegible compiled

theorem legible_of_compiled {site : Site} {statement result : Statement Query}
    {before after : Session} {around : Option (Statement Query)}
    (given : statement.Parsed ∧ ∀ field ∈ statement.everyField, field.Legible IsLegible)
    (compiled : Compiled legibles site statement before result around after) :
    legibles site statement before result around after := by
  cases compiled with
  | @intro own selected _ _ filter having planned listing starting filtering ending after compiled
      lists begins filtered grouped ends ran =>
      have legible := lists.legible (compiled.legible given.1 given.2)
      obtain ⟨fields, inFilter, groupBy, inHaving, orderBy⟩ :=
        Statement.forall_everyField_iff.1 legible.fields
      exact {
        fields := Statement.forall_everyField_iff.2
          ⟨fields, filtered.legible inFilter, groupBy, grouped.legible inHaving, orderBy⟩
        residual := legible.residual
        plans := legible.plans }

theorem legible_of_isWritable {statement : Statement Query}
    (writable : (statement.map IsWritable).IsWritable) :
    ∀ field ∈ statement.everyField, field.Legible IsLegible := by
  have written : ∀ field ∈ statement.everyField, (field.map IsWritable).IsWritable := by
    refine Statement.forall_everyField_iff.2 ⟨List.forall_mem_map.1 writable.fields, ?_,
      List.forall_mem_map.1 writable.groupBy, ?_, ?_⟩
    · exact Condition.operands_isWritable (List.forall_mem_map.1 writable.filter)
    · exact Condition.operands_isWritable (List.forall_mem_map.1 writable.having)
    · exact fun order member => writable.orderBy _ (List.mem_map_of_mem member)
  have weaken (query : Query) (writable : query.IsWritable) : query.IsLegible := fun _ => writable
  exact fun field member => field.legible_of_isWritable weaken (written field member)

theorem isWritable_of_nested {query inner : Query} (writable : query.IsWritable)
    (member : inner ∈ query.body.nested) : inner.IsWritable := by
  obtain ⟨statement⟩ := query
  rw [isWritable_mk] at writable
  have nests {conditions : List (Condition (Field Query))}
      (written : ∀ entry ∈ conditions, (entry.map (Field.map IsWritable)).IsWritable) :
      ∀ entry ∈ conditions, entry.Nests IsWritable := by
    intro entry given query nested
    obtain ⟨field, operand, kind⟩ := Option.bind_eq_some_iff.1 nested
    have field := Condition.operands_isWritable written field
      (List.mem_filterMap.2 ⟨entry, given, operand⟩)
    exact Field.nests_of_isWritable field query kind
  refine (Statement.forall_nested_iff statement).2 ⟨fun field given => ?_, ?_, ?_⟩ inner member
  · exact Field.nests_of_isWritable (List.forall_mem_map.1 writable.fields field given)
  · exact nests (List.forall_mem_map.1 writable.filter)
  · exact nests (List.forall_mem_map.1 writable.having)

theorem IsWritable.throughout {query : Query} (writable : query.IsWritable) :
    query.Throughout fun statement =>
      ∀ field ∈ statement.everyField, field.Legible IsLegible := by
  refine throughout_iff.2 fun inner reaches => ?_
  have written : inner.IsWritable := by
    induction reaches with
    | self query => exact writable
    | nested member _ induction => exact induction (isWritable_of_nested writable member)
  obtain ⟨statement⟩ := inner
  rw [isWritable_mk] at written
  exact legible_of_isWritable written

/-- The written form of the query is not read as one. -/
def isLost (query : Query) : Bool :=
  let written := Layout.compact.chars 0 query.toJson
  let (node, _) := Document.value (2 * written.length + 2) ⟨written, 1⟩
  (ofNode maxLevel node).toOption.isNone

theorem decode_ne_of_isLost {query : Query} (lost : query.isLost = true) (result : Query) :
    decode query.encode ≠ .ok result := by
  intro decodes
  simp only [decode, decodeAs, Document.scan, Place.ofText, encode, Layout.toList_render 0]
    at decodes
  simp only [isLost] at lost
  cases scanned : Document.value (2 * (Layout.compact.chars 0 query.toJson).length + 2)
      ⟨Layout.compact.chars 0 query.toJson, 1⟩ with
  | mk node rest =>
      rw [scanned] at decodes lost
      obtain ⟨read, reads, _⟩ := Except.bind_eq_ok_iff.1 decodes
      simp only [reads] at lost
      cases lost

end Query

namespace CompilerOptions

variable {options : CompilerOptions} {source : String} {date : Instant} {elapsedTime : Nat}
  {query : Query}

/-- Where the query of the text can be written, so can the compiled one. -/
theorem isLegible_of_compile
    (writable : ∀ parsed, options.parse source = .ok parsed → parsed.IsWritable)
    (compiled : options.compile source date elapsedTime = .ok query) : query.IsLegible := by
  obtain ⟨parsed, around, after, body, _, legible, rfl⟩ := outcome_of_compile
    (fun _ given => given.1) Query.legible_of_compiled
    (fun parsed parses => (parsed_of_parse parses).and (writable parsed parses).throughout) compiled
  exact Statement.Legible.isLegible ⟨legible.fields, legible.residual, legible.plans⟩

/--
A compiled query is read back from its written form, which stays the same when
it is written again, where the query of the text can be written, the numbers of
the compiled one are such as 64 bits hold, and fewer than 128 of its records and
lists are open at once.
-/
theorem decode_encode_of_compile
    (writable : ∀ parsed, options.parse source = .ok parsed → parsed.IsWritable)
    (compiled : options.compile source date elapsedTime = .ok query)
    (counted : query.isCounted = true) (shallow : query.toJson.depth < 128) :
    Query.decode query.encode = .ok query ∧
      (Query.decode query.encode).map Query.encode = .ok query.encode := by
  have written := isLegible_of_compile writable compiled counted
  have reads := (Query.Reads.all Query.maxLevel).query query written
  have decodes : Query.decode query.encode = .ok query :=
    JsonLibrary.compact.decodeAs_write reads (Nat.le_of_lt_succ shallow)
  refine ⟨decodes, ?_⟩
  rw [decodes]
  rfl

/-- Contacts with their tasks, as of the last second of a leap day. -/
def leapDay : String :=
  "SELECT Id, (SELECT Subject FROM Tasks) FROM Contact WHERE Changed > 2020-02-29T23:59:59Z"

def parsedTasks : Query :=
  ⟨{ fields := [.ofKind (.column ["Subject"])], objects := [{ path := ["Tasks"] }] }⟩

def parsedLeapDay : Query :=
  ⟨{ fields := [.ofKind (.column ["Id"]), .ofKind (.subquery parsedTasks)]
     objects := [{ path := ["Contact"] }]
     filter := [.operand (.ofKind (.column ["Changed"])),
      .operand (.ofKind (.literal (.dateTime ⟨1583020799, 0⟩))), .operator .gt] }⟩

theorem parse_leapDay : parse {} leapDay = .ok parsedLeapDay := by
  cbv

theorem isWritable_parsedLeapDay : parsedLeapDay.IsWritable := by
  have instant : (⟨1583020799, 0⟩ : Instant).IsWritable := by decide
  have object (path : Path) : SourceObject.IsWritable { path } := ⟨by simp, by simp, by simp⟩
  have tasks : parsedTasks.IsWritable := by
    rw [parsedTasks, Query.isWritable_mk]
    constructor <;> simp [Statement.map, Field.ofKind, Field.map, FieldKind.map, Field.IsWritable,
      FieldKind.IsWritable, SourceObject.map, object]
  rw [parsedLeapDay, Query.isWritable_mk]
  constructor <;> simp [Statement.map, Field.ofKind, Field.map, FieldKind.map, Field.IsWritable,
    FieldKind.IsWritable, SourceObject.map, Condition.map, Condition.IsWritable, object, tasks,
    Literal.IsWritable, instant]

theorem decode_encode_of_leapDay :
    ∃ query, compile {} leapDay = .ok query ∧ query.isCounted = true ∧ query.toJson.depth < 128 ∧
      Query.decode query.encode = .ok query ∧
      (Query.decode query.encode).map Query.encode = .ok query.encode := by
  have run : compilesTo {} leapDay (fun query =>
      query.isCounted && decide (query.toJson.depth < 128)) = true := by
    decide +kernel
  obtain ⟨query, compiled, fits⟩ := exists_of_compilesTo run
  obtain ⟨counted, shallow⟩ := (Bool.and_eq_true _ _).mp fits
  have shallow := of_decide_eq_true shallow
  have writable (parsed : Query) (parses : parse {} leapDay = .ok parsed) : parsed.IsWritable := by
    cases parse_leapDay.symm.trans parses
    exact isWritable_parsedLeapDay
  exact ⟨query, compiled, counted, shallow,
    decode_encode_of_compile writable compiled counted shallow⟩

/-- The last second of the year 9999, far to the west. -/
def shiftedYear : String :=
  "SELECT Id FROM Contact WHERE CreatedDate > 9999-12-31T23:59:59-23:00"

/-- At universal time the year has five digits, with which no query is read back. -/
theorem decode_ne_of_shiftedYear :
    ∃ query, compile {} shiftedYear = .ok query ∧
      ∀ result, Query.decode query.encode ≠ .ok result := by
  have run : compilesTo {} shiftedYear Query.isLost = true := by
    decide +kernel
  obtain ⟨query, compiled, lost⟩ := exists_of_compilesTo run
  exact ⟨query, compiled, Query.decode_ne_of_isLost lost⟩

end CompilerOptions

end ObjectQuery
