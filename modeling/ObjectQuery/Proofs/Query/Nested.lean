import Mathlib.Data.List.Forall2
import Mathlib.Order.MinMax
import ObjectQuery.Compiler.Query
import ObjectQuery.Query.Fold

namespace ObjectQuery

/-! The queries nested in a statement, as properties of its fields and operands. -/

namespace Field

/-- The field stands for no query, or for one with the property. -/
def Nests (property : Q → Prop) (field : Field Q) : Prop :=
  ∀ query, field.kind.query? = some query → property query

theorem nests_of_none {property : Q → Prop} {field : Field Q} (plain : field.kind.query? = none) :
    field.Nests property :=
  fun query nested => by simp [plain] at nested

theorem nests_congr {property : Q → Prop} {field other : Field Q}
    (same : other.kind.query? = field.kind.query?) (nests : field.Nests property) :
    other.Nests property :=
  fun query nested => nests query (same ▸ nested)

@[simp]
theorem query?_map (f : P → Q) (field : Field P) :
    (field.map f).kind.query? = field.kind.query?.map f := by
  obtain ⟨kind, aliasName, notSelected, aggregated, key, columnId, columnIndex⟩ := field
  cases kind <;> rfl

end Field

namespace Condition

def query? (entry : Condition (Field Q)) : Option Q :=
  entry.operand?.bind (·.kind.query?)

/-- The entry stands for no query, or for one with the property. -/
def Nests (property : Q → Prop) (entry : Condition (Field Q)) : Prop :=
  ∀ query, entry.query? = some query → property query

@[simp]
theorem nests_operator (property : Q → Prop) (op : Operator) :
    (operator op : Condition (Field Q)).Nests property := by
  simp [Nests, query?, operand?]

theorem forall_query?_of_forall₂ {property : Q → Prop} {list results : List (Condition (Field Q))}
    (nests : List.Forall₂ (fun _ result => result.Nests property) list results) :
    ∀ query ∈ results.filterMap query?, property query := by
  induction nests with
  | nil => simp
  | @cons _ result _ rest first _ induction =>
      intro query member
      obtain ⟨entry, given, nested⟩ := List.mem_filterMap.1 member
      rcases List.mem_cons.1 given with rfl | later
      · exact first query nested
      · exact induction query (List.mem_filterMap.2 ⟨entry, later, nested⟩)

@[simp]
theorem query?_map (f : P → Q) (entry : Condition (Field P)) :
    (entry.map (Field.map f)).query? = entry.query?.map f := by
  cases entry <;> simp [Condition.map, query?, operand?]

end Condition

namespace Statement

theorem nested_eq (statement : Statement Q) :
    statement.nested = statement.fields.filterMap (·.kind.query?) ++
      statement.filter.filterMap Condition.query? ++
      statement.having.filterMap Condition.query? := by
  simp only [nested, List.filterMap_filterMap]
  rfl

theorem forall_nested_iff {property : Q → Prop} (statement : Statement Q) :
    (∀ query ∈ statement.nested, property query) ↔
      (∀ field ∈ statement.fields, field.Nests property) ∧
        (∀ entry ∈ statement.filter, entry.Nests property) ∧
        ∀ entry ∈ statement.having, entry.Nests property := by
  simp only [nested_eq, List.forall_mem_append, List.forall_mem_filterMap, and_assoc]
  rfl

/-- The queries nested in the conditions of a statement. -/
def conditional (statement : Statement Q) : List Q :=
  statement.filter.filterMap Condition.query? ++ statement.having.filterMap Condition.query?

/-- The queries nested in the fields of a statement. -/
def listed (statement : Statement Q) : List Q :=
  statement.fields.filterMap (·.kind.query?)

theorem nested_eq_append (statement : Statement Q) :
    statement.nested = statement.listed ++ statement.conditional := by
  rw [nested_eq, List.append_assoc, listed, conditional]

theorem mem_nested_iff {statement : Statement Q} {query : Q} :
    query ∈ statement.nested ↔ query ∈ statement.listed ∨ query ∈ statement.conditional := by
  rw [nested_eq_append, List.mem_append]

@[simp]
theorem listed_map (f : P → Q) (statement : Statement P) :
    (statement.map f).listed = statement.listed.map f := by
  simp [listed, Statement.map, List.filterMap_map, List.map_filterMap]

@[simp]
theorem conditional_map (f : P → Q) (statement : Statement P) :
    (statement.map f).conditional = statement.conditional.map f := by
  simp [conditional, Statement.map, List.filterMap_map, List.map_filterMap]

@[simp]
theorem nested_map (f : P → Q) (statement : Statement P) :
    (statement.map f).nested = statement.nested.map f := by
  simp [nested_eq_append]

end Statement

namespace Query

/-- The property holds of the statement of a query and of those of all queries nested in it. -/
inductive Throughout (property : Statement Query → Prop) : Query → Prop where
  | intro {statement : Statement Query} (own : property statement)
      (nested : ∀ query ∈ statement.nested, Throughout property query) :
      Throughout property ⟨statement⟩

namespace Throughout

variable {property : Statement Query → Prop} {query : Query}

theorem own (holds : query.Throughout property) : property query.body := by
  cases holds
  assumption

theorem nested (holds : query.Throughout property) :
    ∀ inner ∈ query.body.nested, inner.Throughout property := by
  cases holds
  assumption

/-- What is recorded of a query as a whole does not matter to the queries nested in it. -/
theorem withMetadata {statement : Statement Query} {metadata : Option Metadata}
    (holds : Throughout property ⟨statement⟩)
    (keeps : property statement → property { statement with metadata }) :
    Throughout property ⟨{ statement with metadata }⟩ :=
  .intro (keeps holds.own) holds.nested

end Throughout

/-- A query and the queries nested in its fields and conditions, at any depth. -/
inductive Reaches : Query → Query → Prop where
  | self (query : Query) : Reaches query query
  | nested {query next inner : Query} (member : next ∈ query.body.nested)
      (reaches : Reaches next inner) : Reaches query inner

theorem Reaches.trans {query middle inner : Query} (first : query.Reaches middle)
    (second : middle.Reaches inner) : query.Reaches inner := by
  induction first with
  | self query => exact second
  | nested member _ induction => exact .nested member (induction second)

/-- The query itself, or a list of related rows in it, at any depth. -/
inductive Spans : Query → Query → Prop where
  | self (query : Query) : Spans query query
  | listed {query next inner : Query} (member : next ∈ query.body.listed)
      (spans : Spans next inner) : Spans query inner

/-- The inner query is a list of related rows in the outer one, at any depth. -/
def Encloses (outer inner : Query) : Prop :=
  ∃ list ∈ outer.body.listed, list.Spans inner

theorem Spans.trans {query middle inner : Query} (first : query.Spans middle)
    (second : middle.Spans inner) : query.Spans inner := by
  induction first with
  | self query => exact second
  | listed member _ induction => exact .listed member (induction second)

theorem Spans.encloses {query outer inner : Query} (spans : query.Spans outer)
    (member : inner ∈ outer.body.listed) : query.Encloses inner := by
  induction spans with
  | self query => exact ⟨inner, member, .self inner⟩
  | listed first _ induction =>
      obtain ⟨list, given, spans⟩ := induction member
      exact ⟨_, first, .listed given spans⟩

theorem Spans.reaches {query inner : Query} (spans : query.Spans inner) : query.Reaches inner := by
  induction spans with
  | self query => exact .self query
  | listed member _ induction => exact .nested (Statement.mem_nested_iff.2 (.inl member)) induction

/-- Each query in a query is a list in this, or in one in a condition of a query in this. -/
theorem Reaches.exists_spans {query inner : Query} (reaches : query.Reaches inner) :
    query.Spans inner ∨
      ∃ outer head, query.Reaches outer ∧ head ∈ outer.body.conditional ∧ head.Spans inner := by
  induction reaches with
  | self query => exact .inl (.self query)
  | @nested query next inner member reaches induction =>
      rcases induction with spans | ⟨outer, head, reached, given, spans⟩
      · rcases Statement.mem_nested_iff.1 member with listed | conditional
        · exact .inl (.listed listed spans)
        · exact .inr ⟨query, next, .self query, conditional, spans⟩
      · exact .inr ⟨outer, head, .nested member reached, given, spans⟩

/--
Queries that are compiled together, with all lists in them, apart from others: the
whole query alone, or those in the conditions of one query.
-/
def Together (query : Query) (heads : List Query) : Prop :=
  heads = [query] ∨ ∃ outer, query.Reaches outer ∧ heads = outer.body.conditional

theorem Together.reaches {query head inner : Query} {heads : List Query}
    (together : query.Together heads) (given : head ∈ heads) (spans : head.Spans inner) :
    query.Reaches inner := by
  rcases together with rfl | ⟨outer, reached, rfl⟩
  · cases List.mem_singleton.1 given
    exact spans.reaches
  · exact reached.trans (.nested (Statement.mem_nested_iff.2 (.inr given)) spans.reaches)

theorem Reaches.exists_together {query inner : Query} (reaches : query.Reaches inner) :
    ∃ heads, query.Together heads ∧ ∃ head ∈ heads, head.Spans inner := by
  rcases reaches.exists_spans with spans | ⟨outer, head, reached, given, spans⟩
  · exact ⟨[query], .inl rfl, query, List.mem_singleton_self _, spans⟩
  · exact ⟨_, .inr ⟨outer, reached, rfl⟩, head, given, spans⟩

theorem height_mk (statement : Statement Query) :
    height ⟨statement⟩ = (statement.nested.map height).foldl max 0 + 1 := by
  rw [height, fold_mk, Statement.nested_map]
  rfl

theorem le_foldl_max_iff {bound start : Nat} {values : List Nat} :
    bound ≤ values.foldl max start ↔ bound ≤ start ∨ ∃ value ∈ values, bound ≤ value := by
  induction values generalizing start with
  | nil => simp
  | cons first rest induction => simp [induction, or_assoc]

theorem height_lt {query inner : Query} (member : inner ∈ query.body.nested) :
    inner.height < query.height := by
  obtain ⟨statement⟩ := query
  rw [height_mk, Nat.lt_succ_iff, le_foldl_max_iff]
  exact .inr ⟨inner.height, List.mem_map_of_mem member, Nat.le_refl _⟩

theorem throughout_iff {property : Statement Query → Prop} {query : Query} :
    query.Throughout property ↔ ∀ inner, query.Reaches inner → property inner.body := by
  constructor
  · intro holds inner reaches
    induction reaches with
    | self query => exact holds.own
    | nested member _ induction => exact induction (holds.nested _ member)
  · intro holds
    induction height : query.height using Nat.strongRecOn generalizing query with
    | ind bound induction =>
        subst height
        obtain ⟨statement⟩ := query
        refine .intro (holds _ (.self _)) fun next member => ?_
        exact induction next.height (height_lt member)
          (fun inner reaches => holds inner (.nested member reaches)) rfl

theorem Throughout.mono {property weaker : Statement Query → Prop} {query : Query}
    (holds : query.Throughout property) (weaken : ∀ statement, property statement → weaker statement) :
    query.Throughout weaker :=
  throughout_iff.2 fun inner reaches => weaken inner.body (throughout_iff.1 holds inner reaches)

theorem Throughout.and {property other : Statement Query → Prop} {query : Query}
    (holds : query.Throughout property) (also : query.Throughout other) :
    query.Throughout fun statement => property statement ∧ other statement :=
  throughout_iff.2 fun inner reaches =>
    ⟨throughout_iff.1 holds inner reaches, throughout_iff.1 also inner reaches⟩

end Query

end ObjectQuery
