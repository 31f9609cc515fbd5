import ObjectQuery.Proofs.Compiler.Source

namespace ObjectQuery

/-!
The graph of queries. The numbers of queries follow the order in which a reader
meets them: a query comes before those nested in it, the ones among its fields
before the ones in its filter, and these before the ones in the filter of groups.
-/

namespace Query

/--
The numbers of a query and of those nested in it, in the order in which a reader
meets them, each with what the graph of queries is to record of it.
-/
def outline (query : Query) : QueryNode → List (Nat × QueryNode) :=
  query.fold fun statement node =>
    let nested (isConditional : Bool) (inner : QueryNode → List (Nat × QueryNode)) :=
      inner ⟨some statement.id, node.depth + 1, isConditional⟩
    (statement.id, node) ::
      (statement.listed.flatMap (nested false) ++ statement.conditional.flatMap (nested true))

/-- The outlines of queries that are nested in one query. -/
def outlines (queries : List Query) (node : QueryNode) : List (Nat × QueryNode) :=
  queries.flatMap (·.outline node)

theorem outline_mk (statement : Statement Query) (node : QueryNode) :
    outline ⟨statement⟩ node =
      (statement.id, node) ::
        (outlines statement.listed ⟨some statement.id, node.depth + 1, false⟩ ++
          outlines statement.conditional ⟨some statement.id, node.depth + 1, true⟩) := by
  rw [outline, fold_mk]
  simp only [Statement.listed_map, Statement.conditional_map, List.flatMap_map]
  rfl

theorem outline_metadata (statement : Statement Query) (metadata : Option Metadata)
    (node : QueryNode) : outline ⟨{ statement with metadata }⟩ node = outline ⟨statement⟩ node := by
  rw [outline_mk, outline_mk]
  rfl

theorem outlines_append (left right : List Query) (node : QueryNode) :
    outlines (left ++ right) node = outlines left node ++ outlines right node :=
  List.flatMap_append

end Query

namespace Tally

/-- The numbers in the graph are those that were given. -/
def Fresh (tally : Tally) : Prop :=
  ∀ entry ∈ tally.queryGraph.entries, entry.1 < tally.nextQueryId

/-- Between the tallies, the queries of an outline are numbered. -/
structure Records (before after : Tally) (outline : List (Nat × QueryNode)) : Prop where
  next : after.nextQueryId = before.nextQueryId + outline.length
  ids : outline.map Prod.fst = List.range' before.nextQueryId outline.length
  graph : after.queryGraph.entries = before.queryGraph.entries ++ outline
  depth : after.maxQueryDepth = (outline.map (·.2.depth)).foldl max before.maxQueryDepth
  limit : after.limit = before.limit
  within : ∀ limit, before.limit = some limit → ∀ entry ∈ outline, entry.2.depth ≤ limit

namespace Records

variable {before middle after : Tally} {outline more : List (Nat × QueryNode)}

theorem refl (tally : Tally) : Records tally tally [] := by
  constructor <;> simp

theorem trans (first : Records before middle outline) (second : Records middle after more) :
    Records before after (outline ++ more) where
  next := by rw [second.next, first.next, List.length_append, Nat.add_assoc]
  ids := by
    rw [List.map_append, first.ids, second.ids, first.next, List.length_append,
      List.range'_append_1]
  graph := by rw [second.graph, first.graph, List.append_assoc]
  depth := by rw [second.depth, first.depth, List.map_append, List.foldl_append]
  limit := second.limit.trans first.limit
  within := by
    intro limit bounded entry member
    rcases List.mem_append.1 member with member | member
    · exact first.within limit bounded entry member
    · exact second.within limit (first.limit.trans bounded) entry member

theorem fresh (records : Records before after outline) (fresh : before.Fresh) : after.Fresh := by
  intro entry member
  rw [records.graph, List.mem_append] at member
  rw [records.next]
  rcases member with earlier | given
  · exact Nat.lt_add_right _ (fresh entry earlier)
  · have number : entry.1 ∈ outline.map Prod.fst := List.mem_map_of_mem given
    rw [records.ids, List.mem_range'_1] at number
    exact number.2

theorem depth_le (records : Records before after outline) :
    ∀ entry ∈ outline, entry.2.depth ≤ after.maxQueryDepth := by
  intro entry member
  rw [records.depth, Query.le_foldl_max_iff]
  exact .inr ⟨_, List.mem_map_of_mem member, Nat.le_refl _⟩

theorem exists_depth_eq (records : Records before after outline) {entry : Nat × QueryNode}
    (member : entry ∈ outline) (deeper : before.maxQueryDepth ≤ entry.2.depth) :
    ∃ deepest ∈ outline, deepest.2.depth = after.maxQueryDepth := by
  have reached := Nat.le_refl after.maxQueryDepth
  conv at reached => rhs; rw [records.depth]
  rcases Query.le_foldl_max_iff.1 reached with before | ⟨depth, given, reached⟩
  · exact ⟨entry, member,
      Nat.le_antisymm (records.depth_le entry member) (Nat.le_trans before deeper)⟩
  · obtain ⟨deepest, member, rfl⟩ := List.mem_map.1 given
    exact ⟨deepest, member, Nat.le_antisymm (records.depth_le deepest member) reached⟩

theorem of_register {node : QueryNode} (fresh : before.Fresh)
    (within : ∀ limit, before.limit = some limit → node.depth ≤ limit) :
    Records before (before.register node) [(before.nextQueryId, node)] where
  next := rfl
  ids := rfl
  graph := SortedMap.insertEntry_of_lt node fun entry member =>
    Nat.compare_eq_lt.2 (fresh entry member)
  depth := rfl
  limit := rfl
  within := by simpa using within

end Records

end Tally

namespace Query

open Tally (Fresh Records)

/-- What compiling a query adds to what is known of queries is its outline. -/
def records : Outcome := fun site _ before result _ after =>
  before.tally.Fresh → Records before.tally after.tally (outline ⟨result⟩ site.node)

theorem Lists.records {depth done : Nat} {aliases : AliasMap} {own statement : Statement Query}
    {start state : Session} (fresh : start.tally.Fresh)
    (lists : Lists records depth aliases own start done statement state) :
    Records start.tally state.tally
      (outlines (listedBefore statement done) ⟨some own.id, depth + 1, false⟩) := by
  induction lists with
  | start => exact .refl _
  | skip lists plain induction => rwa [listedBefore_skip plain]
  | nested lists found grows compiled induction =>
      rw [listedBefore_replaceNested grows found, outlines_append]
      have last := compiled (induction.fresh fresh)
      rw [Site.node, Option.map_some, lists.selecting.id] at last
      refine induction.trans ?_
      rw [outlines, List.flatMap_singleton]
      exact last

theorem Operands.records {depth : Nat} {around : Statement Query}
    {conditions results : List (Condition (Field Query))} {before after : Session}
    (fresh : before.tally.Fresh)
    (operands : Operands records depth around conditions before results after) :
    Records before.tally after.tally
      (outlines (results.filterMap Condition.query?) ⟨some around.id, depth + 1, true⟩) := by
  induction operands with
  | nil => exact .refl _
  | plain plain later induction =>
      rw [List.filterMap_cons_none plain]
      exact induction fresh
  | nested kind compiled later induction =>
      have first := compiled fresh
      exact first.trans (induction (first.fresh fresh))

theorem records_of_compiled {site : Site} {statement result : Statement Query}
    {before after : Session} {around : Option (Statement Query)} (_ : statement.Parsed)
    (compiled : Compiled records site statement before result around after) :
    records site statement before result around after := by
  intro fresh
  cases compiled with
  | @intro own selected _ _ filter having planned listing starting filtering ending after compiled
      lists begins filtered grouped ends =>
      have number : own.id = selected.id := lists.selecting.id.symm
      -- The own number is given first, then those of the lists, and those in conditions at last.
      have first : Records before.tally planned.tally [(selected.id, site.node)] := by
        rw [compiled.tally, ← number, compiled.id]
        exact .of_register fresh compiled.limit
      have listed := first.trans (lists.records (first.fresh fresh))
      have started : starting.tally = listing.tally := by
        rw [begins]
        rfl
      rw [lists.listed, ← started, number] at listed
      have filters := listed.trans (filtered.records (listed.fresh fresh))
      have havings := filters.trans (grouped.records (filters.fresh fresh))
      rw [List.append_assoc, List.append_assoc, ← outlines_append] at havings
      rw [outline_mk, ends]
      exact havings

end Query

namespace CompilerOptions

/--
Queries are numbered from one on in the order in which a reader meets them. The
graph of queries records for each the query around it, how deep it is nested and
whether it stands in a condition; none is nested deeper than the limit allows.
-/
theorem queryGraph_of_compile {options : CompilerOptions} {source : String} {date : Instant}
    {elapsedTime : Nat} {query : Query}
    (compiled : options.compile source date elapsedTime = .ok query) :
    ∃ metadata, query.body.metadata = some metadata ∧
      metadata.queryGraph.entries = query.outline ⟨none, 1, false⟩ ∧
      metadata.queryGraph.keys = List.range' 1 (metadata.nextQueryId - 1) ∧
      (∀ entry ∈ metadata.queryGraph.entries, entry.2.depth ≤ metadata.maxQueryDepth) ∧
      (∃ entry ∈ metadata.queryGraph.entries, entry.2.depth = metadata.maxQueryDepth) ∧
      ∀ limit, options.maxNesting = some limit → metadata.maxQueryDepth ≤ limit := by
  obtain ⟨parsed, around, after, body, _, records, rfl⟩ := outcome_of_compile (fun _ own => own)
    Query.records_of_compiled (fun _ => parsed_of_parse) compiled
  have records := records fun _ impossible => by cases impossible
  have graph : after.queryGraph.entries = Query.outline ⟨body⟩ Site.root.node := records.graph
  have keys : after.queryGraph.keys = List.range' 1 (after.nextQueryId - 1) := by
    have next : after.nextQueryId = 1 + (Query.outline ⟨body⟩ Site.root.node).length := records.next
    rw [SortedMap.keys, graph, next, Nat.add_sub_cancel_left]
    exact records.ids
  have root : (body.id, Site.root.node) ∈ Query.outline ⟨body⟩ Site.root.node := by
    rw [Query.outline_mk]
    exact List.mem_cons_self
  obtain ⟨deepest, member, attained⟩ := records.exists_depth_eq root (Nat.zero_le _)
  refine ⟨_, rfl, ?_, keys, ?_, ?_, ?_⟩
  · exact graph.trans (Query.outline_metadata body _ _).symm
  · exact fun entry given => records.depth_le entry (graph ▸ given)
  · exact ⟨deepest, graph ▸ member, attained⟩
  · intro limit bounded
    exact Nat.le_trans (Nat.le_of_eq attained.symm) (records.within limit bounded deepest member)

/-- A query with another one in its filter, and one among its fields that has a third. -/
def nestedTwice : String :=
  "SELECT (SELECT Id FROM Contact.Tasks WHERE Kind IN (SELECT Id FROM Kind)) FROM Contact " ++
    "WHERE Id IN (SELECT ContactId FROM Visit)"

def nestedTwiceOutline : List (Nat × QueryNode) :=
  [(1, ⟨none, 1, false⟩), (2, ⟨some 1, 2, false⟩), (3, ⟨some 2, 3, true⟩), (4, ⟨some 1, 2, true⟩)]

theorem compile_nestedTwice :
    ∃ query, compile {} nestedTwice = .ok query ∧
      query.outline ⟨none, 1, false⟩ = nestedTwiceOutline := by
  have run : compilesTo {} nestedTwice
      (fun query => query.outline ⟨none, 1, false⟩ == nestedTwiceOutline) = true := by
    decide +kernel
  obtain ⟨query, compiled, outline⟩ := exists_of_compilesTo run
  exact ⟨query, compiled, eq_of_beq outline⟩

theorem queryGraph_of_nestedTwice :
    ∃ query metadata, compile {} nestedTwice = .ok query ∧ query.body.metadata = some metadata ∧
      metadata.queryGraph.entries = nestedTwiceOutline ∧
      metadata.queryGraph.keys = List.range' 1 (metadata.nextQueryId - 1) ∧
      (∀ limit, (some Cursor.defaultLimit) = some limit → metadata.maxQueryDepth ≤ limit) := by
  obtain ⟨query, compiled, outline⟩ := compile_nestedTwice
  obtain ⟨metadata, present, graph, keys, _, _, limit⟩ := queryGraph_of_compile compiled
  exact ⟨query, metadata, compiled, present, graph.trans outline, keys, limit⟩

end CompilerOptions

end ObjectQuery
