import ObjectQuery.Proofs.Compiler.Source

namespace ObjectQuery

/-!
The residual of a compiled query against its filter. Queries in conditions are
compiled after the residual is cut from the filter, and in the filter only.
-/

namespace Condition

/-- What compiling the queries in conditions makes of an entry. -/
inductive Compiles : Condition (Field Query) → Condition (Field Query) → Prop where
  | same {entry : Condition (Field Query)} (plain : entry.query? = none) : Compiles entry entry
  | nested {field : Field Query} {parsed compiled : Query} (kind : field.kind = .subquery parsed)
      (unnumbered : parsed.body.id = 0) (numbered : compiled.body.id ≠ 0) :
      Compiles (.operand field) (.operand { field with kind := .subquery compiled })

end Condition

namespace Query

/--
A compiled query, like the queries nested in it. Its residual is part of the
filter before the queries in that were compiled.
-/
inductive Settled : Query → Prop where
  | intro {statement : Statement Query} {earlier : List (Condition (Field Query))}
      (numbered : statement.id ≠ 0) (cut : statement.residual.Sublist earlier)
      (compiled : List.Forall₂ Condition.Compiles earlier statement.filter)
      (nested : ∀ query ∈ statement.nested, Settled query) : Settled ⟨statement⟩

theorem Settled.numbered {query : Query} (settled : query.Settled) : query.body.id ≠ 0 := by
  cases settled
  assumption

theorem Settled.of_reaches {query inner : Query} (settled : query.Settled)
    (reaches : query.Reaches inner) : inner.Settled := by
  induction reaches with
  | self query => exact settled
  | nested member _ induction =>
      cases settled with
      | intro numbered cut compiled nested => exact induction (nested _ member)

/-- A query that was only read is settled when it is compiled, if numbers are given from one on. -/
structure Settles (statement : Statement Query) (before : Session) (result : Statement Query)
    (after : Session) : Prop where
  unnumbered : statement.id = 0
  settled : before.nextQueryId ≠ 0 → Settled ⟨result⟩ ∧ after.nextQueryId ≠ 0

def settles : Outcome := fun _ statement before result _ after =>
  Settles statement before result after

/-- Queries in conditions are numbered by compiling them, and settled. -/
theorem Operands.compiles {depth : Nat} {around : Statement Query}
    {conditions results : List (Condition (Field Query))} {before after : Session}
    (operands : Operands settles depth around conditions before results after)
    (counting : before.nextQueryId ≠ 0) :
    List.Forall₂ (fun entry result => entry.Compiles result ∧ result.Nests Settled) conditions
      results ∧ after.nextQueryId ≠ 0 := by
  apply operands.forall₂ _ _ counting
  · exact fun entry plain => ⟨.same plain, fun query found => by simp [plain] at found⟩
  · intro field query before body parent after kind counting settles
    obtain ⟨settled, counted⟩ := settles.settled counting
    refine ⟨⟨.nested kind settles.unnumbered settled.numbered, ?_⟩, counted⟩
    rintro query ⟨⟩
    exact settled

theorem settles_of_compiled {site : Site} {statement result : Statement Query}
    {before after : Session} {around : Option (Statement Query)} (read : statement.Parsed)
    (compiled : Compiled settles site statement before result around after) :
    settles site statement before result around after := by
  refine ⟨read.unnumbered, fun counting => ?_⟩
  cases compiled with
  | @intro own selected _ _ filter having planned listing starting filtering ending after compiled
      lists begins filtered grouped ends =>
      have next : planned.nextQueryId = before.nextQueryId + 1 :=
        congrArg Tally.nextQueryId compiled.tally
      obtain ⟨listed, counted⟩ := lists.forall_listed
        (fun counting settles => settles.settled counting) (next ▸ Nat.succ_ne_zero _)
      have started : starting.nextQueryId = listing.nextQueryId :=
        congrArg (·.nextQueryId) begins
      obtain ⟨filters, counted⟩ := filtered.compiles (started ▸ counted)
      obtain ⟨havings, counted⟩ := grouped.compiles counted
      have ended : after.nextQueryId = ending.nextQueryId := congrArg (·.nextQueryId) ends
      have selecting := lists.selecting
      have numbered : selected.id ≠ 0 := selecting.id.symm ▸ compiled.id.symm ▸ counting
      have cut : selected.residual.Sublist selected.filter := by
        rw [selecting.residual, selecting.filter]
        exact compiled.residual
      refine ⟨.intro numbered cut (filters.imp fun _ _ => And.left) ?_, ended ▸ counted⟩
      rw [Statement.nested_eq_append, Statement.conditional]
      simp only [List.forall_mem_append]
      exact ⟨listed, Condition.forall_query?_of_forall₂ (filters.imp fun _ _ => And.right),
        Condition.forall_query?_of_forall₂ (havings.imp fun _ _ => And.right)⟩

end Query

namespace Condition

/-- Entries that stand for no queries are in the filter as they were before. -/
theorem sublist_of_compiles {earlier filter kept : List (Condition (Field Query))}
    (compiled : List.Forall₂ Compiles earlier filter) (cut : kept.Sublist earlier)
    (plain : ∀ entry ∈ kept, entry.query? = none) : kept.Sublist filter := by
  induction compiled generalizing kept with
  | nil => exact cut
  | cons first others induction =>
      cases cut with
      | cons _ rest => exact (induction rest plain).cons _
      | cons_cons _ rest =>
          obtain ⟨same, later⟩ := List.forall_mem_cons.1 plain
          cases first with
          | same => exact (induction rest later).cons_cons _
          | nested kind => simp [query?, operand?, kind, FieldKind.query?] at same

/-- The queries of a filter have numbers when they are compiled, and none before. -/
theorem id_of_compiles {earlier filter : List (Condition (Field Query))}
    (compiled : List.Forall₂ Compiles earlier filter) :
    (∀ entry ∈ earlier, entry.Nests fun query => query.body.id = 0) ∧
      ∀ entry ∈ filter, entry.Nests fun query => query.body.id ≠ 0 := by
  induction compiled with
  | nil => simp
  | cons first others induction =>
      simp only [List.forall_mem_cons]
      refine ⟨⟨?_, induction.1⟩, ?_, induction.2⟩
      · intro query nested
        cases first with
        | same plain => simp [plain] at nested
        | nested kind unnumbered => simp_all [query?, operand?, FieldKind.query?]
      · intro query nested
        cases first with
        | same plain => simp [plain] at nested
        | nested kind _ numbered =>
            cases nested
            exact numbered

end Condition

namespace CompilerOptions

variable {options : CompilerOptions} {source : String} {date : Instant} {elapsedTime : Nat}
  {query inner : Query}

theorem settled_of_compile (compiled : options.compile source date elapsedTime = .ok query) :
    query.Settled := by
  obtain ⟨parsed, around, after, body, _, settles, rfl⟩ := outcome_of_compile (fun _ own => own)
    Query.settles_of_compiled (fun _ => parsed_of_parse) compiled
  cases (settles.settled Nat.one_ne_zero).1 with
  | intro numbered cut conditions nested => exact .intro numbered cut conditions nested

/--
The residual of a compiled query is part of the filter as it was before the
queries in it were compiled, so it is part of the filter where none of its
entries stands for a query, and only there.
-/
theorem residual_of_compile (compiled : options.compile source date elapsedTime = .ok query)
    (reaches : query.Reaches inner) :
    (∃ earlier, inner.body.residual.Sublist earlier ∧
      List.Forall₂ Condition.Compiles earlier inner.body.filter) ∧
    (inner.body.residual.Sublist inner.body.filter ↔
      ∀ entry ∈ inner.body.residual, entry.query? = none) := by
  cases (settled_of_compile compiled).of_reaches reaches with
  | intro numbered cut conditions nested =>
      refine ⟨⟨_, cut, conditions⟩, fun part entry member => ?_,
        Condition.sublist_of_compiles conditions cut⟩
      obtain ⟨before, after⟩ := Condition.id_of_compiles conditions
      cases nested : entry.query? with
      | none => rfl
      | some query =>
          have unnumbered := before entry (cut.subset member) query nested
          exact absurd unnumbered (after entry (part.subset member) query nested)

/-- A filter with a query that is left for the joined rows. -/
def nestedFilter : String :=
  "SELECT Id FROM Contact WHERE Id IN (SELECT ContactId FROM Task)"

/-- Some query in the residual has no number, while all in the filter have. -/
def leavesUnnumbered (statement : Statement Query) : Bool :=
  statement.residual.any (·.query?.any (·.body.id == 0)) &&
    statement.filter.all (·.query?.all (·.body.id != 0))

theorem compile_nestedFilter :
    ∃ query, compile {} nestedFilter = .ok query ∧ leavesUnnumbered query.body = true := by
  have run : compilesTo {} nestedFilter (fun query => leavesUnnumbered query.body) = true := by
    decide +kernel
  exact exists_of_compilesTo run

theorem residual_of_nestedFilter :
    ∃ query, compile {} nestedFilter = .ok query ∧ query.Reaches query ∧
      (∃ earlier, query.body.residual.Sublist earlier ∧
        List.Forall₂ Condition.Compiles earlier query.body.filter) ∧
      (query.body.residual.Sublist query.body.filter ↔
        ∀ entry ∈ query.body.residual, entry.query? = none) := by
  obtain ⟨query, compiled, _⟩ := compile_nestedFilter
  exact ⟨query, compiled, .self query, residual_of_compile compiled (.self query)⟩

/-- The residual keeps the query as it was read, and the filter has it compiled. -/
theorem not_sublist_of_nestedFilter :
    ∃ query, compile {} nestedFilter = .ok query ∧
      ¬query.body.residual.Sublist query.body.filter := by
  obtain ⟨query, compiled, leaves⟩ := compile_nestedFilter
  refine ⟨query, compiled, fun part => ?_⟩
  obtain ⟨left, numbered⟩ := (Bool.and_eq_true _ _).mp leaves
  obtain ⟨entry, member, nested⟩ := List.any_eq_true.1 left
  have given := List.all_eq_true.1 numbered entry (part.subset member)
  cases found : entry.query? with
  | none => simp [found] at nested
  | some query => simp_all

end CompilerOptions

end ObjectQuery
