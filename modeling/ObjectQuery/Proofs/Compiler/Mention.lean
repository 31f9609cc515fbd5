import ObjectQuery.Proofs.Compiler.Source
import ObjectQuery.Proofs.Resolution.Mention

namespace ObjectQuery

/-!
The names outside of paths that a compilation records: those of all functions,
parameters and relative dates in the query that was read, and no others.
-/

namespace Statement

variable {site : Site} {statement : Statement Query}

/-- The names in the clauses of a statement that is compiled by itself are recorded. -/
theorem compileOwn_gains (read : statement.Parsed) (flat : statement.IsFlat) (before : Session) :
    Step.Meets (statement.compileOwn site.place site.depth site.inherited site.parent) before
      fun _ after =>
        before.mentions.Gains (statement.everyField.flatMap Field.ownMentions) after.mentions := by
  refine .of_runs fun result after run => ?_
  obtain ⟨course, rfl, rfl⟩ := (compileOwn_course before).of_ok run
  have gathers : Scope.Gathers
      ((statement.registered before.nextQueryId site.parent).resolve site.place course.primary)
      (statement.everyField.flatMap Field.ownMentions) :=
    resolve_gathers site.place course.primary read.filter read.having ⟨flat.fields, flat.keys⟩
  obtain ⟨_, _, same⟩ :=
    (assignIds_meets site.depth course.selected course.resolved _).of_ok course.numbers
  have ends : course.plan.after.mentions = course.scope.mentions := same
  rw [ends]
  exact gathers course.resolves

end Statement

namespace Query

def gains : Outcome := fun _ statement before _ _ after =>
  before.mentions.Gains (mentions ⟨statement⟩) after.mentions

theorem Lists.gains {depth done : Nat} {aliases : AliasMap} {own statement : Statement Query}
    {start state : Session} (lists : Lists gains depth aliases own start done statement state) :
    start.mentions.Gains ((listedBefore own done).flatMap mentions) state.mentions := by
  induction lists with
  | start => exact .refl _
  | @skip done statement state lists plain induction =>
      have same := lists.selecting.remaining done (Nat.le_refl _)
      rwa [listedBefore_skip (same ▸ plain)]
  | @nested done statement grown body state after query lists found grows compiled induction =>
      have same := lists.selecting.remaining done (Nat.le_refl _)
      obtain ⟨inner⟩ := query
      have last : state.mentions.Gains (mentions ⟨inner⟩) after.mentions := compiled
      rw [listedBefore_succ, ← same, found, List.flatMap_append]
      exact induction.trans (by simpa using last)

theorem Operands.gains {depth : Nat} {around : Statement Query}
    {conditions results : List (Condition (Field Query))} {before after : Session}
    (operands : Operands gains depth around conditions before results after) :
    before.mentions.Gains ((conditions.filterMap Condition.query?).flatMap mentions)
      after.mentions := by
  induction operands with
  | nil => exact .refl _
  | plain plain later induction =>
      rwa [List.filterMap_cons_none plain]
  | @nested field query body parent rest results before middle after kind compiled later induction =>
      have first : (Condition.operand field).query? = some query := by
        rw [Condition.query?, Condition.operand?, Option.bind_some, kind, FieldKind.query?]
      rw [List.filterMap_cons_some first, List.flatMap_cons]
      obtain ⟨inner⟩ := query
      have own : before.mentions.Gains (mentions ⟨inner⟩) middle.mentions := compiled
      exact own.trans induction

theorem gains_of_compiled {site : Site} {statement result : Statement Query}
    {before after : Session} {around : Option (Statement Query)}
    (given : statement.Parsed ∧ statement.IsFlat)
    (compiled : Compiled gains site statement before result around after) :
    gains site statement before result around after := by
  obtain ⟨read, flat⟩ := given
  cases compiled with
  | @intro own selected _ _ filter having planned listing starting filtering ending after compiled
      lists begins filtered grouped ends ran =>
      have clauses := (Statement.compileOwn_gains read flat before).of_ok ran
      have beyond : ∀ index, own.fields.length ≤ index → nestedAt? own index = none := by
        intro index beyond
        rw [nestedAt?, List.getElem?_eq_none beyond]
        rfl
      have selecting := lists.selecting
      have listed := lists.gains
      rw [listedBefore_eq_listed beyond] at listed
      have bounds : selected.bounds = statement.bounds :=
        (congrArg (·.bounds) selecting.frame).trans compiled.bounds
      have bounded := listing.mentions.gains_parameters statement.bounds.parameters
      have start : starting.mentions =
          statement.bounds.parameters.foldl Mentions.addParameter listing.mentions := by
        rw [begins, ← bounds]
        rfl
      have filters := filtered.gains
      have havings := grouped.gains
      rw [selecting.filter, start] at filters
      rw [selecting.having] at havings
      have finish : after.mentions = ending.mentions := by rw [ends]
      have all := (((clauses.trans listed).trans bounded).trans filters).trans havings
      rw [← finish] at all
      refine all.congr fun mention => ?_
      rw [mentions_mk, flat.mem_mentions_iff, ← compiled.nested, Statement.nested_eq_append]
      simp only [Statement.conditional, List.mem_append, List.mem_flatMap]
      grind

end Query

namespace CompilerOptions

/--
A compilation records the names of all functions and parameters in the query
that was read in lower case, and the keywords of all relative dates in upper
case, wherever they stand in it and in the queries nested in it, and no others.
-/
theorem mentions_of_compile {options : CompilerOptions} {source : String} {date : Instant}
    {elapsedTime : Nat} {query : Query}
    (compiled : options.compile source date elapsedTime = .ok query) :
    ∃ parsed metadata, options.parse source = .ok parsed ∧
      query.body.metadata = some metadata ∧
      (∀ name, name ∈ SortedSet.toList metadata.functions ↔
        ∃ function, .function function ∈ parsed.mentions ∧ lowerText function = name) ∧
      (∀ name, name ∈ SortedSet.toList metadata.parameters ↔
        ∃ parameter, .parameter parameter ∈ parsed.mentions ∧ lowerText parameter = name) ∧
      ∀ name, name ∈ SortedSet.toList metadata.relativeDates ↔
        ∃ keyword, .relativeDate keyword ∈ parsed.mentions ∧ upperText keyword = name := by
  obtain ⟨⟨parsed⟩, around, after, body, parses, gains, rfl⟩ := outcome_of_compile
    (fun _ given => given.1) Query.gains_of_compiled (fun _ => written_of_parse) compiled
  have recorded (mention : Mention) : after.mentions.Holds mention ↔
      mention ∈ (Query.mentions ⟨parsed⟩).map Mention.folded := by
    refine (gains mention).trans (or_iff_right ?_)
    cases mention <;> exact Bool.false_ne_true
  refine ⟨_, _, parses, rfl, fun name => ?_, fun name => ?_, fun name => ?_⟩
  · refine SortedMap.mem_keys_iff.trans ((recorded (.function name)).trans
      (Mention.mem_folded_iff fun mention name => ?_))
    cases mention <;> simp [Mention.folded]
  · refine SortedMap.mem_keys_iff.trans ((recorded (.parameter name)).trans
      (Mention.mem_folded_iff fun mention name => ?_))
    cases mention <;> simp [Mention.folded]
  · refine SortedMap.mem_keys_iff.trans ((recorded (.relativeDate name)).trans
      (Mention.mem_folded_iff fun mention name => ?_))
    cases mention <;> simp [Mention.folded]

/-- Names in calls, in a list, in bounds, and in a list of tasks and a condition. -/
def scatteredNames : String :=
  "SELECT UPPER(Trim(:Prefix)), (SELECT Id FROM Contact.Tasks WHERE Due = today LIMIT :Top) " ++
    "FROM Contact WHERE Kind IN (:kind, last_week) AND Id IN " ++
    "(SELECT ContactId FROM Visit WHERE Lower(Day) > :Top OFFSET :skip)"

/-- The names that are recorded: of functions, of parameters and of relative dates. -/
def scatteredNamesRecorded : List (List String) :=
  [["lower", "trim", "upper"], ["kind", "prefix", "skip", "top"], ["LAST_WEEK", "TODAY"]]

theorem compile_scatteredNames :
    ∃ query metadata, compile {} scatteredNames = .ok query ∧
      query.body.metadata = some metadata ∧
      [metadata.functions, metadata.parameters, metadata.relativeDates].map SortedSet.toList =
        scatteredNamesRecorded := by
  have run : compilesTo {} scatteredNames (fun query => query.body.metadata.any fun metadata =>
      [metadata.functions, metadata.parameters, metadata.relativeDates].map SortedSet.toList ==
        scatteredNamesRecorded) = true := by
    decide +kernel
  obtain ⟨query, compiled, holds⟩ := exists_of_compilesTo run
  obtain ⟨metadata, present, recorded⟩ := (Option.any_eq_true _ _).1 holds
  exact ⟨query, metadata, compiled, present, eq_of_beq recorded⟩

theorem mentions_of_scatteredNames :
    ∃ query parsed metadata, compile {} scatteredNames = .ok query ∧
      parse {} scatteredNames = .ok parsed ∧ query.body.metadata = some metadata ∧
      [metadata.functions, metadata.parameters, metadata.relativeDates].map SortedSet.toList =
        scatteredNamesRecorded ∧
      ∀ name, name ∈ SortedSet.toList metadata.parameters ↔
        ∃ parameter, .parameter parameter ∈ parsed.mentions ∧ lowerText parameter = name := by
  obtain ⟨query, metadata, compiled, present, recorded⟩ := compile_scatteredNames
  obtain ⟨parsed, own, parses, same, _, parameters, _⟩ := mentions_of_compile compiled
  cases present.symm.trans same
  exact ⟨query, parsed, metadata, compiled, parses, present, recorded, parameters⟩

end CompilerOptions

end ObjectQuery
