import ObjectQuery.Proofs.Compiler.Statement

namespace ObjectQuery

/-!
Compiling a query with the queries nested in it, as a relation between what is
compiled and what results. What follows for a query from what holds of the
queries nested in it is true of every query that compiles.
-/

namespace Query

theorem lt_of_nestedAt? {statement : Statement Query} {index : Nat} {query : Query}
    (found : nestedAt? statement index = some query) : index < statement.fields.length := by
  obtain ⟨field, present, _⟩ := Option.bind_eq_some_iff.1 found
  exact (List.getElem?_eq_some_iff.1 present).1

theorem mem_nested_of_nestedAt? {statement : Statement Query} {index : Nat} {query : Query}
    (found : nestedAt? statement index = some query) : query ∈ statement.nested := by
  obtain ⟨field, present, nested⟩ := Option.bind_eq_some_iff.1 found
  exact Statement.mem_nested_iff.2
    (.inl (List.mem_filterMap.2 ⟨field, List.mem_of_getElem? present, nested⟩))

theorem nestedAt?_replaceNested (statement : Statement Query) (index other : Nat) (query : Query)
    (present : index < statement.fields.length) :
    nestedAt? (statement.replaceNested index query) other =
      if index = other then some query else nestedAt? statement other := by
  simp only [nestedAt?, Statement.replaceNested, List.getElem?_modify]
  split
  · rename_i same
    subst same
    simp [List.getElem?_eq_getElem present, FieldKind.query?]
  · simp

/-- The queries among the fields before `done`. -/
def listedBefore (statement : Statement Query) (done : Nat) : List Query :=
  (statement.fields.take done).filterMap (·.kind.query?)

theorem listedBefore_succ (statement : Statement Query) (done : Nat) :
    listedBefore statement (done + 1) =
      listedBefore statement done ++ (nestedAt? statement done).toList := by
  rw [listedBefore, List.take_add_one, List.filterMap_append, listedBefore, nestedAt?]
  cases statement.fields[done]? <;> rfl

theorem listedBefore_congr {statement other : Statement Query} {done : Nat}
    (same : ∀ index < done, nestedAt? other index = nestedAt? statement index) :
    listedBefore other done = listedBefore statement done := by
  induction done with
  | zero => rfl
  | succ done induction =>
      rw [listedBefore_succ, listedBefore_succ, same done (Nat.lt_succ_self done),
        induction fun index below => same index (Nat.lt_succ_of_lt below)]

/-- All queries among the fields, where there are none from `done` on. -/
theorem listedBefore_eq_listed {statement : Statement Query} {done : Nat}
    (beyond : ∀ index, done ≤ index → nestedAt? statement index = none) :
    listedBefore statement done = statement.listed := by
  have rest : (statement.fields.drop done).filterMap (·.kind.query?) = [] := by
    rw [List.filterMap_eq_nil_iff]
    intro field member
    obtain ⟨index, present⟩ := List.getElem?_of_mem member
    rw [List.getElem?_drop] at present
    have plain := beyond (done + index) (Nat.le_add_right ..)
    rwa [nestedAt?, present] at plain
  rw [listedBefore, Statement.listed]
  conv_rhs => rw [← List.take_append_drop done statement.fields, List.filterMap_append, rest]
  exact (List.append_nil _).symm

/-- What may be known of a query that compiles, and of the statement around it after that. -/
abbrev Outcome :=
  Site → Statement Query → Session → Statement Query → Option (Statement Query) → Session → Prop

/-- The queries among the fields of a statement are compiled one after the other. -/
inductive Lists (outcome : Outcome) (depth : Nat) (aliases : AliasMap) (own : Statement Query)
    (start : Session) : Nat → Statement Query → Session → Prop where
  | start : Lists outcome depth aliases own start 0 own start
  | skip {done : Nat} {statement : Statement Query} {state : Session}
      (lists : Lists outcome depth aliases own start done statement state)
      (plain : nestedAt? statement done = none) :
      Lists outcome depth aliases own start (done + 1) statement state
  | nested {done : Nat} {statement grown body : Statement Query} {state after : Session}
      {query : Query} (lists : Lists outcome depth aliases own start done statement state)
      (found : nestedAt? statement done = some query)
      (grows : statement.Grown (fun _ _ => True) grown)
      (compiled : outcome ⟨.select, depth + 1, aliases, some statement⟩ query.body state body
        (some grown) after) :
      Lists outcome depth aliases own start (done + 1) (grown.replaceNested done ⟨body⟩) after

/-- What stays of a statement while the queries among its fields before `done` are compiled. -/
structure Selecting (own : Statement Query) (done : Nat) (statement : Statement Query) : Prop where
  frame : statement = { own with fields := statement.fields, objects := statement.objects }
  objects : statement.objects.map SourceObject.bare = own.objects.map SourceObject.bare
  remaining : ∀ index, done ≤ index → nestedAt? statement index = nestedAt? own index

namespace Selecting

variable {own statement : Statement Query} {done : Nat}

theorem id (selecting : Selecting own done statement) : statement.id = own.id :=
  congrArg (·.id) selecting.frame

theorem filter (selecting : Selecting own done statement) : statement.filter = own.filter :=
  congrArg (·.filter) selecting.frame

theorem having (selecting : Selecting own done statement) : statement.having = own.having :=
  congrArg (·.having) selecting.frame

theorem residual (selecting : Selecting own done statement) : statement.residual = own.residual :=
  congrArg (·.residual) selecting.frame

theorem objects_ne_nil (selecting : Selecting own done statement) (nonempty : own.objects ≠ []) :
    statement.objects ≠ [] := by
  intro none
  have same := selecting.objects
  rw [none, List.map_nil, eq_comm, List.map_eq_nil_iff] at same
  exact nonempty same

end Selecting

namespace Lists

variable {outcome : Outcome} {depth : Nat} {aliases : AliasMap} {own statement : Statement Query}
  {start state : Session} {done : Nat}

theorem selecting (lists : Lists outcome depth aliases own start done statement state) :
    Selecting own done statement := by
  induction lists with
  | start => exact ⟨rfl, rfl, fun _ _ => rfl⟩
  | skip lists plain induction =>
      exact { induction with remaining := fun index after => induction.remaining index (by omega) }
  | @nested done statement grown body _ _ query lists found grows compiled induction =>
      refine ⟨?_, grows.objects.trans induction.objects, fun index after => ?_⟩
      · rw [grows.frame, induction.frame]
        rfl
      · have present := lt_of_nestedAt? ((grows.nestedAt done).trans found)
        rw [nestedAt?_replaceNested grown done index ⟨body⟩ present, if_neg (by omega),
          grows.nestedAt index, induction.remaining index (by omega)]

/-- One more query among the fields is compiled. -/
theorem listedBefore_replaceNested {grown body : Statement Query} {query : Query}
    (grows : statement.Grown (fun _ _ => True) grown)
    (found : nestedAt? statement done = some query) :
    listedBefore (grown.replaceNested done ⟨body⟩) (done + 1) =
      listedBefore statement done ++ [⟨body⟩] := by
  have present := lt_of_nestedAt? ((grows.nestedAt done).trans found)
  have nestedAt := nestedAt?_replaceNested grown done
  rw [listedBefore_succ, nestedAt done ⟨body⟩ present, if_pos rfl]
  congr 1
  apply listedBefore_congr
  intro index below
  rw [nestedAt index ⟨body⟩ present, if_neg (by omega), grows.nestedAt index]

theorem listedBefore_skip (plain : nestedAt? statement done = none) :
    listedBefore statement (done + 1) = listedBefore statement done := by
  rw [listedBefore_succ, plain]
  exact List.append_nil _

theorem listed (lists : Lists outcome depth aliases own start own.fields.length statement state) :
    listedBefore statement own.fields.length = statement.listed := by
  apply listedBefore_eq_listed
  intro index beyond
  rw [lists.selecting.remaining index beyond, nestedAt?, List.getElem?_eq_none beyond]
  rfl

/--
What holds of each query that is compiled holds of all those among the fields,
where the session is kept in a state that it may depend on.
-/
theorem forall_listed {property : Query → Prop} {invariant : Session → Prop}
    (lists : Lists outcome depth aliases own start own.fields.length statement state)
    (holds : ∀ {parent query before body around after}, invariant before →
      outcome ⟨.select, depth + 1, aliases, some parent⟩ query before body around after →
        property ⟨body⟩ ∧ invariant after)
    (begins : invariant start) :
    (∀ query ∈ statement.listed, property query) ∧ invariant state := by
  rw [← lists.listed]
  generalize own.fields.length = done at lists
  induction lists with
  | start => exact ⟨by simp [listedBefore], begins⟩
  | skip lists plain induction => rwa [listedBefore_skip plain]
  | nested lists found grows compiled induction =>
      obtain ⟨earlier, held⟩ := induction
      obtain ⟨last, held⟩ := holds held compiled
      rw [listedBefore_replaceNested grows found, List.forall_mem_append]
      exact ⟨⟨earlier, by simpa using last⟩, held⟩

theorem forall_of_outcome {property : Query → Prop}
    (lists : Lists outcome depth aliases own start own.fields.length statement state)
    (holds : ∀ {parent query before body around after},
      outcome ⟨.select, depth + 1, aliases, some parent⟩ query before body around after →
        property ⟨body⟩) :
    ∀ query ∈ statement.listed, property query := by
  let whatever (_ : Session) : Prop := True
  suffices (∀ query ∈ statement.listed, property query) ∧ whatever state from this.1
  exact lists.forall_listed (fun _ compiled => ⟨holds compiled, trivial⟩) trivial

end Lists

/-- The queries in conditions are compiled one after the other. -/
inductive Operands (outcome : Outcome) (depth : Nat) (around : Statement Query) :
    List (Condition (Field Query)) → Session → List (Condition (Field Query)) → Session →
      Prop where
  | nil {state : Session} : Operands outcome depth around [] state [] state
  | plain {entry : Condition (Field Query)} {rest results : List (Condition (Field Query))}
      {state after : Session} (plain : entry.query? = none)
      (later : Operands outcome depth around rest state results after) :
      Operands outcome depth around (entry :: rest) state (entry :: results) after
  | nested {field : Field Query} {query : Query} {body : Statement Query}
      {parent : Option (Statement Query)} {rest results : List (Condition (Field Query))}
      {state middle after : Session} (kind : field.kind = .subquery query)
      (compiled : outcome ⟨.conditional, depth + 1, .empty, some around⟩ query.body state body
        parent middle)
      (later : Operands outcome depth around rest middle results after) :
      Operands outcome depth around (.operand field :: rest) state
        (.operand { field with kind := .subquery ⟨body⟩ } :: results) after

namespace Operands

variable {outcome : Outcome} {depth : Nat} {around : Statement Query}
  {conditions results : List (Condition (Field Query))} {state after : Session}

theorem forall₂ {related : Condition (Field Query) → Condition (Field Query) → Prop}
    {invariant : Session → Prop}
    (operands : Operands outcome depth around conditions state results after)
    (same : ∀ entry : Condition (Field Query), entry.query? = none → related entry entry)
    (compiles : ∀ {field query before body parent after}, field.kind = .subquery query →
      invariant before →
      outcome ⟨.conditional, depth + 1, .empty, some around⟩ query.body before body parent after →
        related (.operand field) (.operand { field with kind := .subquery ⟨body⟩ }) ∧
          invariant after)
    (begins : invariant state) : List.Forall₂ related conditions results ∧ invariant after := by
  induction operands with
  | nil => exact ⟨.nil, begins⟩
  | plain plain later induction =>
      obtain ⟨rest, held⟩ := induction begins
      exact ⟨.cons (same _ plain) rest, held⟩
  | nested kind compiled later induction =>
      obtain ⟨first, held⟩ := compiles kind begins compiled
      obtain ⟨rest, held⟩ := induction held
      exact ⟨.cons first rest, held⟩

/--
What holds of each query that is compiled holds of all those in the conditions,
where the session is kept in a state that it may depend on.
-/
theorem forall_queries {property : Query → Prop} {invariant : Session → Prop}
    (operands : Operands outcome depth around conditions state results after)
    (holds : ∀ {query before body parent after}, invariant before →
      outcome ⟨.conditional, depth + 1, .empty, some around⟩ query before body parent after →
        property ⟨body⟩ ∧ invariant after)
    (begins : invariant state) :
    (∀ query ∈ results.filterMap Condition.query?, property query) ∧ invariant after := by
  induction operands with
  | nil => exact ⟨by simp, begins⟩
  | plain plain later induction =>
      rw [List.filterMap_cons_none plain]
      exact induction begins
  | nested kind compiled later induction =>
      obtain ⟨first, held⟩ := holds begins compiled
      obtain ⟨rest, held⟩ := induction held
      exact ⟨List.forall_mem_cons.2 ⟨first, rest⟩, held⟩

theorem forall_of_outcome {property : Query → Prop}
    (operands : Operands outcome depth around conditions state results after)
    (holds : ∀ {query before body parent after},
      outcome ⟨.conditional, depth + 1, .empty, some around⟩ query before body parent after →
        property ⟨body⟩) :
    ∀ query ∈ results.filterMap Condition.query?, property query := by
  let whatever (_ : Session) : Prop := True
  suffices (∀ query ∈ results.filterMap Condition.query?, property query) ∧ whatever after from
    this.1
  exact operands.forall_queries (fun _ compiled => ⟨holds compiled, trivial⟩) trivial

end Operands

/-- The session in which the queries in conditions of a statement are compiled. -/
def conditionSession (statement : Statement Query) (session : Session) : Session :=
  { session with
    mentions := statement.bounds.parameters.foldl Mentions.addParameter session.mentions
    registry := { depthOffset := statement.primaryLength } }

/-- A query is compiled by itself, and then the queries nested in it. -/
inductive Compiled (outcome : Outcome) (site : Site) (statement : Statement Query)
    (before : Session) : Statement Query → Option (Statement Query) → Session → Prop where
  | intro {own selected : Statement Query} {around : Option (Statement Query)} {aliases : AliasMap}
      {filter having : List (Condition (Field Query))}
      {planned listing starting filtering ending after : Session}
      (compiled : statement.OwnCompiled site before own around aliases planned)
      (lists : Lists outcome site.depth aliases own planned own.fields.length selected listing)
      (begins : starting = conditionSession selected listing)
      (filtered : Operands outcome site.depth selected selected.filter starting filter filtering)
      (grouped : Operands outcome site.depth selected selected.having filtering having ending)
      (ends : after = { ending with registry := listing.registry })
      (ran : statement.compileOwn site.place site.depth site.inherited site.parent before =
        .ok (own, around, aliases) planned) :
      Compiled outcome site statement before { selected with filter, having } around after

section

variable {outcome weaker : Outcome}
  (weaken : ∀ {site statement before result around after},
    outcome site statement before result around after →
      weaker site statement before result around after)

include weaken

theorem Lists.mono {depth done : Nat} {aliases : AliasMap} {own statement : Statement Query}
    {start state : Session} (lists : Lists outcome depth aliases own start done statement state) :
    Lists weaker depth aliases own start done statement state := by
  induction lists with
  | start => exact .start
  | skip lists plain induction => exact .skip induction plain
  | nested lists found grows compiled induction =>
      exact .nested induction found grows (weaken compiled)

theorem Operands.mono {depth : Nat} {around : Statement Query}
    {conditions results : List (Condition (Field Query))} {before after : Session}
    (operands : Operands outcome depth around conditions before results after) :
    Operands weaker depth around conditions before results after := by
  induction operands with
  | nil => exact .nil
  | plain plain later induction => exact .plain plain induction
  | nested kind compiled later induction => exact .nested kind (weaken compiled) induction

theorem Compiled.mono {site : Site} {statement result : Statement Query}
    {around : Option (Statement Query)} {before after : Session}
    (compiled : Compiled outcome site statement before result around after) :
    Compiled weaker site statement before result around after := by
  cases compiled with
  | intro compiled lists begins filtered grouped ends ran =>
      exact .intro compiled (lists.mono weaken) begins (filtered.mono weaken)
        (grouped.mono weaken) ends ran

end

theorem Compiled.grown {outcome : Outcome} {place : QueryPlace} {depth : Nat}
    {inherited : AliasMap} {parent statement result : Statement Query} {before after : Session}
    {around : Option (Statement Query)}
    (compiled : Compiled outcome ⟨place, depth, inherited, some parent⟩ statement before result
      around after) :
    ∃ grown, around = some grown ∧ parent.Grown (fun _ _ => True) grown := by
  cases compiled with
  | intro compiled =>
      cases compiled.grown with
      | some grown => exact ⟨_, rfl, grown⟩

section Run

variable (outcome : Outcome) {depth levels : Nat} {allowed : CompileError → Prop}

/-- The queries among fields are compiled if each of them can be, whatever is fetched meanwhile. -/
theorem lists_meets (aliases : AliasMap) {own : Statement Query} (nonempty : own.objects ≠ [])
    (compiles : ∀ query ∈ own.nested, ∀ parent : Statement Query, parent.objects ≠ [] → ∀ before,
      Step.Meets (compileWithin levels .select (depth + 1) aliases (some parent) query.body) before
        (fun result after => ∃ grown, result.2 = some grown ∧
          parent.Grown (fun _ _ => True) grown ∧
          outcome ⟨.select, depth + 1, aliases, some parent⟩ query.body before result.1 result.2
            after) allowed)
    (before : Session) :
    Step.Meets ((List.range own.fields.length).foldlM (fun statement index => do
        match nestedAt? statement index with
        | none => return statement
        | some query =>
            let (body, around) ←
              compileWithin levels .select (depth + 1) aliases (some statement) query.body
            return (around.getD statement).replaceNested index ⟨body⟩) own)
      before (fun selected after =>
        Lists outcome depth aliases own before own.fields.length selected after) allowed := by
  have begins : Lists outcome depth aliases own before 0 own before := .start
  refine Step.Meets.foldlM_range begins own.fields.length ?_
  intro index statement state below lists
  split
  · exact .pure (.skip lists ‹_›)
  · rename_i query found
    have selecting := lists.selecting
    have member : query ∈ own.nested :=
      mem_nested_of_nestedAt? ((selecting.remaining index (Nat.le_refl _)).symm.trans found)
    refine (compiles query member statement (selecting.objects_ne_nil nonempty) state).bind ?_
    rintro ⟨body, _⟩ after ⟨grown, rfl, grows, compiled⟩
    exact .pure (.nested lists found grows compiled)

theorem operands_meets {around : Statement Query} {conditions : List (Condition (Field Query))}
    (compiles : ∀ entry ∈ conditions, ∀ query, entry.query? = some query → ∀ before,
      Step.Meets (compileWithin levels .conditional (depth + 1) .empty (some around) query.body)
        before (fun result after => outcome ⟨.conditional, depth + 1, .empty, some around⟩
          query.body before result.1 result.2 after) allowed)
    (before : Session) :
    Step.Meets (conditions.mapM fun condition =>
        match condition.operand?.bind fun field => field.kind.query?.map (field, ·) with
        | none => return condition
        | some (field, query) => do
            let (body, _) ←
              compileWithin levels .conditional (depth + 1) .empty (some around) query.body
            return .operand { field with kind := .subquery ⟨body⟩ })
      before (fun results after => Operands outcome depth around conditions before results after)
      allowed := by
  induction conditions generalizing before with
  | nil =>
      rw [List.mapM_nil]
      exact .pure .nil
  | cons entry rest induction =>
      obtain ⟨first, later⟩ := List.forall_mem_cons.1 compiles
      rw [List.mapM_cons]
      dsimp only
      split
      · rename_i plain
        have none : entry.query? = none := by
          cases entry with
          | operand field => simpa [Condition.operand?, Condition.query?] using plain
          | noop | unknown | operator op => rfl
        rw [pure_bind]
        exact (induction later before).bind fun results after operands =>
          .pure (.plain none operands)
      · rename_i field query found
        obtain ⟨operand, given, pair⟩ := Option.bind_eq_some_iff.1 found
        obtain ⟨inner, nested, same⟩ := Option.map_eq_some_iff.1 pair
        cases same
        cases entry with
        | operand own =>
            cases given
            have kind : field.kind = .subquery query := by
              cases kind : field.kind <;> rw [kind] at nested <;> cases nested
              rfl
            rw [bind_assoc]
            refine (first query nested before).bind ?_
            rintro ⟨body, parent⟩ middle compiled
            rw [pure_bind]
            exact (induction later middle).bind fun results after operands =>
              .pure (.nested kind compiled operands)
        | noop | unknown | operator op => cases given

variable {outcome}

/-- Every query that compiles is compiled by itself, and then the queries nested in it. -/
theorem compileWithin_compiled {given : Statement Query → Prop}
    (read : ∀ statement, given statement → statement.Parsed)
    (closed : ∀ {site statement before result around after}, given statement →
      Compiled outcome site statement before result around after →
        outcome site statement before result around after)
    (levels : Nat) (site : Site) {query : Query} (holds : query.Throughout given)
    (bounded : query.height ≤ levels) (hasParent : site.HasParent) (before : Session) :
    Step.Meets
      (compileWithin levels site.place site.depth site.inherited site.parent query.body) before
      (fun result after => Compiled outcome site query.body before result.1 result.2 after)
      CompileError.IsSemantic := by
  induction levels generalizing site query before with
  | zero =>
      obtain ⟨statement⟩ := query
      rw [height_mk] at bounded
      omega
  | succ levels induction =>
      unfold compileWithin
      refine (Statement.compileOwn_meets (read _ holds.own) hasParent before).run.bind ?_
      rintro ⟨own, around, aliases⟩ planned ⟨compiled, ran⟩
      -- The nested queries are still those that were read, and lower than the one around them.
      have inner : ∀ inner ∈ own.nested, inner.Throughout given ∧ inner.height ≤ levels := by
        rw [compiled.nested]
        intro inner member
        exact ⟨holds.nested inner member,
          Nat.le_of_lt_succ (Nat.lt_of_lt_of_le (height_lt member) bounded)⟩
      have nested (place : QueryPlace) (aliases : AliasMap) {parent : Statement Query}
          (objects : parent.objects ≠ []) (query : Query) (member : query ∈ own.nested)
          (before : Session) :=
        induction ⟨place, site.depth + 1, aliases, some parent⟩ (inner query member).1
          (inner query member).2 (fun _ => ⟨parent, rfl, objects⟩) before
      have lists := lists_meets outcome aliases compiled.objects
        (fun query member parent objects before =>
          (nested .select aliases objects query member before).mono fun result after nested => by
            obtain ⟨grown, around, grows⟩ := nested.grown
            exact ⟨grown, around, grows, closed (inner query member).1.own nested⟩) planned
      refine lists.bind fun selected listing lists => .modify_bind ?_
      have selecting := lists.selecting
      have objects := selecting.objects_ne_nil compiled.objects
      have operands {conditions : List (Condition (Field Query))}
          (given : ∀ entry ∈ conditions, entry.Nests (· ∈ own.nested)) (before : Session) :=
        operands_meets outcome
          (fun entry member query found before =>
            (nested .conditional .empty objects query (given entry member query found) before).mono
              fun result after nested =>
                closed (inner query (given entry member query found)).1.own nested) before
      obtain ⟨_, inFilter, inHaving⟩ := (Statement.forall_nested_iff own).1 fun _ member => member
      rw [← selecting.filter] at inFilter
      rw [← selecting.having] at inHaving
      have conditions (before : Session) :=
        (operands inFilter before).bind fun filter filtering filtered =>
          (operands inHaving filtering).bind fun having ending grouped =>
            show Step.Meets (pure (filter, having)) ending (fun result ending =>
              ∃ filtering,
                Operands outcome site.depth selected selected.filter before result.1 filtering ∧
                Operands outcome site.depth selected selected.having filtering result.2 ending)
              CompileError.IsSemantic from .pure ⟨filtering, filtered, grouped⟩
      refine (Compilation.apart_meets (conditions _)).bind ?_
      rintro ⟨filter, having⟩ _ ⟨ending, ⟨filtering, filtered, grouped⟩, rfl⟩
      exact .pure (.intro compiled lists rfl filtered grouped rfl ran)

end Run

end Query

/-- A query that stands alone. -/
def Site.root : Site := ⟨.primary, 1, .empty, none⟩

namespace Query

variable {outcome : Outcome} {given : Statement Query → Prop} {limit : Option Nat} {query : Query}
  (read : ∀ statement, given statement → statement.Parsed)
  (closed : ∀ {site statement before result around after}, given statement →
    Compiled outcome site statement before result around after →
      outcome site statement before result around after)

include read closed

theorem compileNested_meets (holds : query.Throughout given) (before : Session) :
    Step.Meets (query.compileNested .primary 1 none) before
      (fun result after => outcome .root query.body before result.1.body result.2 after)
      CompileError.IsSemantic := by
  have hasParent : Site.root.HasParent := fun impossible => by cases impossible
  have compiled := compileWithin_compiled read closed query.height .root holds (Nat.le_refl _)
    hasParent before
  refine compiled.bind ?_
  rintro ⟨body, around⟩ after compiled
  exact .pure (closed holds.own compiled)

theorem outcome_of_compile {compiled : Query} {metadata : Metadata}
    (holds : query.Throughout given) (run : query.compile limit = .ok (compiled, metadata)) :
    ∃ around after, outcome .root query.body { limit } compiled.body around after ∧
      metadata = after.metadata := by
  unfold compile at run
  split at run
  · rename_i compiled around after nested
    cases run
    exact ⟨around, after, (compileNested_meets read closed holds { limit }).of_ok nested, rfl⟩
  · cases run

omit read closed in
theorem isSemantic_of_compile {error : CompileError} (read : query.Parsed)
    (failed : query.compile limit = .error error) : error.IsSemantic := by
  have closed {site : Site} {statement result : Statement Query} {before after : Session}
      {around : Option (Statement Query)} (_ : statement.Parsed)
      (_ : Compiled (fun _ _ _ _ _ _ => True) site statement before result around after) : True :=
    trivial
  have meets := compileNested_meets (fun _ own => own) closed read { limit }
  unfold compile at failed
  split at failed
  · cases failed
  · cases failed
    exact meets.of_error ‹_›

end Query

end ObjectQuery
