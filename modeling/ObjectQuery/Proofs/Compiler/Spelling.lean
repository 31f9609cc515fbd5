import ObjectQuery.Compiler.Query
import ObjectQuery.Proofs.Plan.Spelling

namespace ObjectQuery

/-!
Queries that differ in spellings at most are compiled alike. The limit on queries
nested in each other is looked at only to tell whether a query is too deep.
-/

variable {spelling : Respelling} {queries : Query → Query → Prop} {limit alsoLimit : Option Nat}

namespace Query

variable {statement other : Statement Query}

theorem fieldName_shows (likeness : Likeness spelling queries) {field other : Field Query}
    (same : field.Respelled spelling queries other) :
    spelling.Shows (fieldName field) (fieldName other) :=
  fun exact => congrArg fieldName (Field.Respelled.eq exact (likeness.eq exact) _ _ same)

theorem repetition?_related (likeness : Likeness spelling queries)
    (same : statement.Respelled spelling queries other) :
    Option.Rel (SemanticError.Respelled spelling) (repetition? statement) (repetition? other) := by
  have groups := Field.repeated?_related [] same.groupBy
  have orders := Field.repeated?_related [] (same.orderBy.map fun _ _ orders => orders.field)
  unfold repetition?
  rcases groups.elim with ⟨none, noneToo⟩ | ⟨field, also, some, someToo, fields⟩
  · rw [none, noneToo]
    exact orders.map fun _ _ fields => .duplicateOrderKey (fieldName_shows likeness fields)
  · rw [some, someToo]
    exact .some (.duplicateGroupKey (fieldName_shows likeness fields))

end Query

namespace Statement

open Step (Parallel)

variable {statement other : Statement Query}

theorem register_aligned (place : QueryPlace) (depth : Nat) {parent also : Option (Statement Query)}
    (parents : Option.Rel (Statement.Respelled spelling queries) parent also)
    (same : statement.Respelled spelling queries other) :
    Session.Aligned limit alsoLimit (statement.register place depth parent)
      (other.register place depth also) (Statement.Respelled spelling queries) := by
  have parentIds : parent.map (·.id) = also.map (·.id) :=
    (parents.map fun _ _ statements => statements.id).eq fun _ _ equal => equal
  unfold register
  rw [parentIds]
  refine Session.takeQueryId_aligned.bind ?_
  rintro id _ rfl
  refine (Session.Aligned.modify ?_).bind fun _ _ _ =>
    .pure { same with id := rfl, parentId := rfl }
  rintro session _ ⟨limited, rfl⟩
  exact ⟨limited, rfl⟩

theorem primaryPath_related (place : QueryPlace) {parent also : Option (Statement Query)}
    (parents : Option.Rel (Statement.Respelled spelling queries) parent also)
    (same : statement.Respelled spelling queries other) :
    Except.Related (CompileError.Respelled spelling) (Path.Respelled spelling)
      (primaryPath place parent statement) (primaryPath place also other) := by
  have objects := same.objects.head?
  have outer := parents.bind fun _ _ statements => statements.objects.head?
  unfold primaryPath
  rcases objects.elim with ⟨none, noneToo⟩ | ⟨object, alsoObject, some, someToo, sources⟩
  · rw [none, noneToo, same.id]
    exact .error (.internal _)
  · rw [some, someToo]
    cases place with
    | select =>
        dsimp only
        rcases outer.elim with ⟨none, noneToo⟩ | ⟨around, alsoAround, some, someToo, sources⟩
        · rw [none, noneToo]
          exact .error (.internal _)
        · rw [some, someToo]
          exact .ok sources.path
    | primary | conditional =>
        dsimp only
        rw [sources.path.length_eq]
        split
        · exact .ok sources.path
        · exact .error (.semantic (.qualifiedPrimaryObject sources.path.shows))

theorem resolveNames_alike (place : QueryPlace) {primary also : Path}
    (paths : primary.Respelled spelling also) {aliases alsoAliases : AliasMap}
    (known : aliases.Related (Path.Respelled spelling) alsoAliases)
    (same : statement.Respelled spelling queries other) :
    Compilation.Alike spelling limit alsoLimit (statement.resolveNames place primary aliases)
      (other.resolveNames place also alsoAliases) fun named alsoNamed =>
        named.1.Respelled spelling queries alsoNamed.1 ∧
          named.2.1.Related (Field.Respelled spelling queries) alsoNamed.2.1 ∧
          named.2.2.Related (Path.Respelled spelling) alsoNamed.2.2 := by
  rintro session _ ⟨limited, rfl⟩
  have begins : Scope.Respelled spelling queries
      ⟨statement.objects, aliases, statement.isAggregation, session.mentions⟩
      ⟨other.objects, alsoAliases, other.isAggregation, session.mentions⟩ :=
    ⟨same.objects, known, same.isAggregation, rfl⟩
  have resolving := resolve_alike place paths same
  unfold resolveNames
  dsimp only
  cases run : statement.resolve place primary
    ⟨statement.objects, aliases, statement.isAggregation, session.mentions⟩ with
  | ok resolved after =>
      obtain ⟨alsoResolved, last, runToo, statements, scopes⟩ := resolving.of_ok begins run
      rw [runToo]
      dsimp only
      refine ⟨_, _, rfl, ⟨statements.1, statements.2, scopes.aliases⟩, limited, ?_⟩
      rw [scopes.mentions]
  | error error after =>
      obtain impossible | ⟨fault, last, runToo, faults⟩ := resolving.of_error begins run
      · exact impossible.elim
      · rw [runToo]
        exact .inr ⟨_, _, rfl, faults⟩

theorem assignIds_alike (likeness : Likeness spelling queries) (depth : Nat)
    {selected others : SelectAliases Query}
    (known : selected.Related (Field.Respelled spelling queries) others)
    (same : statement.Respelled spelling queries other) :
    Compilation.Alike spelling limit alsoLimit (statement.assignIds depth selected)
      (other.assignIds depth others) (Statement.Respelled spelling queries) := by
  refine (Compilation.ofState_alike (assignViewIds_aligned depth same)).bind fun _ _ viewed => ?_
  refine (Compilation.ofState_alike (assignColumnIds_aligned viewed)).bind fun _ _ numbered => ?_
  have named := nameFields_respelled selected.keys numbered
  dsimp only
  rw [← known.keys_eq]
  rcases (Query.repetition?_related likeness named).elim with
    ⟨none, noneToo⟩ | ⟨error, fault, some, someToo, faults⟩
  · rw [none, noneToo]
    exact .pure named
  · rw [some, someToo]
    exact .throw (.semantic faults)

theorem mentionBounds_alike (same : statement.Respelled spelling queries other) :
    Compilation.Alike spelling limit alsoLimit statement.mentionBounds other.mentionBounds
      fun _ _ => True := by
  have parameters : List.Forall₂ spelling.allows statement.bounds.parameters
      other.bounds.parameters := by
    have bound {bound also : Option RowBound} (bounds : Option.Rel (RowBound.Respelled spelling)
        bound also) : Option.Rel spelling.allows (bound.bind RowBound.parameter?)
          (also.bind RowBound.parameter?) := by
      refine bounds.bind fun _ _ bounds => ?_
      cases bounds with
      | count => exact .none
      | parameter names => exact .some names
    have bounds : List.Forall₂ (Option.Rel (RowBound.Respelled spelling))
        [statement.bounds.offset, statement.bounds.limit]
        [other.bounds.offset, other.bounds.limit] :=
      .cons same.bounds.offset (.cons same.bounds.limit .nil)
    exact bounds.filterMap fun _ _ => bound
  have mentioned (mentions : Mentions) :
      statement.bounds.parameters.foldl Mentions.addParameter mentions =
        other.bounds.parameters.foldl Mentions.addParameter mentions := by
    refine parameters.foldl Eq rfl ?_
    rintro mentions _ name other rfl names
    exact Field.addParameter_eq names mentions
  refine Parallel.modify ?_
  rintro session _ ⟨limited, rfl⟩
  refine ⟨limited, ?_⟩
  dsimp only
  rw [mentioned]

/-- Compiling a statement by itself, where it is not nested too deep. -/
def compileAllowed (place : QueryPlace) (depth : Nat) (inherited : AliasMap)
    (parent : Option (Statement Query)) (statement : Statement Query) :
    Compilation (Statement Query × Option (Statement Query) × AliasMap) := do
  let statement ← Compilation.ofState (statement.register place depth parent)
  let primary ← Compilation.ofExcept (primaryPath place parent statement)
  let named ← statement.resolveNames place primary (if place = .select then inherited else .empty)
  let statement ← named.1.assignIds depth named.2.1
  let planned ← statement.plan (if place = .select then parent else none)
  return (planned.1, if place = .select then planned.2 else parent, named.2.2)

theorem compileAllowed_alike (likeness : Likeness spelling queries) (place : QueryPlace)
    (depth : Nat) {inherited others : AliasMap}
    (known : inherited.Related (Path.Respelled spelling) others)
    {parent also : Option (Statement Query)}
    (parents : Option.Rel (Statement.Respelled spelling queries) parent also)
    (same : statement.Respelled spelling queries other) :
    Compilation.Alike spelling limit alsoLimit
      (statement.compileAllowed place depth inherited parent)
      (other.compileAllowed place depth others also) fun own alsoOwn =>
        own.1.Respelled spelling queries alsoOwn.1 ∧
          Option.Rel (Statement.Respelled spelling queries) own.2.1 alsoOwn.2.1 ∧
          own.2.2.Related (Path.Respelled spelling) alsoOwn.2.2 := by
  refine (Compilation.ofState_alike (register_aligned place depth parents same)).bind
    fun _ _ registered => ?_
  refine (Compilation.ofExcept_alike (primaryPath_related place parents registered)).bind
    fun _ _ paths => ?_
  have names : SortedMap.Related (Path.Respelled spelling)
      (if place = .select then inherited else .empty)
      (if place = .select then others else .empty) := by
    split
    · exact known
    · exact .empty
  refine (resolveNames_alike place paths names registered).bind ?_
  rintro ⟨resolved, selected, aliases⟩ ⟨alsoResolved, alsoSelected, alsoAliases⟩
    ⟨statements, aliased, aliasesToo⟩
  refine (assignIds_alike likeness depth aliased statements).bind fun _ _ numbered => ?_
  have around : Option.Rel (Statement.Respelled spelling queries)
      (if place = .select then parent else none) (if place = .select then also else none) := by
    split
    · exact parents
    · exact .none
  refine (plan_alike likeness numbered around).bind fun planned alsoPlanned plans => .pure ?_
  refine ⟨plans.1, ?_, aliasesToo⟩
  dsimp only
  split
  · exact plans.2
  · exact parents

theorem compileOwn_alike (likeness : Likeness spelling queries) (atMost : AtMost limit alsoLimit)
    (place : QueryPlace) (depth : Nat) {inherited others : AliasMap}
    (known : inherited.Related (Path.Respelled spelling) others)
    {parent also : Option (Statement Query)}
    (parents : Option.Rel (Statement.Respelled spelling queries) parent also)
    (same : statement.Respelled spelling queries other) :
    Compilation.Alike spelling limit alsoLimit (statement.compileOwn place depth inherited parent)
      (other.compileOwn place depth others also) fun own alsoOwn =>
        own.1.Respelled spelling queries alsoOwn.1 ∧
          Option.Rel (Statement.Respelled spelling queries) own.2.1 alsoOwn.2.1 ∧
          own.2.2.Related (Path.Respelled spelling) alsoOwn.2.2 := by
  have allowed : Compilation.Alike spelling limit alsoLimit _ _ _ :=
    compileAllowed_alike likeness place depth known parents same
  unfold compileOwn
  refine Parallel.get.bind ?_
  rintro session _ ⟨limited, rfl⟩
  dsimp only
  rw [limited]
  cases limit with
  | none =>
      cases alsoLimit with
      | none => exact allowed
      | some bound =>
          obtain ⟨lower, impossible, _⟩ := atMost bound rfl
          cases impossible
  | some lower =>
      dsimp only
      by_cases deep : lower < depth
      · rw [if_pos deep]
        by_cases equal : some lower = alsoLimit
        · subst equal
          dsimp only
          rw [if_pos deep]
          exact .throw_bind (.semantic (.nestingTooDeep depth lower))
        · exact .excuse fun _ => ⟨_, _, rfl, equal, depth, lower, rfl⟩
      · rw [if_neg deep]
        cases alsoLimit with
        | none => exact allowed
        | some bound =>
            obtain ⟨_, given, least⟩ := atMost bound rfl
            cases given
            have shallow : ¬bound < depth := by omega
            dsimp only
            rw [if_neg shallow]
            exact allowed

end Statement

namespace Query

open Step (Parallel)

theorem nestedAt?_related {statement other : Statement Query}
    (same : statement.Respelled spelling queries other) (index : Nat) :
    Option.Rel queries (nestedAt? statement index) (nestedAt? other index) :=
  (same.fields.getElem? index).bind fun _ _ fields => fields.kind.query?

theorem replaceNested_respelled {statement other : Statement Query}
    (same : statement.Respelled spelling queries other) (index : Nat) {query also : Query}
    (nested : queries query also) :
    (statement.replaceNested index query).Respelled spelling queries
      (other.replaceNested index also) :=
  { same with
    fields := same.fields.modify index fun _ _ fields => fields.withKind (.subquery nested) }

/-- What becomes of statements that differ in spellings at most, however deep they are nested. -/
theorem compileWithin_alike (likeness : Likeness spelling queries) (atMost : AtMost limit alsoLimit)
    (levels : Nat) (place : QueryPlace) (depth : Nat) {inherited others : AliasMap}
    (known : inherited.Related (Path.Respelled spelling) others)
    {parent also : Option (Statement Query)}
    (parents : Option.Rel (Statement.Respelled spelling queries) parent also)
    {statement other : Statement Query} (same : statement.Respelled spelling queries other) :
    Compilation.Alike spelling limit alsoLimit
      (compileWithin levels place depth inherited parent statement)
      (compileWithin levels place depth others also other) fun compiled alsoCompiled =>
        compiled.1.Respelled spelling queries alsoCompiled.1 ∧
          Option.Rel (Statement.Respelled spelling queries) compiled.2 alsoCompiled.2 := by
  induction levels generalizing place depth inherited others parent also statement other with
  | zero => exact .throw (.internal _)
  | succ levels induction =>
      unfold compileWithin
      refine (Statement.compileOwn_alike likeness atMost place depth known parents same).bind ?_
      rintro ⟨own, parent, aliases⟩ ⟨alsoOwn, also, alsoAliases⟩ ⟨statements, parents, known⟩
      dsimp only at statements parents known ⊢
      rw [statements.fields.length_eq]
      refine (Parallel.foldlM _ statements fun index statement other statements => ?_).bind
        fun listed alsoListed statements => ?_
      · rcases (nestedAt?_related statements index).elim with
          ⟨none, noneToo⟩ | ⟨query, alsoQuery, some, someToo, nested⟩
        · rw [none, noneToo]
          exact .pure statements
        · rw [some, someToo]
          refine (induction .select (depth + 1) known (.some statements)
            (likeness.body nested)).bind fun _ _ compiled => .pure ?_
          exact replaceNested_respelled (compiled.2.getD _ _ statements) index
            (likeness.of_body compiled.1)
      refine (Statement.mentionBounds_alike statements).bind fun _ _ _ => ?_
      have primaryLength : (listed.objects.head?.map (·.path.length)).getD 0 =
          (alsoListed.objects.head?.map (·.path.length)).getD 0 :=
        (statements.objects.head?.map fun _ _ objects => objects.path.length_eq).getD _ _ rfl
      rw [primaryLength]
      let pairs (conditions others : List (Condition (Field Query)) × List (Condition (Field Query))) :
          Prop :=
        Condition.Respelled spelling queries conditions.1 others.1 ∧
          Condition.Respelled spelling queries conditions.2 others.2
      refine (Compilation.apart_alike _ (?conditions : Compilation.Alike spelling limit alsoLimit _ _
        pairs)).bind ?_
      · refine (Parallel.mapM statements.filter ?operand).bind
          fun _ _ (filter : Condition.Respelled spelling queries _ _) =>
            (Parallel.mapM statements.having ?operand).bind
              fun _ _ (having : Condition.Respelled spelling queries _ _) => .pure ⟨filter, having⟩
        intro entry other entries
        cases entries with
        | operand same =>
            dsimp only [Condition.operand?, Option.bind_some]
            rcases same.kind.query?.elim with
              ⟨none, noneToo⟩ | ⟨query, alsoQuery, some, someToo, nested⟩
            · rw [none, noneToo]
              exact .pure (.operand same)
            · rw [some, someToo]
              refine (induction .conditional (depth + 1) .empty (.some statements)
                (likeness.body nested)).bind fun _ _ compiled => .pure ?_
              exact .operand (same.withKind (.subquery (likeness.of_body compiled.1)))
        | noop => exact .pure .noop
        | unknown => exact .pure .unknown
        | operator op => exact .pure (.operator op)
      · rintro ⟨filter, having⟩ ⟨alsoFilter, alsoHaving⟩ ⟨filters, havings⟩
        exact .pure ⟨{ statements with filter := filters, having := havings }, parents⟩

theorem compileNested_alike (likeness : Likeness spelling queries)
    (atMost : AtMost limit alsoLimit) (place : QueryPlace) (depth : Nat)
    {parent also : Option (Statement Query)}
    (parents : Option.Rel (Statement.Respelled spelling queries) parent also) {query other : Query}
    (same : queries query other) :
    Compilation.Alike spelling limit alsoLimit (query.compileNested place depth parent)
      (other.compileNested place depth also) fun compiled alsoCompiled =>
        queries compiled.1 alsoCompiled.1 ∧
          Option.Rel (Statement.Respelled spelling queries) compiled.2 alsoCompiled.2 := by
  unfold compileNested
  rw [likeness.height_eq same]
  exact (compileWithin_alike likeness atMost _ place depth .empty parents
    (likeness.body same)).bind fun _ _ compiled =>
      .pure ⟨likeness.of_body compiled.1, compiled.2⟩

/--
Queries that differ in spellings at most compile to such queries, with the same
metadata, or both fail for the same reason. The results differ in no spellings
but those allowed for the queries: a name that is made up has one spelling.
-/
theorem compile_respelled (spelling : Respelling) (limit : Option Nat) {query other : Query}
    (same : query.Respelled spelling other) :
    Except.Related (CompileError.Respelled spelling)
      (fun compiled also => compiled.1.Respelled spelling also.1 ∧ compiled.2 = also.2)
      (query.compile limit) (other.compile limit) := by
  have compiles : Compilation.Alike spelling limit limit (query.compileNested .primary 1 none)
      (other.compileNested .primary 1 none) _ :=
    compileNested_alike (likeness_respelled spelling) (.refl limit) .primary 1 .none same
  have begins : Session.Alike limit limit { limit } { limit } := ⟨rfl, rfl⟩
  unfold compile
  cases run : query.compileNested .primary 1 none { limit } with
  | ok compiled after =>
      obtain ⟨also, _, runToo, ⟨queries, _⟩, ⟨_, rfl⟩⟩ := compiles.of_ok begins run
      rw [runToo]
      exact .ok ⟨queries, rfl⟩
  | error error after =>
      obtain ⟨differ, _⟩ | ⟨fault, last, runToo, same⟩ := compiles.of_error begins run
      · exact absurd rfl differ
      · rw [runToo]
        exact .error same

/-- Accounts by name, with how many there are, grouped by an alias. -/
def namedAccounts : Query :=
  ⟨{ fields := [{ kind := .column ["Name"], aliasName := some "title" },
        .ofKind (.call "Count" [.ofKind (.column ["acc", "Id"])])]
     objects := [{ path := ["Account"], aliasName := some "acc" }]
     groupBy := [.ofKind (.column ["Title"])] }⟩

def namedAccountsInCapitals : Query :=
  ⟨{ fields := [{ kind := .column ["NAME"], aliasName := some "TITLE" },
        .ofKind (.call "COUNT" [.ofKind (.column ["ACC", "ID"])])]
     objects := [{ path := ["ACCOUNT"], aliasName := some "ACC" }]
     groupBy := [.ofKind (.column ["title"])] }⟩

theorem respelled_namedAccounts : namedAccounts.Respelled .anyCase namedAccountsInCapitals := by
  have name : lowerText "Name" = lowerText "NAME" := by decide +kernel
  have title : lowerText "title" = lowerText "TITLE" := by decide +kernel
  have key : lowerText "Title" = lowerText "title" := by decide +kernel
  have count : lowerText "Count" = lowerText "COUNT" := by decide +kernel
  have acc : lowerText "acc" = lowerText "ACC" := by decide +kernel
  have id : lowerText "Id" = lowerText "ID" := by decide +kernel
  have account : lowerText "Account" = lowerText "ACCOUNT" := by decide +kernel
  have column {path also : Path} {aliasName alsoName : Option String}
      (paths : path.Respelled .anyCase also)
      (names : Option.Rel Respelling.anyCase.allows aliasName alsoName) :
      Field.Respelled .anyCase (Query.Respelled .anyCase)
        { kind := .column path, aliasName } { kind := .column also, aliasName := alsoName } :=
    .intro (.column paths) names rfl rfl rfl rfl rfl
  have counted : Field.Respelled .anyCase (Query.Respelled .anyCase)
      (.ofKind (.call "Count" [.ofKind (.column ["acc", "Id"])]))
      (.ofKind (.call "COUNT" [.ofKind (.column ["ACC", "ID"])])) :=
    .intro (.call count (.cons (column (.cons acc (.cons id .nil)) .none) .nil)) .none rfl rfl rfl
      rfl rfl
  exact (likeness_respelled .anyCase).of_body { Statement.Respelled.empty with
    fields := .cons (column (.cons name .nil) (.some title)) (.cons counted .nil)
    objects := .cons ⟨.cons account .nil, .some acc, rfl, rfl, rfl, rfl, rfl, .none⟩ .nil
    groupBy := .cons (column (.cons key .nil) .none) .nil }

theorem compile_respelled_namedAccounts :
    ∃ compiled also metadata, namedAccounts.compile none = .ok (compiled, metadata) ∧
      namedAccountsInCapitals.compile none = .ok (also, metadata) ∧
      compiled.Respelled .anyCase also := by
  have succeeds : (namedAccounts.compile none).isOk = true := by decide +kernel
  have related := compile_respelled .anyCase none respelled_namedAccounts
  revert succeeds related
  generalize namedAccounts.compile none = outcome
  generalize namedAccountsInCapitals.compile none = outcomeToo
  rintro succeeds related
  cases related with
  | @ok compiled also same =>
      obtain ⟨compiled, metadata⟩ := compiled
      obtain ⟨also, _⟩ := also
      obtain ⟨queries, rfl⟩ := same
      exact ⟨compiled, also, metadata, rfl, rfl, queries⟩
  | error => cases succeeds

end Query

end ObjectQuery
