import ObjectQuery.Proofs.Compiler.Source
import ObjectQuery.Proofs.Resolution.Single

namespace ObjectQuery

/-!
What the names of objects stand for in a query that stands alone or in a
condition, and where its columns under single names are found.
-/

namespace Statement

variable {start : Path}

theorem primaryPath_eq_ok {place : QueryPlace} (alone : place ≠ .select)
    {parent : Option (Statement Query)} {statement : Statement Query}
    (accepts : primaryPath place parent statement = .ok start) :
    ∃ object rest, statement.objects = object :: rest ∧ object.path = start ∧ start.length = 1 := by
  unfold primaryPath at accepts
  split at accepts
  · cases accepts
  · exact absurd rfl alone
  iterate 2
    rename_i object first
    split at accepts
    · cases accepts
      obtain ⟨rest, objects⟩ := List.head?_eq_some_iff.1 first
      exact ⟨object, rest, objects, rfl, ‹_›⟩
    · cases accepts

/--
Once the objects of a query that stands alone or in a condition are resolved,
the key of each stands for a path with this key, unless it stands for that of an
object whose alias spells it. Where the paths hold no dots, this is the path of
the object itself, letter case aside. A column under a single name that is no
alias of a selected field is found under the path that the key of the primary
object stands for, which is the primary path unless an alias spells that key.
-/
theorem resolveNames_alone {place : QueryPlace} (alone : place ≠ .select)
    {parent : Option (Statement Query)} {statement resolved : Statement Query}
    (parsed : statement.Parsed) (accepts : primaryPath place parent statement = .ok start)
    {before after : Session} {selected : SelectAliases Query} {aliases : AliasMap}
    (resolves : statement.resolveNames place start .empty before =
      .ok (resolved, selected, aliases) after) :
    ∃ scope : Scope Query, Scope.resolveObjects place start
        ⟨statement.objects, .empty, statement.isAggregation, before.mentions⟩ = .ok ⟨⟩ scope ∧
      (∀ object ∈ scope.objects, ∃ path, scope.aliases.find? object.key = some path ∧
        (path.key = object.key ∨ Scope.Captures scope.objects object.key path) ∧
        ((∀ declared ∈ statement.objects, declared.path.Plain) →
          path.same object.path = true ∨ Scope.Captures scope.objects object.key path)) ∧
      ∃ path, scope.aliases.find? start.key = some path ∧
        (path = start ∨ Scope.Captures scope.objects start.key path) ∧
        statement.SettlesIn path selected resolved := by
  obtain ⟨primary, rest, objects, rfl, single⟩ := primaryPath_eq_ok alone accepts
  let entry : Scope Query :=
    ⟨statement.objects, .empty, statement.isAggregation, before.mentions⟩
  have rooted : Step.Meets (Scope.resolveObjects place primary.path) entry fun _ scope =>
      scope.Rooted primary.path :=
    Scope.resolveObjects_rooted alone single ⟨primary, rest, objects, rfl⟩ rfl
  have standing : Step.Meets (Scope.resolveObjects place primary.path) entry fun _ scope =>
      scope.Standing scope.objects :=
    Scope.resolveObjects_standing place primary.path rfl
  have anchors := rooted.mono fun _ scope rooted =>
    rooted.under.named.imp fun path stands => Scope.Anchored.mk rooted.starts stands
  have settles := resolve_settles place primary.path parsed.filter parsed.having anchors
  unfold resolveNames at resolves
  dsimp only at resolves
  split at resolves
  · rename_i run
    cases resolves
    obtain ⟨scope, path, run, anchored, settled⟩ := settles.of_ok run
    have rooted := rooted.of_ok run
    have standing := standing.of_ok run
    refine ⟨scope, run, fun object member => ?_, path, anchored.stands, ?_, settled⟩
    · obtain ⟨path, found⟩ := standing.registered object member
      have spelled := standing.spelled object.key path found
      refine ⟨path, found, spelled, fun plain => spelled.imp_left fun keys => ?_⟩
      have primaryPlain := plain primary (by simp [objects])
      have sound := (Scope.resolveObjects_sound place primaryPlain parsed.declared plain
        (Scope.inherits_empty fun _ => False)).of_ok run
      obtain ⟨located, key⟩ := sound.objects object member
      exact (sound.aliases object.key path found).2.plain.same_of_key_eq located.plain
        (keys.trans key)
    · refine (standing.spelled _ path anchored.stands).imp_left fun keys => ?_
      exact Path.eq_of_key_eq single (rooted.under.aliases _ path anchored.stands) keys
  · cases resolves

end Statement

namespace CompilerOptions

/-- Names without an object, in every clause. -/
def singleNames : String :=
  "SELECT Id, FIELDS(all), MAX(Age), Name n FROM Contact c, Account a " ++
    "WHERE Phone = Account.Phone ORDER BY n, Birthday"

/-- The statement resolves by itself, its primary object having the path. -/
def resolvesAlone (start : Path) (statement : Statement Query) : Bool :=
  (Statement.primaryPath .primary none statement).toOption == some start &&
    match statement.resolveNames .primary start .empty { limit := none } with
    | .ok _ _ => true
    | .error _ _ => false

theorem exists_of_resolvesAlone {start : Path} {statement : Statement Query}
    (run : resolvesAlone start statement = true) :
    Statement.primaryPath .primary none statement = .ok start ∧
      ∃ resolved selected aliases after,
        statement.resolveNames .primary start .empty { limit := none } =
          .ok (resolved, selected, aliases) after := by
  obtain ⟨primary, resolves⟩ := Bool.and_eq_true_iff.1 run
  constructor
  · cases accepts : Statement.primaryPath .primary none statement with
    | ok path =>
        rw [accepts] at primary
        exact congrArg Except.ok (Option.some.inj (eq_of_beq primary))
    | error error =>
        rw [accepts] at primary
        cases primary
  · split at resolves
    · exact ⟨_, _, _, _, ‹_›⟩
    · cases resolves

theorem resolveNames_singleNames :
    ∃ parsed resolved selected aliases after, parse {} singleNames = .ok parsed ∧
      Statement.primaryPath .primary none parsed.body = .ok ["Contact"] ∧
      parsed.body.resolveNames .primary ["Contact"] .empty { limit := none } =
        .ok (resolved, selected, aliases) after ∧
      (∀ declared ∈ parsed.body.objects, declared.path.Plain) ∧
      ∃ scope : Scope Query, (∀ object ∈ scope.objects, ∃ path,
          scope.aliases.find? object.key = some path ∧ (path.same object.path = true ∨
            Scope.Captures scope.objects object.key path)) ∧
        ∃ path, scope.aliases.find? (Path.key ["Contact"]) = some path ∧
          (path = ["Contact"] ∨ Scope.Captures scope.objects (Path.key ["Contact"]) path) ∧
          parsed.body.SettlesIn path selected resolved := by
  have run : parsesTo {} singleNames (fun parsed =>
      resolvesAlone ["Contact"] parsed.body && parsed.body.objects.all fun declared =>
        declared.path != [] && declared.path.all fun segment => !segment.toList.contains '.') =
      true := by
    decide +kernel
  obtain ⟨parsed, parses, passes⟩ := exists_of_parsesTo run
  obtain ⟨resolves, declared⟩ := Bool.and_eq_true_iff.1 passes
  obtain ⟨accepts, resolved, selected, aliases, after, resolves⟩ :=
    exists_of_resolvesAlone resolves
  have plain : ∀ declared ∈ parsed.body.objects, declared.path.Plain := by
    intro object member
    simpa [Path.Plain, Undotted] using List.all_eq_true.1 declared object member
  obtain ⟨scope, _, objects, path, stands, means, settles⟩ := Statement.resolveNames_alone
    (by decide) (parsed_of_parse parses).own accepts resolves
  refine ⟨parsed, resolved, selected, aliases, after, parses, accepts, resolves, plain, scope,
    fun object member => ?_, path, stands, means, settles⟩
  obtain ⟨path, found, _, own⟩ := objects object member
  exact ⟨path, found, own plain⟩

/-- An alias that spells the name of the primary object. -/
def capturingAlias : String :=
  "SELECT Id FROM Contact, Account Contact"

/-- The key of the primary object stands for another, under which a single name is found. -/
theorem captured_of_capturingAlias :
    ∃ parsed scope query, parse {} capturingAlias = .ok parsed ∧
      Scope.resolveObjects .primary ["Contact"]
        ⟨parsed.body.objects, .empty, parsed.body.isAggregation, {}⟩ = .ok ⟨⟩ scope ∧
      (∃ object ∈ scope.objects, object.path = ["Contact"] ∧
        scope.aliases.find? object.key = some ["Contact", "Account"]) ∧
      compile {} capturingAlias = .ok query ∧
      parsed.body.fields.map (·.kind.path?) = [some ["Id"]] ∧
      query.body.fields.map (·.kind.path?) = [some ["Contact", "Account", "Id"]] := by
  have reads : parsesTo {} capturingAlias (fun parsed =>
      (parsed.body.fields.map (·.kind.path?) == [some ["Id"]]) &&
        match Scope.resolveObjects .primary ["Contact"]
          ⟨parsed.body.objects, .empty, parsed.body.isAggregation, {}⟩ with
        | .ok _ scope => scope.objects.any fun object => object.path == ["Contact"] &&
            scope.aliases.find? object.key == some ["Contact", "Account"]
        | .error _ _ => false) = true := by
    decide +kernel
  have writes : compilesTo {} capturingAlias (fun query =>
      query.body.fields.map (·.kind.path?) == [some ["Contact", "Account", "Id"]]) = true := by
    decide +kernel
  obtain ⟨parsed, parses, passes⟩ := exists_of_parsesTo reads
  obtain ⟨query, compiled, found⟩ := exists_of_compilesTo writes
  obtain ⟨named, resolves⟩ := Bool.and_eq_true_iff.1 passes
  split at resolves
  · rename_i scope run
    refine ⟨parsed, scope, query, parses, run, ?_, compiled, eq_of_beq named, eq_of_beq found⟩
    simpa using resolves
  · cases resolves

end CompilerOptions

end ObjectQuery
