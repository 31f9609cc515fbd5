import ObjectQuery.Proofs.Resolution.Column
import ObjectQuery.Proofs.Resolution.Meaning
import ObjectQuery.Proofs.Resolution.Order
import ObjectQuery.Proofs.Resolution.Standing

namespace ObjectQuery

/-!
The order in which the columns of a filter are resolved. What is registered for
one column does not change where another is found, and both orders register the
same.
-/

namespace Scope

open AliasMap (meaning)

variable {Q : Type} {scope also after alsoAfter : Scope Q} {path other reached : Path}

/-- The key of each object stands for the path of the object, letter case aside. -/
def KnowsOwn (scope : Scope Q) : Prop :=
  ∀ object ∈ scope.objects,
    ∃ value, scope.aliases.find? object.key = some value ∧ value.same object.path = true

theorem KnowsOwn.register (own : scope.KnowsOwn) (unknown : scope.aliases.find? path.key = none) :
    (scope.register path).KnowsOwn := by
  have grows := (AliasMap.Grows.refl scope.aliases).insert unknown
  refine List.forall_mem_append.2 ⟨fun object member => ?_, List.forall_mem_singleton.2 ?_⟩
  · obtain ⟨value, found, same⟩ := own object member
    exact ⟨value, grows.keeps _ _ found, same⟩
  · exact ⟨path, find?_register scope path, Path.same_refl path⟩

/--
Objects stand for themselves, and names are keys of their own paths or spelled
by aliases of the declared objects.
-/
structure Steady (declared : List (SourceObject Q)) (scope : Scope Q) : Prop where
  sound : scope.Sound fun _ => False
  nonempty : scope.objects ≠ []
  own : scope.KnowsOwn
  standing : scope.Standing declared
  undotted : ∀ object ∈ declared, ∀ segment, object.aliasName = some segment → Undotted segment

namespace Steady

variable {declared : List (SourceObject Q)}

theorem values (steady : Steady declared scope) : scope.aliases.Plain :=
  fun name value found => (steady.sound.aliases name value found).2.plain

theorem fixes_object (steady : Steady declared scope) {object : SourceObject Q}
    (member : object ∈ scope.objects) : scope.aliases.Fixes object.path := by
  obtain ⟨value, found, same⟩ := steady.own object member
  exact ⟨value, (steady.sound.objects object member).2 ▸ found, same⟩

theorem fixes_take (steady : Steady declared scope)
    (located : path.LocatedIn (fun _ => False) scope.objects) {length : Nat}
    (positive : 0 < length) : scope.aliases.Fixes (path.take length) := by
  rcases located.beginnings length positive with impossible | ⟨object, member, same⟩
  · exact impossible.elim
  · exact same ▸ steady.fixes_object member

/-- What the path of a name passes through stands for itself. -/
theorem fixes (steady : Steady declared scope) (plain : path.Plain)
    (known : scope.aliases.Knows path.key) {beginning : Path} (passes : path.Passes beginning) :
    scope.aliases.Fixes beginning := by
  obtain ⟨value, found⟩ := known
  have fixed := steady.fixes_take (steady.sound.aliases _ _ found).2 passes.positive
  have valuePlain := steady.values _ _ found
  rcases steady.standing.spelled _ _ found with keys | ⟨object, member, rfl, segment, named, spells⟩
  · have taken := Path.same_take (valuePlain.same_of_key_eq plain keys) beginning.length
    rw [passes.take_eq] at taken
    exact fixed.of_same taken
  · have single := steady.undotted object member segment named
    have shorter := passes.shorter
    have positive := passes.positive
    rcases spells with keys | keys
    · -- A name without dots is that of a single segment, which passes through nothing.
      have none : Path.dots path.key = 0 := keys ▸ List.count_eq_zero.2 single.lowerText
      have length := plain.dots_key
      omega
    · obtain ⟨last, length⟩ := Path.plain_withLast valuePlain single
      have same := plain.same_of_key_eq last keys
      have lengths := Path.length_eq_of_same same
      have taken := Path.same_take same beginning.length
      rw [passes.take_eq, Path.take_withLast _ (by omega)] at taken
      exact fixed.of_same (Path.same_symm taken)

theorem closed (steady : Steady declared scope) : scope.aliases.Closed :=
  fun _ plain known _ passes => (steady.fixes plain known passes).knows

theorem walk (steady : Steady declared scope) (plain : path.Plain)
    (arrives : scope.walk true path = some (reached, after)) : Steady declared after := by
  obtain ⟨leads, _⟩ := walk_arrives steady.sound plain arrives
  exact ⟨leads.sound, leads.objects_ne_nil steady.nonempty,
    walk_keeps (fun _ _ unknown own => own.register unknown) steady.own arrives,
    walk_keeps (fun _ path _ standing => standing.register path) steady.standing arrives,
    steady.undotted⟩

end Steady

/-- The names and the objects that are new are what the path passes through. -/
structure Gains (before : Scope Q) (reached : Path) (after : Scope Q) : Prop where
  knows : ∀ name, after.aliases.Knows name ↔ before.aliases.Knows name ∨ reached.PassesKey name
  lists : ∀ name, (∃ object ∈ after.objects, object.key = name) ↔
    (∃ object ∈ before.objects, object.key = name) ∨
      ¬before.aliases.Knows name ∧ reached.PassesKey name

theorem primary_of_prefix (nonempty : scope.objects ≠ []) (begins : scope.objects <+: after.objects) :
    after.primary = scope.primary := by
  obtain ⟨rest, same⟩ := begins
  rw [primary, primary, ← same]
  cases objects : scope.objects with
  | nil => exact absurd objects nonempty
  | cons object others => rfl

theorem grows_walk (arrives : scope.walk true path = some (reached, after)) :
    scope.aliases.Grows after.aliases := by
  let grown (later : Scope Q) : Prop := scope.aliases.Grows later.aliases
  have register (later : Scope Q) (path : Path) (unknown : later.aliases.find? path.key = none)
      (grows : grown later) : grown (later.register path) := AliasMap.Grows.insert grows unknown
  exact walk_keeps register (.refl scope.aliases) arrives

/-- The path of a column, which belongs to the primary object where it is a single name. -/
def started (scope : Scope Q) (path : Path) : Path :=
  if path.length = 1 then scope.primary ++ path else path

/-- The path along which a column is looked for, from a name or the primary object on. -/
def route (scope : Scope Q) (path : Path) : Path :=
  if scope.aliases.contains ((scope.started path).leadingKey 1) then scope.started path
  else scope.primary ++ scope.started path

namespace Steady

variable {declared : List (SourceObject Q)}

theorem gains (steady : Steady declared scope) (plain : path.Plain)
    (arrives : scope.walk true path = some (reached, after)) : Gains scope reached after := by
  obtain ⟨_, _, _, within⟩ := walk_arrives steady.sound plain arrives
  obtain ⟨paths, registers⟩ := walk_registers steady.closed steady.values plain arrives
  have later := steady.walk plain arrives
  have passed {name : String} (passes : reached.PassesKey name) :
      ∃ object ∈ after.objects, object.path.key = name := by
    obtain ⟨beginning, passes, rfl⟩ := passes
    rcases within beginning.length passes.positive passes.shorter with
      impossible | ⟨object, member, same⟩
    · exact impossible.elim
    · exact ⟨object, member, by rw [same, passes.take_eq]⟩
  refine ⟨fun name => ⟨fun knows => ?_, ?_⟩, fun name => ⟨?_, ?_⟩⟩
  · rcases registers.knows_iff.1 knows with earlier | ⟨path, member, keys⟩
    · exact .inl earlier
    · exact .inr ⟨path, registers.passes path member, keys⟩
  · rintro (earlier | passes)
    · exact registers.knows_iff.2 (.inl earlier)
    · obtain ⟨object, member, rfl⟩ := passed passes
      exact (later.fixes_object member).knows
  · rintro ⟨object, member, rfl⟩
    rw [registers.objects] at member
    rcases List.mem_append.1 member with earlier | new
    · exact .inl ⟨object, earlier, rfl⟩
    · obtain ⟨path, given, rfl⟩ := List.mem_map.1 new
      exact .inr ⟨registers.unknown path given, path, registers.passes path given, rfl⟩
  · rintro (⟨object, member, keys⟩ | ⟨_, passes⟩)
    · refine ⟨object, ?_, keys⟩
      rw [registers.objects]
      exact List.mem_append_left _ member
    · obtain ⟨object, member, keys⟩ := passed passes
      exact ⟨object, member, (later.sound.objects object member).2.trans keys⟩

theorem route_plain (steady : Steady declared scope) (plain : path.Plain) :
    (scope.route path).Plain ∧ 2 ≤ (scope.route path).length := by
  have started : (scope.started path).Plain ∧ 2 ≤ (scope.started path).length :=
    started_plain steady.sound steady.nonempty plain
  unfold route
  split
  · exact started
  · exact append_primary steady.sound steady.nonempty started.1

/-- The first segment of a route is a name. -/
theorem knows_route (steady : Steady declared scope) (path : Path) :
    scope.aliases.Knows (Path.key ((scope.route path).take 1)) := by
  unfold route
  split
  · rename_i known
    exact Option.isSome_iff_exists.1 known
  · obtain ⟨object, member, own⟩ : ∃ object ∈ scope.objects, object.path = scope.primary := by
      unfold primary
      cases objects : scope.objects with
      | nil => exact absurd objects steady.nonempty
      | cons object rest => exact ⟨object, List.mem_cons_self, rfl⟩
    have located := (steady.sound.objects object member).1
    have nonempty := List.length_pos_iff.2 located.plain.1
    rw [← own, List.take_append_of_le_length nonempty]
    exact (steady.fixes_take located Nat.one_pos).knows

/-- What is looked for along a route adds no names without dots. -/
theorem knows_dotless (steady : Steady declared scope) (plain : path.Plain)
    (arrives : scope.walk true (scope.route path) = some (reached, after)) {name : String}
    (single : Path.dots name = 0) : after.aliases.Knows name ↔ scope.aliases.Knows name := by
  obtain ⟨routePlain, long⟩ := steady.route_plain plain
  refine ⟨fun known => ?_, fun known => ((steady.gains routePlain arrives).knows name).2 (.inl known)⟩
  obtain ⟨steps, walks⟩ := exists_walkWithin arrives
  rw [walkWithin_succ _ _ (by omega), opened_of_knows (steady.knows_route path)] at walks
  cases steps with
  | zero => cases walks
  | succ steps =>
      exact walkWithin_dotted steady.values ((steady.values.meaning (routePlain.take 0)).append
        (routePlain.undotted_of_mem_drop _)) Nat.one_pos walks single known

/-- Columns are looked for along the same routes after another was found. -/
theorem route_eq (steady : Steady declared scope) (plain : path.Plain)
    (arrives : scope.walk true (scope.route path) = some (reached, after)) (otherPlain : other.Plain) :
    after.route other = scope.route other := by
  have leads := (walk_arrives steady.sound (steady.route_plain plain).1 arrives).1
  have primary := primary_of_prefix steady.nonempty leads.objects
  have started : (scope.started other).Plain :=
    (started_plain steady.sound steady.nonempty otherPlain).1
  have single : Path.dots ((scope.started other).leadingKey 1) = 0 := by
    rw [Path.leadingKey, (started.take 0).dots_key, List.length_take]
    omega
  have same : after.aliases.contains ((scope.started other).leadingKey 1) =
      scope.aliases.contains ((scope.started other).leadingKey 1) := by
    rw [Bool.eq_iff_iff, SortedMap.contains, SortedMap.contains, Option.isSome_iff_exists,
      Option.isSome_iff_exists]
    exact steady.knows_dotless plain arrives single
  rw [route, route, Scope.started, primary, ← Scope.started, same]

/-- A name below which all is known is found on a walk as well, which registers nothing. -/
theorem walk_found (steady : Steady declared scope) {object value : Path} {segment : String}
    (plain : object.Plain) (found : scope.aliases.find? object.key = some value)
    (arrives : scope.walk true (object ++ [segment]) = some (reached, after)) :
    reached.same (value ++ [segment]) = true ∧ after = scope := by
  obtain ⟨steps, walks⟩ := exists_walkWithin arrives
  have positive := List.length_pos_iff.2 plain.1
  refine walkWithin_found positive (fun length longer less => ?_) found
    (fun length longer _ => steady.fixes_take (steady.sound.aliases _ _ found).2 longer) walks
  exact steady.fixes plain ⟨value, found⟩ (Path.passes_take longer less)

/-- The object of a column is known, or the walk to it makes it so. -/
theorem fixes_parent (steady : Steady declared scope) (plain : path.Plain) (long : 2 ≤ path.length)
    (arrives : scope.walk true path = some (reached, after)) :
    2 ≤ reached.length ∧ after.aliases.Fixes reached.parent := by
  obtain ⟨_, _, longer, within⟩ := walk_arrives steady.sound plain arrives
  have later := steady.walk plain arrives
  refine ⟨by omega, ?_⟩
  rw [Path.parent, List.dropLast_eq_take]
  rcases within (reached.length - 1) (by omega) (by omega) with impossible | ⟨object, member, same⟩
  · exact impossible.elim
  · exact same ▸ later.fixes_object member

/-- A path whose object is known is looked for along itself. -/
theorem route_of_found (steady : Steady declared scope) {object : Path} {segment : String}
    (started : scope.started path = object ++ [segment]) (plain : object.Plain)
    (known : scope.aliases.Knows object.key) : scope.route path = object ++ [segment] := by
  have positive := List.length_pos_iff.2 plain.1
  have first : scope.aliases.Knows (Path.key (object.take 1)) := by
    rcases Nat.eq_or_lt_of_le (Nat.succ_le_of_lt positive) with single | further
    · rwa [List.take_of_length_le (Nat.le_of_eq single.symm)]
    · exact (steady.fixes plain known (Path.passes_take Nat.one_pos further)).knows
  have contains : scope.aliases.contains (Path.leadingKey (object ++ [segment]) 1) = true := by
    rw [Path.leadingKey, List.take_append_of_le_length positive]
    exact Option.isSome_iff_exists.2 first
  rw [route, started, if_pos contains]

/-- A column is looked for by the name of its object, and then along its route. -/
theorem meets_qualify {property : Path → Scope Q → Prop} {allowed : SemanticError → Prop}
    (meets : Step.Meets (match scope.aliases.find? (Path.key (scope.started path).parent) with
      | some object => pure (object ++ (scope.started path).getLast?.toList)
      | none =>
          match scope.walk true (scope.route path) with
          | none => throw (SemanticError.unregisteredObject path.render scope.primary.render)
          | some (reached, scope) => do
              set scope
              let object := (scope.aliases.find? (Path.key reached.parent)).getD reached.parent
              return object ++ reached.getLast?.toList) scope property allowed) :
    Step.Meets (qualify true path) scope property allowed :=
  meets

/-- A column is found where a walk along its route arrives. -/
theorem qualify_meets (steady : Steady declared scope) (plain : path.Plain) :
    Step.Meets (qualify true path) scope (fun qualified after =>
      ∃ reached, scope.walk true (scope.route path) = some (reached, after) ∧
        qualified.same reached = true) fun _ => False := by
  obtain ⟨reached, after, arrives⟩ := exists_walk_eq scope (scope.route path)
  obtain ⟨routePlain, long⟩ := steady.route_plain plain
  have started : (scope.started path).Plain ∧ 2 ≤ (scope.started path).length :=
    started_plain steady.sound steady.nonempty plain
  refine meets_qualify ?_
  split
  · rename_i object found
    have last : (scope.started path).parent ++ [(scope.started path).getLast started.1.1] =
        scope.started path := List.dropLast_append_getLast started.1.1
    have parentPlain : (scope.started path).parent.Plain := by
      rw [Path.parent, List.dropLast_eq_take,
        show (scope.started path).length - 1 = (scope.started path).length - 2 + 1 by omega]
      exact started.1.take _
    have along := steady.route_of_found last.symm parentPlain ⟨object, found⟩
    rw [along] at arrives
    obtain ⟨reaches, rfl⟩ := steady.walk_found parentPlain found arrives
    refine .pure ⟨reached, along ▸ arrives, ?_⟩
    rw [List.getLast?_eq_some_getLast started.1.1]
    exact Path.same_symm reaches
  · rw [arrives]
    refine .set_bind (.pure ⟨reached, rfl, ?_⟩)
    obtain ⟨longer, fixes⟩ := steady.fixes_parent routePlain long arrives
    have nonempty : reached ≠ [] := List.length_pos_iff.1 (by omega)
    have parts : reached.parent ++ [reached.getLast nonempty] = reached :=
      List.dropLast_append_getLast nonempty
    have same := Path.same_append fixes.meaning_same (Path.same_refl [reached.getLast nonempty])
    rw [parts] at same
    rwa [List.getLast?_eq_some_getLast nonempty]

/-- What is registered for one column does not change where another is found. -/
theorem reached_same (steady : Steady declared scope) (plain : path.Plain) (otherPlain : other.Plain)
    (arrives : scope.walk true (scope.route path) = some (reached, after))
    {alone later : Path} (first : scope.walk true (scope.route other) = some (alone, also))
    (second : after.walk true (after.route other) = some (later, alsoAfter)) :
    alone.same later = true := by
  have routePlain := (steady.route_plain plain).1
  have otherRoute := (steady.route_plain otherPlain).1
  have values := (steady.walk routePlain arrives).values
  rw [steady.route_eq plain arrives otherPlain] at second
  obtain ⟨_, walks⟩ := exists_walkWithin first
  obtain ⟨_, walksToo⟩ := exists_walkWithin second
  exact walkWithin_same steady.values values ((grows_walk arrives).agrees values) otherRoute
    otherRoute (Path.same_refl _) walks walksToo

end Steady

/-- Two paths gained one after the other are gained in both orders. -/
theorem Gains.exchange {middle otherMiddle : Scope Q} {first second firstLater secondLater : Path}
    (gains : Gains scope first middle) (gainsMore : Gains middle secondLater after)
    (others : Gains scope second otherMiddle) (othersMore : Gains otherMiddle firstLater also)
    (firstSame : first.same firstLater = true) (secondSame : second.same secondLater = true) :
    (∀ name, (∃ object ∈ after.objects, object.key = name) ↔
      ∃ object ∈ also.objects, object.key = name) ∧
        ∀ name, after.aliases.Knows name ↔ also.aliases.Knows name := by
  have sameFirst := Path.passesKey_iff_of_same firstSame
  have sameSecond := Path.passesKey_iff_of_same secondSame
  constructor
  · intro name
    rw [gainsMore.lists, gains.lists, gains.knows, othersMore.lists, others.lists, others.knows,
      ← sameFirst, ← sameSecond]
    by_cases known : first.PassesKey name <;> by_cases knownToo : second.PassesKey name <;>
      simp [known, knownToo]
  · intro name
    rw [gainsMore.knows, gains.knows, othersMore.knows, others.knows, ← sameFirst, ← sameSecond]
    tauto

end Scope

namespace Field

open Scope (Steady)

variable {Q : Type} {scope after : Scope Q} {declared : List (SourceObject Q)}

/-- The field as a column under the path. -/
def columnAt (field : Field Q) (path : Path) : Field Q :=
  { field with kind := .column path, key := path.key }

theorem resolveColumn_filter (steady : Steady declared scope) {use : FieldUse}
    (filters : use.place = .filter) (field : Field Q) {path : Path} (plain : path.Plain) :
    Step.Meets (field.resolveColumn use path) scope (fun resolved after =>
      ∃ qualified reached, resolved = field.columnAt qualified ∧
        scope.walk true (scope.route path) = some (reached, after) ∧
          Path.same qualified reached = true) fun _ => False := by
  have registers : use.registers = true := by rw [FieldUse.registers, filters]; rfl
  refine .ite (fun empty => absurd (List.isEmpty_iff.1 empty) plain.1) fun _ => ?_
  rw [registers]
  refine (steady.qualify_meets plain).bind ?_
  rintro qualified after ⟨reached, arrives, same⟩
  refine .get_bind ?_
  dsimp only
  rw [if_neg (by rw [filters]; decide), if_neg (by simp [FieldUse.isGrouped, filters])]
  exact .pure ⟨qualified, reached, rfl, arrives, same⟩

/-- A column in a filter is found where a walk along its route arrives. -/
theorem exists_resolve_filter (steady : Steady declared scope) {use : FieldUse}
    (filters : use.place = .filter) {field : Field Q} {path : Path} (kind : field.kind = .column path)
    (plain : path.Plain) :
    ∃ qualified reached after, field.resolve use scope = .ok (field.columnAt qualified) after ∧
      scope.walk true (scope.route path) = some (reached, after) ∧
        Path.same qualified reached = true := by
  obtain ⟨own, aliasName, notSelected, aggregated, key, columnId, columnIndex⟩ := field
  cases kind
  have meets := resolveColumn_filter steady filters
    (⟨.column path, aliasName, notSelected, aggregated, key, columnId, columnIndex⟩ : Field Q) plain
  unfold Field.resolve resolveKind
  unfold Step.Meets at meets
  split at meets
  · rename_i run
    obtain ⟨qualified, reached, rfl, arrives, same⟩ := meets
    exact ⟨qualified, reached, _, run, arrives, same⟩
  · exact meets.elim

end Field

namespace Scope

variable {Q : Type} {start scope after : Scope Q} {declared : List (SourceObject Q)}

theorem lasting_knowsOwn :
    Lasting fun scope : Scope Q => scope.KnowsOwn ∧ scope.Standing declared where
  qualify := qualify_yields fun _ path unknown held =>
    ⟨held.1.register unknown, held.2.register path⟩
  mention _ _ _ held := ⟨held.1, held.2.spelled, held.2.listed, held.2.registered⟩

/-- The scope after further fields were resolved, the names in which hold no dots. -/
inductive Follows (start : Scope Q) : Scope Q → Prop
  | start : Follows start start
  | mention {before : Scope Q} (follows : Follows start before) (isAggregation : Bool)
      (mentions : Mentions) : Follows start { before with isAggregation, mentions }
  | resolve {before after : Scope Q} {use : FieldUse} {field resolved : Field Q}
      (follows : Follows start before) (names : field.Names Path.Plain)
      (resolves : field.resolve use before = .ok resolved after) : Follows start after

theorem Steady.follows (steady : Steady declared start) (follows : start.Follows scope) :
    Steady declared scope := by
  induction follows with
  | start => exact steady
  | mention _ isAggregation mentions held =>
      have kept := lasting_knowsOwn.mention _ isAggregation mentions ⟨held.own, held.standing⟩
      exact ⟨(leads_mention held.sound isAggregation mentions).sound, held.nonempty, kept.1, kept.2,
        held.undotted⟩
  | @resolve before after use field resolved _ names resolves held =>
      have found := Field.resolve_meets use field held.sound held.nonempty names.1 (.inr names.2)
      have leads := (found.of_ok resolves).1
      obtain ⟨_, own, standing⟩ :=
        lasting_knowsOwn.resolving.resolve use field trivial ⟨held.own, held.standing⟩ resolves
      exact ⟨leads.sound, leads.objects_ne_nil held.nonempty, own, standing, held.undotted⟩

/-- Where nothing is known before, objects that stand for themselves make the scope steady. -/
theorem steady_of_resolveObjects {place : QueryPlace} {primary : Path} (primaryPlain : primary.Plain)
    (unnamed : start.aliases = .empty) (nonempty : start.objects ≠ [])
    (written : ∀ object ∈ start.objects, Statement.Declared object)
    (plain : ∀ object ∈ start.objects, object.path.Plain)
    (sources : resolveObjects place primary start = .ok () scope) (own : scope.KnowsOwn) :
    Steady scope.objects scope where
  sound := by
    have inherits : Inherits (fun _ => False) start.aliases := unnamed ▸ inherits_empty _
    exact (resolveObjects_sound place primaryPlain written plain inherits).of_ok sources
  nonempty := (resolveObjects_meets place primary nonempty).of_ok sources
  own := own
  standing := (resolveObjects_standing place primary unnamed).of_ok sources
  undotted := by
    let undotted (object : SourceObject Q) : Prop :=
      ∀ segment, object.aliasName = some segment → Undotted segment
    have settling : SourceObject.Settling undotted undotted :=
      ⟨fun _ _ own => own, fun _ _ own => own, fun _ _ none => by cases none⟩
    exact (Statement.resolveObjects_forall settling place primary
      fun object member => (written object member).2).of_ok sources

end Scope

namespace Field

open Scope (Follows)

variable {Q : Type} {start before : Scope Q}

theorem resolveAll_follows (use : FieldUse) {fields : List (Field Q)}
    (names : ∀ field ∈ fields, field.Names Path.Plain) (follows : start.Follows before) :
    Step.Meets (resolveAll use fields) before fun _ after => start.Follows after := by
  induction fields generalizing before with
  | nil => exact .pure follows
  | cons field rest induction =>
      obtain ⟨first, later⟩ := List.forall_mem_cons.1 names
      unfold resolveAll
      refine Step.Meets.itself.bind fun _ middle resolves => ?_
      exact (induction later (follows.resolve first resolves)).bind fun _ _ follows => .pure follows

theorem resolveUnlessNested_follows (use : FieldUse) {field : Field Q}
    (names : field.Names Path.Plain) :
    Step.Yields start.Follows (resolveUnlessNested use field) fun _ => True :=
  .ite (fun _ => .pure trivial) fun _ _ _ _ follows run => ⟨trivial, follows.resolve names run⟩

/-- The scope that conditions are resolved in, after the clauses before them. -/
theorem follows_clauses {grouping selecting : Scope Q} {use selectUse filterUse : FieldUse}
    {groupBy keys fields : List (Field Q)} {conditions resolved : List (Condition (Field Q))}
    {selected : List (Field Q) × SelectAliases Q} {isAggregation : Bool}
    (groupNames : ∀ field ∈ groupBy, field.Names Path.Plain)
    (names : ∀ field ∈ fields, field.Names Path.Plain)
    (filterNames : ∀ field ∈ conditions.filterMap Condition.operand?, field.Names Path.Plain)
    (groups : resolveAll use groupBy start = .ok keys grouping)
    (selects : resolveSelected selectUse .empty fields { grouping with isAggregation } =
      .ok selected selecting)
    (filters : resolveConditions filterUse conditions selecting = .ok resolved before) :
    start.Follows before := by
  have grouped := (resolveAll_follows use groupNames .start).of_ok groups
  have counted := grouped.mention isAggregation grouping.mentions
  obtain ⟨_, followed⟩ := resolveSelected_forall₂
    (fun field member => resolveUnlessNested_follows _ (names field member)) .empty counted selects
  obtain ⟨_, arrived⟩ := resolveConditions_forall₂
    (fun field member => resolveUnlessNested_follows _ (filterNames field member)) followed filters
  exact arrived

/--
Where a query knows no names from around it, names hold no dots, and the key of
each object stands for the path of the object, two columns of the filter are
found in both orders. They get the same paths, letter case aside, and in the end
the same objects are listed and the same names known. The fields of earlier
clauses may have been resolved before.
-/
theorem resolve_commutes {place : QueryPlace} {primary : Path} {start sourced before : Scope Q}
    (primaryPlain : primary.Plain) (unnamed : start.aliases = .empty) (nonempty : start.objects ≠ [])
    (written : ∀ object ∈ start.objects, Statement.Declared object)
    (plain : ∀ object ∈ start.objects, object.path.Plain)
    (sources : Scope.resolveObjects place primary start = .ok () sourced) (own : sourced.KnowsOwn)
    (follows : sourced.Follows before) {use otherUse : FieldUse} (filters : use.place = .filter)
    (otherFilters : otherUse.place = .filter) {field other : Field Q} {path otherPath : Path}
    (kind : field.kind = .column path) (otherKind : other.kind = .column otherPath)
    (undotted : path.Plain) (otherUndotted : otherPath.Plain) :
    ∃ (found otherLater otherFound later : Path) (middle after otherMiddle also : Scope Q),
      field.resolve use before = .ok (field.columnAt found) middle ∧
        other.resolve otherUse middle = .ok (other.columnAt otherLater) after ∧
      other.resolve otherUse before = .ok (other.columnAt otherFound) otherMiddle ∧
        field.resolve use otherMiddle = .ok (field.columnAt later) also ∧
      found.same later = true ∧ otherFound.same otherLater = true ∧
      (∀ key, (∃ object ∈ after.objects, object.key = key) ↔
        ∃ object ∈ also.objects, object.key = key) ∧
      ∀ name, after.aliases.Knows name ↔ also.aliases.Knows name := by
  have steady := (Scope.steady_of_resolveObjects primaryPlain unnamed nonempty written plain sources
    own).follows follows
  obtain ⟨found, reached, middle, resolves, arrives, same⟩ :=
    exists_resolve_filter steady filters kind undotted
  obtain ⟨otherFound, otherReached, otherMiddle, otherResolves, otherArrives, otherSame⟩ :=
    exists_resolve_filter steady otherFilters otherKind otherUndotted
  have routePlain := (steady.route_plain undotted).1
  have otherRoute := (steady.route_plain otherUndotted).1
  have middleSteady := steady.walk routePlain arrives
  have otherSteady := steady.walk otherRoute otherArrives
  obtain ⟨otherLater, otherEnd, after, otherResolvesLater, otherWalks, otherSameLater⟩ :=
    exists_resolve_filter middleSteady otherFilters otherKind otherUndotted
  obtain ⟨later, ended, also, resolvesLater, walks, sameLater⟩ :=
    exists_resolve_filter otherSteady filters kind undotted
  have reaches := steady.reached_same otherUndotted undotted otherArrives arrives walks
  have otherReaches := steady.reached_same undotted otherUndotted arrives otherArrives otherWalks
  obtain ⟨objects, names⟩ := (steady.gains routePlain arrives).exchange
    (middleSteady.gains (middleSteady.route_plain otherUndotted).1 otherWalks)
    (steady.gains otherRoute otherArrives)
    (otherSteady.gains (otherSteady.route_plain undotted).1 walks) reaches otherReaches
  refine ⟨found, otherLater, otherFound, later, middle, after, otherMiddle, also, resolves,
    otherResolvesLater, otherResolves, resolvesLater, ?_, ?_, objects, names⟩
  · exact Path.same_trans same (Path.same_trans reaches (Path.same_symm sameLater))
  · exact Path.same_trans otherSame (Path.same_trans otherReaches (Path.same_symm otherSameLater))

/-- Contacts under an alias, with their accounts under another. -/
def aliasedAccounts : Scope Query :=
  ⟨[{ path := ["Contact"], aliasName := some "con" },
    { path := ["con", "Account"], aliasName := some "acc" }], .empty, false, {}⟩

/-- The region of the owner of the account, as it may be selected. -/
def ownerRegion : Field Query :=
  ofKind (.column ["acc", "Owner", "Region", "Name"])

/-- Whether objects stand for themselves once resolved, and the owner's region is found then. -/
def selectsRegion (start : Scope Query) : Bool :=
  match Scope.resolveObjects .primary ["Contact"] start with
  | .error _ _ => false
  | .ok _ sourced =>
      let own := sourced.objects.all fun object =>
        (sourced.aliases.find? object.key).any (·.same object.path)
      match resolveSelected { place := .select, groupKeys := .empty } .empty [ownerRegion] sourced with
      | .error _ _ => false
      | .ok _ _ => own

theorem exists_of_selectsRegion (start : Scope Query) (run : selectsRegion start = true) :
    ∃ sourced selected before, Scope.resolveObjects .primary ["Contact"] start = .ok () sourced ∧
      sourced.KnowsOwn ∧
      resolveSelected { place := .select, groupKeys := .empty } .empty [ownerRegion] sourced =
        .ok selected before := by
  unfold selectsRegion at run
  split at run
  · cases run
  · rename_i sourced sources
    split at run
    · cases run
    · rename_i selected before selects
      refine ⟨sourced, selected, before, sources, fun object member => ?_, selects⟩
      exact (Option.any_eq_true _ _).1 (List.all_eq_true.1 run object member)

theorem resolve_commutes_aliasedAccounts :
    ∃ sourced before, Scope.resolveObjects .primary ["Contact"] aliasedAccounts = .ok () sourced ∧
      sourced.KnowsOwn ∧ sourced.Follows before ∧
      ∃ (found otherLater otherFound later : Path) (middle after otherMiddle also : Scope Query),
        let use : FieldUse := { place := .filter, groupKeys := .empty }
        let field : Field Query := ofKind (.column ["Account", "owner", "Id"])
        let other : Field Query := ofKind (.column ["con", "Account", "Owner", "Manager", "Id"])
        field.resolve use before = .ok (field.columnAt found) middle ∧
          other.resolve use middle = .ok (other.columnAt otherLater) after ∧
        other.resolve use before = .ok (other.columnAt otherFound) otherMiddle ∧
          field.resolve use otherMiddle = .ok (field.columnAt later) also ∧
        found.same later = true ∧ otherFound.same otherLater = true ∧
        (∀ key, (∃ object ∈ after.objects, object.key = key) ↔
          ∃ object ∈ also.objects, object.key = key) ∧
        ∀ name, after.aliases.Knows name ↔ also.aliases.Knows name := by
  obtain ⟨sourced, selected, before, sources, own, selects⟩ :=
    exists_of_selectsRegion aliasedAccounts (by decide +kernel)
  have written : ∀ object ∈ aliasedAccounts.objects, Statement.Declared object := by
    simp [aliasedAccounts, Statement.Declared, Undotted]
  have plain : ∀ object ∈ aliasedAccounts.objects, object.path.Plain := by
    simp [aliasedAccounts, Path.Plain, Undotted]
  have names : ∀ field ∈ [ownerRegion], field.Names Path.Plain := by
    refine List.forall_mem_singleton.2 (names_column ?_ rfl)
    simp [Path.Plain, Undotted]
  have ungrouped : resolveAll { place := .groupBy, groupKeys := .empty } [] sourced =
      .ok [] sourced := rfl
  have unfiltered : resolveConditions { place := .filter, groupKeys := .empty } [] before =
      .ok [] before := rfl
  have follows : sourced.Follows before :=
    follows_clauses (by simp) names (by simp) ungrouped selects unfiltered
  exact ⟨sourced, before, sources, own, follows,
    resolve_commutes (by simp [Path.Plain, Undotted]) rfl (by simp [aliasedAccounts]) written plain
      sources own follows rfl rfl rfl rfl (by simp [Path.Plain, Undotted])
      (by simp [Path.Plain, Undotted])⟩

end Field

end ObjectQuery
