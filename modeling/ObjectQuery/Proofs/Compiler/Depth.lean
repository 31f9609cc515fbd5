import ObjectQuery.Proofs.Compiler.Column
import ObjectQuery.Proofs.Compiler.View

namespace ObjectQuery

/-! The objects of compiled queries that stand alone, or in a condition. -/

namespace Statement

variable {statement : Statement Query}

/-- The objects begin with one under a single name, and the shorter paths come first. -/
theorem SelfContained.exists_primary (contained : statement.SelfContained) :
    ∃ primary rest, statement.objects = primary :: rest ∧ primary.path.length = 1 ∧
      (rest.Pairwise fun left right => left.path.length ≤ right.path.length) ∧
      ∀ object ∈ statement.objects, primary.path <+: object.path := by
  obtain ⟨start, single, ⟨others, paths, ordered⟩, begins⟩ := contained.arranged
  obtain ⟨primary, rest, objects, rfl, rfl⟩ := List.map_eq_cons_iff.1 paths
  rw [List.pairwise_map] at ordered
  refine ⟨primary, rest, objects, single, ordered, fun object member => ?_⟩
  exact begins object.path (List.mem_map_of_mem member)

/-- The path of an object goes through objects of the statement only. -/
theorem SelfContained.exists_beginning (contained : statement.SelfContained)
    {object : SourceObject Query} (member : object ∈ statement.objects) {length : Nat}
    (positive : 0 < length) :
    ∃ other ∈ statement.objects, other.path = object.path.take length :=
  ((contained.objects object member).1.beginnings length positive).resolve_left fun never => never

end Statement

namespace CompilerOptions

variable {options : CompilerOptions} {source : String} {date : Instant} {elapsedTime : Nat}
  {query : Query}

theorem contained_of_compile
    (undotted : ∀ parsed, options.parse source = .ok parsed →
      ∀ path ∈ parsed.paths, ∀ segment ∈ path, Undotted segment)
    (compiled : options.compile source date elapsedTime = .ok query) {head : Query}
    (stands : query.Heads head) : head.body.SelfContained := by
  rcases stands with rfl | ⟨outer, reaches, member⟩
  · obtain ⟨body, metadata, _, places, rfl⟩ := exists_places undotted compiled
    obtain ⟨arranged, objects, named⟩ := places.contained (by decide)
    exact ⟨arranged, objects, named⟩
  · have placed := (placed_of_compile undotted compiled).1
    exact (Query.throughout_iff.1 placed outer reaches).contained head member

/--
Where no name holds a dot, the objects of a query that stands alone or in a
condition begin with the primary object, which has a single name and leads to
all others, the nearer ones first. A path of an object passes through objects of
the query only. Columns and field sets belong to these objects, and as the
objects do, they have the keys of their paths.
-/
theorem objects_of_compile
    (undotted : ∀ parsed, options.parse source = .ok parsed →
      ∀ path ∈ parsed.paths, ∀ segment ∈ path, Undotted segment)
    (compiled : options.compile source date elapsedTime = .ok query) :
    ∀ head, query.Heads head →
      (∃ primary rest, head.body.objects = primary :: rest ∧ primary.path.length = 1 ∧
        (rest.Pairwise fun left right => left.path.length ≤ right.path.length) ∧
        ∀ object ∈ head.body.objects, primary.path <+: object.path) ∧
      (∀ object ∈ head.body.objects, object.key = object.path.key ∧
        ∀ length, 0 < length →
          ∃ other ∈ head.body.objects, other.path = object.path.take length) ∧
      ∀ field ∈ head.body.named, ∀ path, field.kind.path? = some path →
        field.key = path.key ∧
          ∃ object ∈ head.body.objects, object.path.same path.parent = true := by
  intro head stands
  have contained := contained_of_compile undotted compiled stands
  refine ⟨contained.exists_primary, fun object member => ⟨(contained.objects object member).2,
    fun length positive => contained.exists_beginning member positive⟩, ?_⟩
  intro field member path kind
  obtain ⟨keyed, belongs⟩ := contained.named field member path kind
  exact ⟨keyed.key, belongs⟩

/-- Accounts that are not declared, but found on the way to their names. -/
def accountName : String :=
  "SELECT c.Account.Name, FIELDS(c.all) FROM Contact c " ++
    "WHERE Account.Id IN (SELECT Place.Owner FROM Visit)"

def accountNamePaths : List Path :=
  [["Contact"], ["Contact", "Account"]]

theorem undotted_accountName :
    ∀ parsed, parse {} accountName = .ok parsed →
      ∀ path ∈ parsed.paths, ∀ segment ∈ path, Undotted segment :=
  undotted_of_parse (by decide +kernel)

theorem compile_accountName :
    ∃ query, compile {} accountName = .ok query ∧
      query.body.objects.map (·.path) = accountNamePaths := by
  have run : compilesTo {} accountName (fun query =>
      query.body.objects.map (·.path) == accountNamePaths) = true := by
    decide +kernel
  obtain ⟨query, compiled, paths⟩ := exists_of_compilesTo run
  exact ⟨query, compiled, eq_of_beq paths⟩

theorem objects_of_accountName :
    ∃ query, compile {} accountName = .ok query ∧
      query.body.objects.map (·.path) = accountNamePaths ∧
      ∃ primary rest, query.body.objects = primary :: rest ∧ primary.path.length = 1 ∧
        (rest.Pairwise fun left right => left.path.length ≤ right.path.length) ∧
        ∀ object ∈ query.body.objects, primary.path <+: object.path := by
  obtain ⟨query, compiled, paths⟩ := compile_accountName
  obtain ⟨primary, _⟩ :=
    objects_of_compile undotted_accountName compiled query (.inl rfl)
  exact ⟨query, compiled, paths, primary⟩

end CompilerOptions

/-!
The depths of objects in a compiled query. Where no name holds a dot, objects
with the same key lie at the same depth, so the node of a number never changes
its depth, and the greatest depth recorded is that of a node to the end.
-/

theorem SourceObject.ReturnsOwn.dots_key {object : SourceObject Query} (own : object.ReturnsOwn) :
    Path.dots object.key + 1 = object.path.length := by
  rw [own.key, own.plain.dots_key]
  have nonempty := List.length_pos_iff.2 own.plain.1
  omega

namespace Query

/-- The places and numbers of a query, and the depths its chart has where it had them before. -/
structure Depths (site : Site) (before after : Session) (result : Statement Query)
    (around : Option (Statement Query)) : Prop where
  places : site.Sound → Places site result around
  charted : before.chart.Sound → before.chart.Grows after.chart ∧ Charted after.chart ⟨result⟩
  exact : site.Sound → before.chart.Sound → before.chart.Exact → after.chart.Exact

def depths : Outcome := fun site _ before result around after =>
  Depths site before after result around

theorem Lists.exact {depth done : Nat} {aliases : AliasMap} {own statement : Statement Query}
    {start state : Session} (inherits : Scope.Inherits (fun _ => True) aliases)
    (supplied : own.Supplied) (sound : start.chart.Sound) (earlier : start.chart.Exact)
    (lists : Lists depths depth aliases own start done statement state) :
    state.chart.Exact := by
  induction lists with
  | start => exact earlier
  | skip lists plain induction => exact induction
  | nested lists found grows compiled induction =>
      have keeps := ((lists.mono Depths.places).placed inherits supplied).1
      have growing := ((lists.mono Depths.charted).charted sound).1
      exact compiled.exact (Site.sound_list inherits (keeps.supplied supplied)) growing.sound
        induction

theorem Operands.exact {depth : Nat} {around : Statement Query}
    {conditions results : List (Condition (Field Query))} {before after : Session}
    (operands : Operands depths depth around conditions before results after)
    (sound : before.chart.Sound) (earlier : before.chart.Exact) : after.chart.Exact := by
  induction operands with
  | nil => exact earlier
  | plain plain later induction => exact induction sound earlier
  | nested kind compiled later induction =>
      have alone : QueryPlace.conditional ≠ .select := by decide
      exact induction (compiled.charted sound).1.sound
        (compiled.exact (Site.sound_alone alone) sound earlier)

theorem exact_of_compiled {site : Site} {statement result : Statement Query}
    {before after : Session} {around : Option (Statement Query)}
    (given : statement.Parsed ∧ statement.Undotted)
    (compiled : Compiled depths site statement before result around after) (standing : site.Sound)
    (sound : before.chart.Sound) (earlier : before.chart.Exact) : after.chart.Exact := by
  obtain ⟨read, undotted⟩ := given
  cases compiled with
  | @intro own selected _ _ filter having planned listing starting filtering ending after compiled
      lists begins filtered grouped ends ran =>
      have supplied := compiled.supplied read undotted standing
      have inherits := (compiled.located read undotted standing).1
      have records := (Statement.compileOwn_attaches before |>.of_ok ran).recordsAll
      subst begins
      have growing := growing_of_steps sound ran (lists.mono Depths.charted)
        (filtered.mono Depths.charted) (grouped.mono Depths.charted)
      have listingExact := lists.exact inherits supplied growing.recorded.sound
        (records.exact sound earlier fun object member => (supplied.objects object member).dots_key)
      have listingSound := growing.listed.sound
      have endingExact := grouped.exact growing.filtered.sound
        (filtered.exact (listingSound.apart selected.primaryLength) (listingExact.apart _))
      rw [chart_of_ends ends]
      exact endingExact.rejoin listingExact listingSound growing.between

theorem depths_of_compiled {site : Site} {statement result : Statement Query}
    {before after : Session} {around : Option (Statement Query)}
    (given : statement.Parsed ∧ statement.Undotted)
    (compiled : Compiled depths site statement before result around after) :
    depths site statement before result around after where
  places := places_of_compiled given (compiled.mono Depths.places)
  charted := charts_of_compiled (compiled.mono Depths.charted)
  exact := exact_of_compiled given compiled

/-- Each query that stands alone or in a condition has its numbers for keys. -/
theorem Charted.exists_lists {chart : Chart} {result : Statement Query}
    (charted : Charted chart ⟨result⟩) (sound : chart.Sound) {metadata : Option Metadata}
    {head : Query} (stands : Heads ⟨{ result with metadata }⟩ head) :
    ∃ ledger : Ledger, ledger.Sound ∧
      ∀ inner, head.Spans inner → ledger.Lists inner.body.objects := by
  have charted : Charted chart ⟨{ result with metadata }⟩ := charted.withMetadata
  rcases stands with rfl | ⟨outer, reaches, member⟩
  · exact ⟨_, sound.views, charted.spans⟩
  · exact throughout_iff.1 charted.viewed.apart outer reaches head member

end Query

namespace Session

/-- Nothing is numbered where a compilation begins. -/
theorem sound_chart (limit : Option Nat) : ({ limit } : Session).chart.Sound where
  views := Ledger.sound_empty (Nat.le_refl 1)
  nodes id := by
    constructor
    · rintro ⟨node, impossible⟩
      cases impossible
    · rintro ⟨positive, below⟩
      exact absurd below (Nat.not_lt.2 positive)
  within _ _ impossible := by cases impossible

theorem exact_chart (limit : Option Nat) : ({ limit } : Session).chart.Exact where
  depths _ _ _ impossible := by cases impossible
  attained := .inl rfl

end Session

namespace CompilerOptions

variable {options : CompilerOptions} {source : String} {date : Instant} {elapsedTime : Nat}
  {query : Query}

theorem exists_charted
    (compiled : options.compile source date elapsedTime = .ok query) :
    ∃ chart body metadata, query = ⟨{ body with metadata := some metadata }⟩ ∧
      chart.Sound ∧ Query.Charted chart ⟨body⟩ ∧ metadata.nextViewId = chart.views.next ∧
      metadata.viewGraph = chart.graph ∧ metadata.maxViewDepth = chart.deepest := by
  obtain ⟨parsed, around, after, body, _, charts, rfl⟩ := outcome_of_compile (fun _ own => own)
    (fun _ => Query.charts_of_compiled) (fun _ => parsed_of_parse) compiled
  obtain ⟨grows, charted⟩ := charts (Session.sound_chart _)
  exact ⟨after.chart, body, _, rfl, grows.sound, charted, rfl, rfl, rfl⟩

/-- The greatest depth recorded is that of a node. -/
theorem exists_deepest
    (undotted : ∀ parsed, options.parse source = .ok parsed →
      ∀ path ∈ parsed.paths, ∀ segment ∈ path, Undotted segment)
    (compiled : options.compile source date elapsedTime = .ok query) {metadata : Metadata}
    (present : query.body.metadata = some metadata) :
    ∃ id node, metadata.viewGraph.find? id = some node ∧ node.depth = metadata.maxViewDepth := by
  obtain ⟨primary, rest, objects, _⟩ :=
    (contained_of_compile undotted compiled (.inl rfl)).exists_primary
  obtain ⟨parsed, around, after, body, _, depths, rfl⟩ := outcome_of_compile
    (fun _ given => given.1) Query.depths_of_compiled
    (fun parsed parses => (parsed_of_parse parses).undotted (undotted parsed parses)) compiled
  cases present
  obtain ⟨grows, charted⟩ := depths.charted (Session.sound_chart _)
  have deepest := (depths.exact (Site.sound_alone (by decide)) (Session.sound_chart _)
    (Session.exact_chart _)).attained
  rcases deepest with none | attained
  · -- The primary object has a node, which lies no deeper than nothing.
    have lists := charted.spans ⟨body⟩ (.self _)
    obtain ⟨id, _, found⟩ := lists primary (objects ▸ List.mem_cons_self)
    obtain ⟨node, recorded⟩ := (grows.sound.nodes id).2 (grows.sound.views.given _ _ found)
    have within := grows.sound.within id node recorded
    have least : after.chart.deepest ≤ node.depth := none ▸ Nat.zero_le _
    exact ⟨id, node, recorded, Nat.le_antisymm within least⟩
  · exact attained

/--
The objects in a compiled query have numbers below the next one, and the graph of
objects has a node for each of these. Within a query that stands alone or in a
condition and the lists of related rows in it, objects have the same number if
they have the same key. No node lies deeper than the greatest depth recorded,
and where no name holds a dot, this is the depth of a node.
-/
theorem viewId_of_compile
    (compiled : options.compile source date elapsedTime = .ok query) :
    ∃ metadata, query.body.metadata = some metadata ∧
      (∀ inner, query.Reaches inner → ∀ object ∈ inner.body.objects,
        ∃ id, object.viewId = some id ∧ 1 ≤ id ∧ id < metadata.nextViewId) ∧
      (∀ id, (∃ node, metadata.viewGraph.find? id = some node) ↔
        1 ≤ id ∧ id < metadata.nextViewId) ∧
      (∀ head, query.Heads head → ∀ left right, head.Spans left → head.Spans right →
        ∀ object ∈ left.body.objects, ∀ other ∈ right.body.objects,
          (object.viewId = other.viewId ↔ object.key = other.key)) ∧
      (∀ id node, metadata.viewGraph.find? id = some node →
        node.depth ≤ metadata.maxViewDepth) ∧
      ((∀ parsed, options.parse source = .ok parsed →
          ∀ path ∈ parsed.paths, ∀ segment ∈ path, Undotted segment) →
        ∃ id node, metadata.viewGraph.find? id = some node ∧
          node.depth = metadata.maxViewDepth) := by
  obtain ⟨chart, body, metadata, same, sound, charted, next, graph, depth⟩ :=
    exists_charted compiled
  have present : query.body.metadata = some metadata := by rw [same]
  refine ⟨metadata, present, ?_, ?_, ?_, ?_, fun undotted =>
    exists_deepest undotted compiled present⟩
  · have below : Query.Throughout (Statement.ViewsBelow metadata.nextViewId)
        ⟨{ body with metadata := some metadata }⟩ := by
      rw [next]
      exact charted.viewed.below.withMetadata fun own => own
    exact same ▸ Query.throughout_iff.1 below
  · rw [graph, next]
    exact sound.nodes
  · subst same
    intro head stands left right leftSpans rightSpans object member other memberToo
    obtain ⟨ledger, known, lists⟩ := charted.exists_lists sound stands
    exact known.viewId_eq_iff (lists left leftSpans) (lists right rightSpans) member memberToo
  · rw [graph, depth]
    exact sound.within

/-- Tasks that the query declares are those it lists, and the visits in the condition are apart. -/
def declaredTasks : String :=
  "SELECT Id, (SELECT Id FROM Contact.Tasks) FROM Contact, Contact.Tasks " ++
    "WHERE Id IN (SELECT ContactId FROM Visit, Visit.Place)"

def declaredTasksIds : List (String × Option Nat) :=
  [("contact", some 1), ("contact.tasks", some 2), ("contact.tasks", some 2), ("visit", some 3),
    ("visit.place", some 4)]

theorem undotted_declaredTasks :
    ∀ parsed, parse {} declaredTasks = .ok parsed →
      ∀ path ∈ parsed.paths, ∀ segment ∈ path, Undotted segment :=
  undotted_of_parse (by decide +kernel)

theorem compile_declaredTasks :
    ∃ query, compile {} declaredTasks = .ok query ∧
      (query :: query.body.nested).flatMap (fun inner =>
        inner.body.objects.map fun object => (object.key, object.viewId)) = declaredTasksIds := by
  have run : compilesTo {} declaredTasks (fun query =>
      (query :: query.body.nested).flatMap (fun inner =>
        inner.body.objects.map fun object => (object.key, object.viewId)) ==
          declaredTasksIds) = true := by
    decide +kernel
  obtain ⟨query, compiled, ids⟩ := exists_of_compilesTo run
  exact ⟨query, compiled, eq_of_beq ids⟩

theorem viewId_of_declaredTasks :
    ∃ query metadata, compile {} declaredTasks = .ok query ∧
      query.body.metadata = some metadata ∧
      (query :: query.body.nested).flatMap (fun inner =>
        inner.body.objects.map fun object => (object.key, object.viewId)) = declaredTasksIds ∧
      (∀ id, (∃ node, metadata.viewGraph.find? id = some node) ↔
        1 ≤ id ∧ id < metadata.nextViewId) ∧
      (∀ id node, metadata.viewGraph.find? id = some node →
        node.depth ≤ metadata.maxViewDepth) ∧
      ∃ id node, metadata.viewGraph.find? id = some node ∧
        node.depth = metadata.maxViewDepth := by
  obtain ⟨query, compiled, ids⟩ := compile_declaredTasks
  obtain ⟨metadata, present, _, nodes, _, within, deepest⟩ := viewId_of_compile compiled
  exact ⟨query, metadata, compiled, present, ids, nodes, within, deepest undotted_declaredTasks⟩

/-- A path of two segments that shares its key, and so its number, with one of three. -/
def dottedSegment : String :=
  "SELECT (SELECT Id FROM Contact.a.b), (SELECT Id FROM Contact.\"a.b\") FROM Contact"

/-- A node recorded again, higher up, leaves no node at the greatest depth. -/
theorem shallow_of_dottedSegment :
    ∃ query metadata, compile {} dottedSegment = .ok query ∧
      query.body.metadata = some metadata ∧
      ∀ id node, metadata.viewGraph.find? id = some node →
        node.depth ≠ metadata.maxViewDepth := by
  have run : compilesTo {} dottedSegment (fun query => query.body.metadata.any fun metadata =>
      metadata.viewGraph.entries.all (·.2.depth != metadata.maxViewDepth)) = true := by
    decide +kernel
  obtain ⟨query, compiled, holds⟩ := exists_of_compilesTo run
  obtain ⟨metadata, present, shallow⟩ := (Option.any_eq_true _ _).1 holds
  refine ⟨query, metadata, compiled, present, fun id node recorded => ?_⟩
  simpa using List.all_eq_true.1 shallow _ (SortedMap.mem_entries_of_find? recorded)

end CompilerOptions

end ObjectQuery
