import Mathlib.Algebra.Order.BigOperators.Group.List
import ObjectQuery.Proofs.Compiler.Depth
import ObjectQuery.Proofs.Numbering.Parent

namespace ObjectQuery

/-!
The depths of objects behind conditions. Where no name holds a dot, an object in a
query that stands in a condition lies as deep as its path is long, counted from
the primary object of the query around the last of the conditions on the way.
-/

namespace Chart

variable {Q : Type} {before after chart : Chart} {object : SourceObject Q}
  {objects : List (SourceObject Q)} {offset least lower depth : Nat}

/-- A number from the least on that belongs to no key any more, with its node at the depth. -/
inductive Rests (chart : Chart) (least : Nat) (object : SourceObject Q) (depth : Nat) : Prop
  | intro {id : Nat} {node : ViewNode} (numbered : object.viewId = some id) (above : least ≤ id)
      (below : id < chart.views.next) (free : ∀ key, chart.views.ids.find? key ≠ some id)
      (recorded : chart.graph.find? id = some node) (deep : node.depth = depth)

theorem Rests.mono (rests : before.Rests least object depth) (earlier : lower ≤ least)
    (grows : before.Grows after) : after.Rests lower object depth := by
  cases rests with
  | intro numbered above below free recorded deep =>
      exact .intro numbered (Nat.le_trans earlier above) (Nat.lt_of_lt_of_le below grows.views.next)
        (grows.views.not_given below free) ((grows.others _ below free).trans recorded) deep

/-- An object that was numbered after those from before rests once these are back. -/
theorem Rests.rejoin (rests : after.Rests before.views.next object depth) (sound : before.Sound) :
    (before.rejoin after).Rests before.views.next object depth := by
  cases rests with
  | intro numbered above below free recorded deep =>
      refine .intro numbered above below (fun key found => ?_) recorded deep
      exact Nat.not_lt_of_le above (sound.views.given key _ found).2

/-- An object with the number of its key lies as deep as its path is long. -/
theorem Sound.exists_node (sound : chart.Sound) (exact : chart.Exact)
    (lists : chart.views.Lists objects) (member : object ∈ objects)
    (keyed : Path.dots object.key + 1 = object.path.length) :
    ∃ id node, object.viewId = some id ∧ chart.views.ids.find? object.key = some id ∧
      chart.graph.find? id = some node ∧ node.depth = object.path.length + chart.offset := by
  obtain ⟨id, numbered, found⟩ := lists object member
  obtain ⟨node, recorded⟩ := (sound.nodes id).2 (sound.views.given _ _ found)
  have depth := exact.depths _ id node found recorded
  rw [keyed] at depth
  exact ⟨id, node, numbered, found, recorded, depth⟩

/-- An object that was numbered apart rests once the numbers from before are back. -/
theorem Grows.rests (grows : (before.apart offset).Grows after) (sound : before.Sound)
    (exact : after.Exact) (lists : after.views.Lists objects) (member : object ∈ objects)
    (keyed : Path.dots object.key + 1 = object.path.length) :
    (before.rejoin after).Rests before.views.next object (object.path.length + offset) := by
  obtain ⟨id, node, numbered, found, recorded, deep⟩ :=
    grows.sound.exists_node exact lists member keyed
  have least := (lists.numbers grows.views).least member numbered
  refine .intro numbered least (grows.sound.views.given _ _ found).2 (fun key given => ?_) recorded
    (deep.trans (congrArg (object.path.length + ·) grows.offset))
  exact Nat.not_lt_of_le least (sound.views.given key id given).2

end Chart

namespace Query

variable {query head outer inner : Query} {lengths : List Nat} {before after chart : Chart}
  {least lower : Nat}

/--
The inner query is a list of related rows, or in a condition, at any depth. The
primary objects of the queries around the conditions on the way have paths of the
lengths, the outermost first.
-/
inductive Crosses : Query → List Nat → Query → Prop where
  | spans {query inner : Query} (spans : query.Spans inner) : Crosses query [] inner
  | conditional {query outer head inner : Query} {lengths : List Nat} (spans : query.Spans outer)
      (member : head ∈ outer.body.conditional) (crosses : Crosses head lengths inner) :
      Crosses query (outer.body.primaryLength :: lengths) inner

theorem Crosses.spans_of_nil (crosses : query.Crosses [] inner) : query.Spans inner := by
  cases crosses with
  | spans spans => exact spans

/-- Each query in a query is reached through some conditions. -/
theorem Reaches.exists_crosses (reaches : query.Reaches inner) :
    ∃ lengths, query.Crosses lengths inner := by
  induction reaches with
  | self query => exact ⟨[], .spans (.self query)⟩
  | @nested query next inner member _ induction =>
      obtain ⟨lengths, crosses⟩ := induction
      rcases Statement.mem_nested_iff.1 member with listed | conditional
      · cases crosses with
        | spans spans => exact ⟨[], .spans (.listed listed spans)⟩
        | conditional spans given crosses =>
            exact ⟨_, .conditional (.listed listed spans) given crosses⟩
      · exact ⟨_, .conditional (.self query) conditional crosses⟩

/-- Objects behind conditions rest at depths from the query around the last condition. -/
def Based (query : Query) (chart : Chart) (least : Nat) : Prop :=
  ∀ lengths inner, query.Crosses lengths inner → ∀ length, lengths.getLast? = some length →
    ∀ object ∈ inner.body.objects, chart.Rests least object (object.path.length + length)

theorem Based.mono (based : query.Based before least) (earlier : lower ≤ least)
    (grows : before.Grows after) : query.Based after lower :=
  fun lengths inner crosses length last object member =>
    (based lengths inner crosses length last object member).mono earlier grows

/-- Objects that a query in a condition leads to rest once the numbers from before are back. -/
theorem Based.rests {offset : Nat} (based : head.Based after before.views.next)
    (charted : Charted after head) (exact : after.Exact)
    (grows : (before.apart offset).Grows after) (sound : before.Sound)
    (placed : head.Throughout Statement.Placed) (crosses : head.Crosses lengths inner)
    {object : SourceObject Query} (member : object ∈ inner.body.objects) :
    (before.rejoin after).Rests before.views.next object
      (object.path.length + lengths.getLast?.getD offset) := by
  cases last : lengths.getLast? with
  | none =>
      cases List.getLast?_eq_none_iff.1 last
      have spans := crosses.spans_of_nil
      have supplied := (throughout_iff.1 placed inner spans.reaches).supplied
      exact grows.rests sound exact (charted.spans inner spans) member
        (supplied.objects object member).dots_key
  | some length => exact (based lengths inner crosses length last object member).rejoin sound

/-- What is recorded of a query as a whole does not matter to objects behind conditions. -/
theorem Based.withMetadata {statement : Statement Query} {metadata : Option Metadata}
    (based : Based ⟨statement⟩ chart least) : Based ⟨{ statement with metadata }⟩ chart least := by
  intro lengths inner crosses length last object member
  cases crosses with
  | spans => cases last
  | conditional spans given crosses =>
      cases spans with
      | self =>
          have own : Crosses ⟨statement⟩ (statement.primaryLength :: _) inner :=
            .conditional (.self ⟨statement⟩) given crosses
          exact based _ inner own length last object member
      | listed list spans =>
          have own : Crosses ⟨statement⟩ _ inner := .conditional (.listed list spans) given crosses
          exact based _ inner own length last object member

/-- Each object has a node, as deep as the last of the conditions on the way tells. -/
theorem Based.exists_node (based : query.Based chart least) (charted : Charted chart query)
    (sound : chart.Sound) (exact : chart.Exact) (placed : query.Throughout Statement.Placed)
    (crosses : query.Crosses lengths inner) {object : SourceObject Query}
    (member : object ∈ inner.body.objects) :
    ∃ id node, object.viewId = some id ∧ chart.graph.find? id = some node ∧
      node.depth = object.path.length + lengths.getLast?.getD chart.offset := by
  cases last : lengths.getLast? with
  | none =>
      cases List.getLast?_eq_none_iff.1 last
      have spans := crosses.spans_of_nil
      have supplied := (throughout_iff.1 placed inner spans.reaches).supplied
      obtain ⟨id, node, numbered, _, recorded, deep⟩ := sound.exists_node exact
        (charted.spans inner spans) member (supplied.objects object member).dots_key
      exact ⟨id, node, numbered, recorded, deep⟩
  | some length =>
      cases based lengths inner crosses length last object member with
      | @intro id node numbered above below free recorded deep =>
          exact ⟨id, node, numbered, recorded, deep⟩

/-- The depths of a compiled query, also of the objects behind its conditions. -/
structure Bases (site : Site) (before after : Session) (result : Statement Query)
    (around : Option (Statement Query)) : Prop extends Depths site before after result around where
  based : site.Sound → before.chart.Sound → before.chart.Exact →
    Based ⟨result⟩ after.chart before.chart.views.next

def bases : Outcome := fun site _ before result around after => Bases site before after result around

theorem Lists.based {depth done : Nat} {aliases : AliasMap} {own statement : Statement Query}
    {start state : Session} (inherits : Scope.Inherits (fun _ => True) aliases)
    (supplied : own.Supplied) (sound : start.chart.Sound) (earlier : start.chart.Exact)
    (lists : Lists bases depth aliases own start done statement state) :
    ∀ list ∈ listedBefore statement done, list.Based state.chart start.chart.views.next := by
  induction lists with
  | start => simp [listedBefore]
  | skip lists plain induction => rwa [listedBefore_skip plain]
  | @nested done statement grown body state after query lists found grows compiled induction =>
      have lists := lists.mono Bases.toDepths
      have kept := ((lists.mono Depths.places).placed inherits supplied).1
      have growing := ((lists.mono Depths.charted).charted sound).1
      have exact := lists.exact inherits supplied sound earlier
      have nested := compiled.based (Site.sound_list inherits (kept.supplied supplied))
        growing.sound exact
      have growth := (compiled.charted growing.sound).1
      rw [listedBefore_replaceNested grows found]
      refine List.forall_mem_append.2 ⟨fun list member => ?_, ?_⟩
      · exact (induction list member).mono (Nat.le_refl _) growth
      · rw [List.forall_mem_singleton]
        exact nested.mono growing.views.next (.refl growth.sound)

theorem Operands.based {depth : Nat} {around : Statement Query}
    {conditions results : List (Condition (Field Query))} {before after : Session}
    (operands : Operands bases depth around conditions before results after)
    (sound : before.chart.Sound) (earlier : before.chart.Exact) :
    ∀ query ∈ results.filterMap Condition.query?,
      query.Based after.chart before.chart.views.next ∧ Charted after.chart query := by
  induction operands with
  | nil => simp
  | plain plain later induction =>
      rw [List.filterMap_cons_none plain]
      exact induction sound earlier
  | @nested field query body parent rest results before middle after kind compiled later induction =>
      have alone : QueryPlace.conditional ≠ .select := by decide
      obtain ⟨growth, charted⟩ := compiled.charted sound
      have growing := ((later.mono Bases.toDepths |>.mono Depths.charted).charted growth.sound).1
      refine List.forall_mem_cons.2 ⟨⟨?_, charted.mono growing⟩, fun query member => ?_⟩
      · exact (compiled.based (Site.sound_alone alone) sound earlier).mono (Nat.le_refl _) growing
      · obtain ⟨based, charted⟩ :=
          induction growth.sound (compiled.exact (Site.sound_alone alone) sound earlier) query member
        exact ⟨based.mono growth.views.next (.refl growing.sound), charted⟩

theorem based_of_compiled {site : Site} {statement result : Statement Query}
    {before after : Session} {around : Option (Statement Query)}
    (given : statement.Parsed ∧ statement.Undotted)
    (compiled : Compiled bases site statement before result around after) (standing : site.Sound)
    (sound : before.chart.Sound) (earlier : before.chart.Exact) :
    Based ⟨result⟩ after.chart before.chart.views.next := by
  have placed := ((depths_of_compiled given (compiled.mono Bases.toDepths)).places standing).placed
  obtain ⟨read, undotted⟩ := given
  cases compiled with
  | @intro own selected _ _ filter having planned listing starting filtering ending after compiled
      lists begins filtered grouped ends ran =>
      have supplied := compiled.supplied read undotted standing
      have inherits := (compiled.located read undotted standing).1
      have records := (Statement.compileOwn_attaches before |>.of_ok ran).recordsAll
      -- Conditions begin without numbers for keys, from the primary object of this query.
      subst begins
      have growing := growing_of_steps sound ran
        (lists.mono Bases.toDepths |>.mono Depths.charted)
        (filtered.mono Bases.toDepths |>.mono Depths.charted)
        (grouped.mono Bases.toDepths |>.mono Depths.charted)
      have plannedExact := records.exact sound earlier fun object member =>
        (supplied.objects object member).dots_key
      have listed := lists.based inherits supplied growing.recorded.sound plannedExact
      rw [lists.listed] at listed
      have listingExact := (lists.mono Bases.toDepths).exact inherits supplied
        growing.recorded.sound plannedExact
      have startSound := growing.listed.sound.apart selected.primaryLength
      have startExact := listingExact.apart selected.primaryLength
      have filters := filtered.based startSound startExact
      have filteringExact := (filtered.mono Bases.toDepths).exact startSound startExact
      have havings := grouped.based growing.filtered.sound filteringExact
      have endingExact := (grouped.mono Bases.toDepths).exact growing.filtered.sound filteringExact
      have second := growing.grouped
      have conditional : ∀ query ∈ filter.filterMap Condition.query? ++
          having.filterMap Condition.query?,
          query.Based ending.chart listing.chart.views.next ∧ Charted ending.chart query := by
        refine List.forall_mem_append.2 ⟨fun query member => ?_, fun query member => ?_⟩
        · obtain ⟨based, charted⟩ := filters query member
          exact ⟨based.mono (Nat.le_refl _) second, charted.mono second⟩
        · obtain ⟨based, charted⟩ := havings query member
          exact ⟨based.mono growing.filtered.views.next (.refl second.sound), charted⟩
      rw [chart_of_ends ends]
      intro lengths inner crosses length last object member
      cases crosses with
      | spans => cases last
      | conditional spans given crosses =>
          cases spans with
          | self =>
              obtain ⟨based, charted⟩ := conditional _ given
              have placed := placed.nested _ (Statement.mem_nested_iff.2 (.inr given))
              rw [List.getLast?_cons] at last
              cases last
              have rests := based.rests charted endingExact growing.between growing.listed.sound placed
                crosses member
              exact rests.mono growing.toListing.views.next (.refl growing.rejoined.sound)
          | listed list spans =>
              have inside := Crosses.conditional spans given crosses
              exact (listed _ list _ inner inside length last object member).mono
                growing.recorded.views.next growing.rejoined

theorem bases_of_compiled {site : Site} {statement result : Statement Query}
    {before after : Session} {around : Option (Statement Query)}
    (given : statement.Parsed ∧ statement.Undotted)
    (compiled : Compiled bases site statement before result around after) :
    bases site statement before result around after where
  toDepths := depths_of_compiled given (compiled.mono Bases.toDepths)
  based := based_of_compiled given compiled

def rooted : Outcome := fun _ _ _ result _ _ => Throughout (·.objects ≠ []) ⟨result⟩

theorem rooted_of_compiled {site : Site} {statement result : Statement Query}
    {before after : Session} {around : Option (Statement Query)}
    (compiled : Compiled rooted site statement before result around after) :
    rooted site statement before result around after := by
  cases compiled with
  | intro compiled lists begins filtered grouped ends =>
      refine .intro (lists.selecting.objects_ne_nil compiled.objects) ?_
      rw [Statement.nested_eq_append]
      exact List.forall_mem_append.2 ⟨lists.forall_of_outcome fun nested => nested,
        List.forall_mem_append.2 ⟨filtered.forall_of_outcome fun nested => nested,
          grouped.forall_of_outcome fun nested => nested⟩⟩

theorem Crosses.positive (crosses : query.Crosses lengths inner)
    (rooted : query.Throughout (0 < ·.primaryLength)) : ∀ length ∈ lengths, 0 < length := by
  induction crosses with
  | spans => simp
  | @conditional query outer head inner lengths spans member crosses induction =>
      have outside := throughout_iff.1 rooted
      refine List.forall_mem_cons.2 ⟨outside outer spans.reaches, induction ?_⟩
      refine throughout_iff.2 fun inner reaches => outside inner ?_
      exact spans.reaches.trans (.nested (Statement.mem_nested_iff.2 (.inr member)) reaches)

end Query

/-- The last of some positive numbers is their sum only if there is no other. -/
theorem getLast?_getD_eq_sum_iff {lengths : List Nat} (positive : ∀ length ∈ lengths, 0 < length) :
    lengths.getLast?.getD 0 = lengths.sum ↔ lengths.length ≤ 1 := by
  cases lengths with
  | nil => simp
  | cons first rest =>
      rw [List.getLast?_cons, List.sum_cons, List.length_cons, Option.getD_some]
      have positive := positive first List.mem_cons_self
      cases last : rest.getLast? with
      | none =>
          cases List.getLast?_eq_none_iff.1 last
          simp
      | some length =>
          have within := List.single_le_sum (by simp) _ (List.mem_of_getLast? last)
          have some := List.length_pos_iff_exists_mem.2 ⟨length, List.mem_of_getLast? last⟩
          change length = first + rest.sum ↔ rest.length + 1 ≤ 1
          omega

namespace CompilerOptions

variable {options : CompilerOptions} {source : String} {date : Instant} {elapsedTime : Nat}
  {query : Query}

theorem rooted_of_compile
    (undotted : ∀ parsed, options.parse source = .ok parsed →
      ∀ path ∈ parsed.paths, ∀ segment ∈ path, Undotted segment)
    (compiled : options.compile source date elapsedTime = .ok query) :
    query.Throughout (0 < ·.primaryLength) := by
  have placed := (placed_of_compile undotted compiled).1
  obtain ⟨parsed, around, after, body, _, rooted, rfl⟩ := outcome_of_compile (fun _ own => own)
    (fun _ => Query.rooted_of_compiled) (fun _ => parsed_of_parse) compiled
  have rooted (metadata : Option Metadata) :
      Query.Throughout (·.objects ≠ []) ⟨{ body with metadata }⟩ := rooted.withMetadata fun own => own
  refine Query.throughout_iff.2 fun inner reaches => ?_
  obtain ⟨primary, rest, objects⟩ :=
    List.exists_cons_of_ne_nil (Query.throughout_iff.1 (rooted _) inner reaches)
  have supplied := (Query.throughout_iff.1 placed inner reaches).supplied
  have returns := supplied.objects primary (objects ▸ List.mem_cons_self)
  rw [Statement.primaryLength, objects]
  exact List.length_pos_iff.2 returns.plain.1

/--
Where no name holds a dot, the depth of an object in the graph is the length of
its path, and behind conditions also that of the path of the primary object of the
query around the last of them. This counts from the primary object of the whole
query only where there is one condition on the way at most.
-/
theorem depth_of_compile
    (undotted : ∀ parsed, options.parse source = .ok parsed →
      ∀ path ∈ parsed.paths, ∀ segment ∈ path, Undotted segment)
    (compiled : options.compile source date elapsedTime = .ok query) :
    ∃ metadata, query.body.metadata = some metadata ∧
      (∀ inner, query.Reaches inner → ∃ lengths, query.Crosses lengths inner) ∧
      ∀ lengths inner, query.Crosses lengths inner → ∀ object ∈ inner.body.objects,
        ∃ id node, object.viewId = some id ∧ metadata.viewGraph.find? id = some node ∧
          node.depth = object.path.length + lengths.getLast?.getD 0 ∧
          (node.depth = object.path.length + lengths.sum ↔ lengths.length ≤ 1) := by
  have placed := (placed_of_compile undotted compiled).1
  have rooted := rooted_of_compile undotted compiled
  obtain ⟨parsed, around, after, body, _, bases, rfl⟩ := outcome_of_compile
    (fun _ given => given.1) Query.bases_of_compiled
    (fun parsed parses => (parsed_of_parse parses).undotted (undotted parsed parses)) compiled
  have standing : Site.Sound .root := Site.sound_alone (by decide)
  have sound := Session.sound_chart options.maxNesting
  have exact := Session.exact_chart options.maxNesting
  obtain ⟨grows, charted⟩ := bases.charted sound
  have based := bases.based standing sound exact
  refine ⟨_, rfl, fun inner reaches => reaches.exists_crosses, ?_⟩
  intro lengths inner crosses object member
  obtain ⟨id, node, numbered, recorded, deep⟩ := based.withMetadata.exists_node
    charted.withMetadata grows.sound (bases.exact standing sound exact) placed crosses member
  rw [grows.offset] at deep
  refine ⟨id, node, numbered, recorded, deep, ?_⟩
  rw [deep, Nat.add_left_cancel_iff]
  exact getLast?_getD_eq_sum_iff (crosses.positive rooted)

/-- Visits in a condition on tasks that are listed, which are one step away from their contacts. -/
def listedVisits : String :=
  "SELECT Id, (SELECT Id FROM Contact.Tasks WHERE Id IN (SELECT TaskId FROM Visit)) FROM Contact"

theorem undotted_listedVisits :
    ∀ parsed, parse {} listedVisits = .ok parsed →
      ∀ path ∈ parsed.paths, ∀ segment ∈ path, Undotted segment :=
  undotted_of_parse (by decide +kernel)

theorem compile_listedVisits :
    ∃ query, compile {} listedVisits = .ok query ∧ ∃ list ∈ query.body.listed,
      list.body.primaryLength = 2 ∧ ∃ head ∈ list.body.conditional,
        ∃ object ∈ head.body.objects, object.path = ["Visit"] := by
  have run : compilesTo {} listedVisits (fun query => query.body.listed.any fun list =>
      list.body.primaryLength == 2 && list.body.conditional.any fun head =>
        head.body.objects.any fun object => object.path == ["Visit"]) = true := by
    decide +kernel
  obtain ⟨query, compiled, holds⟩ := exists_of_compilesTo run
  simp only [List.any_eq_true, Bool.and_eq_true, beq_iff_eq] at holds
  exact ⟨query, compiled, holds⟩

theorem depth_of_listedVisits :
    ∃ query metadata, compile {} listedVisits = .ok query ∧ query.body.metadata = some metadata ∧
      ∃ list ∈ query.body.listed, ∃ head ∈ list.body.conditional, ∃ object ∈ head.body.objects,
        object.path = ["Visit"] ∧ ∃ id node, object.viewId = some id ∧
          metadata.viewGraph.find? id = some node ∧ node.depth = 3 := by
  obtain ⟨query, compiled, list, listed, primary, head, given, object, member, path⟩ :=
    compile_listedVisits
  obtain ⟨metadata, present, _, depths⟩ := depth_of_compile undotted_listedVisits compiled
  have crosses : query.Crosses [list.body.primaryLength] head :=
    .conditional (.listed listed (.self list)) given (.spans (.self head))
  obtain ⟨id, node, numbered, recorded, deep, _⟩ := depths _ head crosses object member
  refine ⟨query, metadata, compiled, present, list, listed, head, given, object, member, path,
    id, node, numbered, recorded, ?_⟩
  rw [deep, path, primary]
  rfl

/-- Visits in a condition on tasks, which are read in a condition themselves. -/
def distantVisits : String :=
  "SELECT Id FROM Contact WHERE Id IN " ++
    "(SELECT ContactId FROM Task WHERE Id IN (SELECT TaskId FROM Visit))"

/-- Behind two conditions, objects are not as deep as all primary objects on the way tell. -/
theorem shallow_of_distantVisits :
    ∃ query metadata middle head object id node, compile {} distantVisits = .ok query ∧
      query.body.metadata = some metadata ∧ middle ∈ query.body.conditional ∧
      head ∈ middle.body.conditional ∧ object ∈ head.body.objects ∧
      query.Crosses [query.body.primaryLength, middle.body.primaryLength] head ∧
      object.viewId = some id ∧ metadata.viewGraph.find? id = some node ∧
      node.depth ≠ object.path.length + (query.body.primaryLength + middle.body.primaryLength) := by
  have run : compilesTo {} distantVisits (fun query => query.body.metadata.any fun metadata =>
      query.body.conditional.any fun middle => middle.body.conditional.any fun head =>
        head.body.objects.any fun object => object.viewId.any fun id =>
          (metadata.viewGraph.find? id).any fun node =>
            node.depth != object.path.length +
              (query.body.primaryLength + middle.body.primaryLength)) = true := by
    decide +kernel
  obtain ⟨query, compiled, holds⟩ := exists_of_compilesTo run
  simp only [List.any_eq_true, Option.any_eq_true, bne_iff_ne] at holds
  obtain ⟨metadata, present, middle, outside, head, inside, object, member, id, numbered, node,
    recorded, shallow⟩ := holds
  exact ⟨query, metadata, middle, head, object, id, node, compiled, present, outside, inside, member,
    .conditional (.self query) outside (.conditional (.self middle) inside (.spans (.self head))),
    numbered, recorded, shallow⟩

end CompilerOptions

end ObjectQuery
