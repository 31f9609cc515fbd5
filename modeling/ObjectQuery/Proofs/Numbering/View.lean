import ObjectQuery.Numbering.View
import ObjectQuery.Proofs.Numbering.Column
import ObjectQuery.Proofs.Query.Key

namespace ObjectQuery

/-!
Numbering the objects of a statement. The graph of objects has a node for each
number that was given, and no node lies deeper than the greatest depth recorded.
-/

namespace Ledger

/-- The objects have the numbers of their keys. -/
def Lists (ledger : Ledger) (objects : List (SourceObject Q)) : Prop :=
  ∀ object ∈ objects, ∃ id, object.viewId = some id ∧ ledger.ids.find? object.key = some id

theorem Lists.mono {before after : Ledger} {objects : List (SourceObject Q)}
    (lists : before.Lists objects) (grows : before.Grows after) : after.Lists objects := by
  intro object member
  obtain ⟨id, numbered, found⟩ := lists object member
  exact ⟨id, numbered, grows.keeps _ _ found⟩

theorem Sound.viewId_eq_iff {ledger : Ledger} (sound : ledger.Sound)
    {objects others : List (SourceObject Q)} (lists : ledger.Lists objects)
    (listsToo : ledger.Lists others) {object other : SourceObject Q} (member : object ∈ objects)
    (memberToo : other ∈ others) : object.viewId = other.viewId ↔ object.key = other.key := by
  obtain ⟨id, numbered, found⟩ := lists object member
  obtain ⟨otherId, numberedToo, foundToo⟩ := listsToo other memberToo
  rw [numbered, numberedToo, Option.some_inj]
  constructor
  · rintro rfl
    exact sound.injective _ _ id found foundToo
  · intro same
    rw [same, foundToo] at found
    exact (Option.some_inj.1 found).symm

end Ledger

/-- What a session knows of objects. -/
structure Chart where
  views : Ledger
  graph : SortedMap Nat ViewNode
  deepest : Nat
  /-- What depths are counted from. -/
  offset : Nat

def Session.chart (session : Session) : Chart where
  views := ⟨session.nextViewId, session.registry.viewIds⟩
  graph := session.viewGraph
  deepest := session.maxViewDepth
  offset := session.registry.depthOffset

namespace Chart

/-- The graph has the numbers that were given, and no node lies too deep. -/
structure Sound (chart : Chart) : Prop where
  views : chart.views.Sound
  nodes : ∀ id, (∃ node, chart.graph.find? id = some node) ↔ 1 ≤ id ∧ id < chart.views.next
  within : ∀ id node, chart.graph.find? id = some node → node.depth ≤ chart.deepest

/-- A later chart: only nodes of keys that have numbers here may have changed. -/
structure Grows (before after : Chart) : Prop where
  sound : after.Sound
  views : before.views.Grows after.views
  others : ∀ id < before.views.next, (∀ key, before.views.ids.find? key ≠ some id) →
    after.graph.find? id = before.graph.find? id
  offset : after.offset = before.offset

/--
The depths of nodes tell how many segments their keys have, and the greatest
depth is that of a node, unless none is greater than nothing.
-/
structure Exact (chart : Chart) : Prop where
  depths : ∀ key id node, chart.views.ids.find? key = some id →
    chart.graph.find? id = some node → node.depth = Path.dots key + 1 + chart.offset
  attained : chart.deepest = 0 ∨
    ∃ id node, chart.graph.find? id = some node ∧ node.depth = chart.deepest

/-- The chart once other numbers are given to keys, with other depths. -/
def apart (chart : Chart) (offset : Nat) : Chart :=
  { chart with views := chart.views.apart, offset }

/-- The chart once the numbers of keys from before are back. -/
def rejoin (before after : Chart) : Chart :=
  { after with views := { before.views with next := after.views.next }, offset := before.offset }

variable {before middle after chart : Chart}

theorem Grows.refl (sound : chart.Sound) : chart.Grows chart :=
  ⟨sound, .refl sound.views, fun _ _ _ => rfl, rfl⟩

theorem Grows.trans (first : before.Grows middle) (second : middle.Grows after) :
    before.Grows after where
  sound := second.sound
  views := first.views.trans second.views
  others id below free := by
    have later := second.others id (Nat.lt_of_lt_of_le below first.views.next)
      (first.views.not_given below free)
    exact later.trans (first.others id below free)
  offset := second.offset.trans first.offset

theorem Sound.apart (sound : chart.Sound) (offset : Nat) : (chart.apart offset).Sound where
  views := Ledger.sound_apart sound.views
  nodes := sound.nodes
  within := sound.within

/-- The nodes that were recorded before keep their places in the graph meanwhile. -/
theorem Grows.others_of_apart {offset : Nat} (grows : (before.apart offset).Grows after) {id : Nat}
    (below : id < before.views.next) : after.graph.find? id = before.graph.find? id :=
  grows.others id below fun _ impossible => by cases impossible

theorem Grows.rejoin {offset : Nat} (grows : (before.apart offset).Grows after)
    (sound : before.Sound) : before.Grows (before.rejoin after) where
  sound := {
    views := (grows.views.of_apart sound.views).sound
    nodes := grows.sound.nodes
    within := grows.sound.within }
  views := grows.views.of_apart sound.views
  others _ below _ := grows.others_of_apart below
  offset := rfl

theorem Exact.apart (exact : chart.Exact) (offset : Nat) : (chart.apart offset).Exact where
  depths _ _ _ impossible := by cases impossible
  attained := exact.attained

theorem Exact.rejoin {offset : Nat} (exact : after.Exact) (earlier : before.Exact)
    (sound : before.Sound) (grows : (before.apart offset).Grows after) :
    (before.rejoin after).Exact where
  depths key id node found recorded := by
    have below := (sound.views.given key id found).2
    exact earlier.depths key id node found ((grows.others_of_apart below).symm.trans recorded)
  attained := exact.attained

/-- The key has a number already, or gets the next one. -/
def Gives (before after : Ledger) (key : String) (id : Nat) : Prop :=
  (before.ids.find? key = some id ∧ after = before) ∨
    (before.ids.find? key = none ∧ id = before.next ∧ after = before.give key)

/-- An object is numbered, and its node recorded. -/
structure Records (before : Chart) (object : SourceObject Q) (after : Chart) : Prop where
  step : ∃ id node, object.viewId = some id ∧ Gives before.views after.views object.key id ∧
    node.depth = object.path.length + before.offset ∧
    after.graph = before.graph.insert id node ∧ after.deepest = max before.deepest node.depth
  offset : after.offset = before.offset

/-- Objects are numbered one after the other. -/
inductive RecordsAll : Chart → List (SourceObject Q) → Chart → Prop
  | nil {chart : Chart} : RecordsAll chart [] chart
  | cons {before middle after : Chart} {object : SourceObject Q} {rest : List (SourceObject Q)}
      (records : before.Records object middle) (later : RecordsAll middle rest after) :
      RecordsAll before (object :: rest) after

/--
An object is numbered, and its node recorded. Both are linked to the number of
the path before the last segment, if this has one by then.
-/
structure Attaches (before : Chart) (object : SourceObject Q) (after : Chart) : Prop where
  records : before.Records object after
  parent : 1 < object.path.length → ∀ id,
    after.views.ids.find? (Path.key object.path.parent) = some id → object.parentViewId = some id
  node : ∃ id node, object.viewId = some id ∧ after.graph.find? id = some node ∧
    node.parentViewId = object.parentViewId

/-- Objects are numbered and linked one after the other. -/
inductive AttachesAll : Chart → List (SourceObject Q) → Chart → Prop
  | nil {chart : Chart} : AttachesAll chart [] chart
  | cons {before middle after : Chart} {object : SourceObject Q} {rest : List (SourceObject Q)}
      (attaches : before.Attaches object middle) (later : AttachesAll middle rest after) :
      AttachesAll before (object :: rest) after

theorem AttachesAll.recordsAll {objects : List (SourceObject Q)}
    (attaches : before.AttachesAll objects after) : before.RecordsAll objects after := by
  induction attaches with
  | nil => exact .nil
  | cons attaches later induction => exact .cons attaches.records induction

namespace Gives

variable {before after : Ledger} {key : String} {id : Nat}

theorem find? (gives : Gives before after key id) : after.ids.find? key = some id := by
  rcases gives with ⟨known, rfl⟩ | ⟨_, rfl, rfl⟩
  · exact known
  · exact Ledger.find?_give.2 (.inl ⟨rfl, rfl⟩)

theorem grows (gives : Gives before after key id) (sound : before.Sound) : before.Grows after := by
  rcases gives with ⟨_, rfl⟩ | ⟨absent, rfl, rfl⟩
  · exact .refl sound
  · exact .give sound absent

theorem lt_next_iff (gives : Gives before after key id) (sound : before.Sound) (other : Nat) :
    1 ≤ other ∧ other < after.next ↔ other = id ∨ (1 ≤ other ∧ other < before.next) := by
  rcases gives with ⟨known, rfl⟩ | ⟨_, rfl, rfl⟩
  · have within := sound.given key id known
    omega
  · have positive := sound.positive
    change 1 ≤ other ∧ other < before.next + 1 ↔ _
    omega

/-- The number was not that of another key. -/
theorem eq_key (gives : Gives before after key id) (sound : before.Sound) {other : String}
    (found : after.ids.find? other = some id) : other = key :=
  (gives.grows sound).sound.injective other key id found gives.find?

end Gives

section Records

variable {Q : Type} {object : SourceObject Q} {objects : List (SourceObject Q)}

theorem find?_insert_iff {graph : SortedMap Nat ViewNode} {id other : Nat} {node found : ViewNode} :
    (graph.insert id node).find? other = some found ↔
      (other = id ∧ found = node) ∨ (other ≠ id ∧ graph.find? other = some found) := by
  by_cases same : id = other
  · subst same
    simp [eq_comm]
  · rw [SortedMap.find?_insert_of_ne _ _ same]
    simp [Ne.symm same]

theorem Records.grows (records : before.Records object after) (sound : before.Sound) :
    before.Grows after := by
  obtain ⟨id, node, _, gives, _, graph, deepest⟩ := records.step
  have views := gives.grows sound.views
  refine ⟨⟨views.sound, fun other => ?_, fun other found recorded => ?_⟩, views, ?_, records.offset⟩
  · rw [gives.lt_next_iff sound.views, ← sound.nodes, graph]
    simp only [find?_insert_iff]
    by_cases same : other = id <;> simp [same]
  · rw [graph, find?_insert_iff] at recorded
    rw [deepest]
    rcases recorded with ⟨_, rfl⟩ | ⟨_, earlier⟩
    · exact Nat.le_max_right _ _
    · exact Nat.le_trans (sound.within other found earlier) (Nat.le_max_left _ _)
  · intro other below free
    rw [graph, SortedMap.find?_insert_of_ne]
    rintro rfl
    rcases gives with ⟨known, _⟩ | ⟨_, rfl, _⟩
    · exact free _ known
    · exact Nat.lt_irrefl _ below

theorem Records.exact (records : before.Records object after) (sound : before.Sound)
    (earlier : before.Exact) (keyed : Path.dots object.key + 1 = object.path.length) :
    after.Exact := by
  obtain ⟨id, node, _, gives, depth, graph, deepest⟩ := records.step
  have here : node.depth = Path.dots object.key + 1 + before.offset := by rw [depth, keyed]
  refine ⟨fun key other found given recorded => ?_, ?_⟩
  · rw [records.offset]
    rw [graph, find?_insert_iff] at recorded
    rcases recorded with ⟨rfl, rfl⟩ | ⟨different, recorded⟩
    · rw [gives.eq_key sound.views given]
      exact here
    · -- A number that is not the one given here belonged to the key before.
      refine earlier.depths key other found ?_ recorded
      rcases gives with ⟨_, same⟩ | ⟨_, rfl, same⟩
      · rwa [same] at given
      · rw [same, Ledger.find?_give] at given
        exact (given.resolve_left fun new => different new.2).2
  · rw [deepest, graph]
    rcases Nat.le_total before.deepest node.depth with deeper | higher
    · exact .inr ⟨id, node, by simp, (Nat.max_eq_right deeper).symm⟩
    · rw [Nat.max_eq_left higher]
      refine earlier.attained.imp_right ?_
      rintro ⟨other, deep, recorded, attains⟩
      by_cases same : other = id
      · subst same
        refine ⟨other, node, by simp, ?_⟩
        -- A node that is recorded again is that of the same key.
        rcases gives with ⟨known, _⟩ | ⟨_, rfl, _⟩
        · rw [here, ← attains, earlier.depths _ _ _ known recorded]
        · exact absurd ((sound.nodes _).1 ⟨deep, recorded⟩).2 (Nat.lt_irrefl _)
      · exact ⟨other, deep, find?_insert_iff.2 (.inr ⟨same, recorded⟩), attains⟩

theorem RecordsAll.grows (records : before.RecordsAll objects after) (sound : before.Sound) :
    before.Grows after ∧ after.views.Lists objects := by
  induction records with
  | nil => exact ⟨.refl sound, by simp [Ledger.Lists]⟩
  | cons records later induction =>
      have first := records.grows sound
      obtain ⟨grows, lists⟩ := induction first.sound
      obtain ⟨id, node, numbered, gives, _⟩ := records.step
      exact ⟨first.trans grows,
        List.forall_mem_cons.2 ⟨⟨id, numbered, grows.views.keeps _ _ gives.find?⟩, lists⟩⟩

theorem RecordsAll.exact (records : before.RecordsAll objects after) (sound : before.Sound)
    (earlier : before.Exact)
    (keyed : ∀ object ∈ objects, Path.dots object.key + 1 = object.path.length) : after.Exact := by
  induction records with
  | nil => exact earlier
  | cons records later induction =>
      obtain ⟨first, others⟩ := List.forall_mem_cons.1 keyed
      exact induction (records.grows sound).sound (records.exact sound earlier first) others

end Records

end Chart

namespace SourceObject

/-- The object without what planning gives to it. -/
def unplanned (object : SourceObject Q) : SourceObject Q :=
  { object with hasConditions := false, innerJoin := false, plan := none }

end SourceObject

theorem Ledger.Lists.of_unplanned {ledger : Ledger} {objects others : List (SourceObject Q)}
    (lists : ledger.Lists objects)
    (same : others.map SourceObject.unplanned = objects.map SourceObject.unplanned) :
    ledger.Lists others := by
  intro object member
  obtain ⟨own, given, alike⟩ := List.mem_map.1 (same ▸ List.mem_map_of_mem member)
  obtain ⟨id, numbered, found⟩ := lists own given
  have viewId : own.viewId = object.viewId := congrArg (fun given => given.viewId) alike
  have key : own.key = object.key := congrArg (fun given => given.key) alike
  exact ⟨id, viewId ▸ numbered, key ▸ found⟩

namespace Chart

variable {Q : Type} {before after : Chart}

theorem AttachesAll.of_unplanned {objects others : List (SourceObject Q)}
    (attaches : before.AttachesAll objects after)
    (same : others.map SourceObject.unplanned = objects.map SourceObject.unplanned) :
    before.AttachesAll others after := by
  induction attaches generalizing others with
  | nil =>
      cases List.map_eq_nil_iff.1 same
      exact .nil
  | @cons before middle after object rest attaches later induction =>
      obtain ⟨other, tail, rfl, first, alike⟩ := List.map_eq_cons_iff.1 same
      have viewId : other.viewId = object.viewId := congrArg (fun given => given.viewId) first
      have path : other.path = object.path := congrArg (fun given => given.path) first
      have key : other.key = object.key := congrArg (fun given => given.key) first
      have parent : other.parentViewId = object.parentViewId :=
        congrArg (fun given => given.parentViewId) first
      refine .cons ⟨⟨?_, attaches.records.offset⟩, ?_, ?_⟩ (induction alike)
      · rw [viewId, path, key]
        exact attaches.records.step
      · rw [path, parent]
        exact attaches.parent
      · rw [viewId, parent]
        exact attaches.node

end Chart

namespace Chart

theorem records_of_gives {before middle after : Chart} {id : Nat} {object : SourceObject Q}
    (gives : Gives before.views middle.views object.key id)
    (same : middle = { before with views := middle.views }) (numbered : object.viewId = some id)
    (node : ViewNode) (depth : node.depth = object.path.length + middle.offset)
    (recorded : after = { middle with
      graph := middle.graph.insert id node
      deepest := max middle.deepest node.depth }) : before.Records object after := by
  have offset : middle.offset = before.offset := by rw [same]
  have graph : middle.graph = before.graph := by rw [same]
  have deepest : middle.deepest = before.deepest := by rw [same]
  subst recorded
  refine ⟨⟨id, node, numbered, gives, by rw [depth, offset], ?_, ?_⟩, offset⟩
  · exact congrArg (SortedMap.insert · id node) graph
  · exact congrArg (max · node.depth) deepest

end Chart

open Session (Leads)

namespace SourceObject

variable {Q : Type}

theorem assignId_attaches (queryId queryDepth : Nat) (object : SourceObject Q) (before : Session) :
    Leads (object.assignId queryId queryDepth) before fun numbered after =>
      before.chart.Attaches numbered after.chart := by
  have viewed : Leads (Session.viewId object.key) before fun id after =>
      Chart.Gives before.chart.views after.chart.views object.key id ∧
        after.chart = { before.chart with views := after.chart.views } := by
    have get : Leads get before fun session after => session = before ∧ after = before :=
      ⟨rfl, rfl⟩
    refine get.bind ?_
    rintro _ _ ⟨rfl, rfl⟩
    split
    · exact ⟨.inl ⟨‹_›, rfl⟩, rfl⟩
    · exact ⟨.inr ⟨‹_›, rfl, rfl⟩, rfl⟩
  refine viewed.bind ?_
  rintro id middle ⟨gives, same⟩
  refine ⟨?_, fun long parentId found => ?_, id, _, rfl, SortedMap.find?_insert_self .., rfl⟩
  · exact Chart.records_of_gives gives same rfl
      ⟨_, queryId, object.path.length + middle.registry.depthOffset, queryDepth⟩ rfl rfl
  · change middle.registry.viewIds.find? (Path.key object.path.parent) = some parentId at found
    change (if 1 < object.path.length then _ else _) = some parentId
    change 1 < object.path.length at long
    rw [if_pos long, found]
    rfl

end SourceObject

namespace Statement

variable {Q : Type}

theorem assignViewIds_attaches (depth : Nat) (statement : Statement Q) (before : Session) :
    Leads (statement.assignViewIds depth) before fun viewed after =>
      before.chart.AttachesAll viewed.objects after.chart := by
  have objects (objects : List (SourceObject Q)) (before : Session) :
      Leads (objects.mapM (·.assignId statement.id depth)) before fun viewed after =>
        before.chart.AttachesAll viewed after.chart := by
    induction objects generalizing before with
    | nil => exact .nil
    | cons object rest induction =>
        rw [List.mapM_cons]
        refine (object.assignId_attaches statement.id depth before).bind ?_
        intro viewed middle attaches
        exact (induction middle).bind fun others after later => .cons attaches later
  exact (objects statement.objects before).bind fun viewed after attaches => attaches

theorem chart_of_uncounted {before after : Session} (same : after.uncounted = before.uncounted) :
    after.chart = before.chart :=
  show after.uncounted.chart = before.uncounted.chart by rw [same]

theorem assignIds_attaches (depth : Nat) (selected : SelectAliases Query)
    (statement : Statement Query) (before : Session) :
    Step.Meets (statement.assignIds depth selected) before fun numbered after =>
      before.chart.AttachesAll numbered.objects after.chart := by
  have views : Step.Meets (Compilation.ofState (statement.assignViewIds depth)) before
      fun viewed after => before.chart.AttachesAll viewed.objects after.chart :=
    statement.assignViewIds_attaches depth before
  refine views.bind fun viewed middle attaches => ?_
  have numbers : Step.Meets (Compilation.ofState viewed.assignColumnIds) middle
      fun numbered after => numbered.objects = viewed.objects ∧
        after.uncounted = middle.uncounted :=
    ((assignColumnIds_numbers viewed).meets middle).mono fun _ _ held => held.imp_left And.right
  refine numbers.bind ?_
  rintro numbered after ⟨objects, same⟩
  dsimp only
  split
  · exact .throw trivial
  · refine .pure ?_
    rw [chart_of_uncounted same]
    exact objects ▸ attaches

end Statement

end ObjectQuery
