import ObjectQuery.Proofs.Compiler.Depth
import ObjectQuery.Proofs.Numbering.Parent

namespace ObjectQuery

/-!
The links between the objects of a compiled query. An object of a list of related
rows is linked to that of its path before the last segment in any query around
the list, and an object after the first to that in its own query. Where no name
holds a dot, the graph of objects has the same links.
-/

namespace Statement

variable {site : Site} {statement own : Statement Query} {around : Option (Statement Query)}
  {aliases : AliasMap} {before after : Session}

theorem OwnCompiled.ordered (compiled : statement.OwnCompiled site before own around aliases after)
    (read : statement.Parsed) : own.Ordered := by
  obtain ⟨resolved, numbered, _, ⟨primary, mentions, selected, scope, _, resolves, _⟩, alike,
    planned, _⟩ := compiled.planned
  obtain ⟨filtered, grouped⟩ := read.registered before.nextQueryId site.parent
  have ordered := (resolve_ordered site.place primary filtered grouped _).of_ok resolves
  exact ordered.of_bare (planned.alike.objects.trans alike.objects)

/--
An object that has its number after those of a statement that lead to it: not the
first of the statement itself, or one in a list of related rows there.
-/
inductive ReadsLater (statement : Statement Query) (object : SourceObject Query) : Prop
  | own (member : object ∈ statement.objects.tail)
  | listed {list inner : Query} (given : list ∈ statement.listed) (spans : list.Spans inner)
      (member : object ∈ inner.body.objects)

theorem ReadsLater.exists_reached {query : Query} {object : SourceObject Query}
    (reads : query.body.ReadsLater object) :
    ∃ inner, query.Reaches inner ∧ object ∈ inner.body.objects := by
  cases reads with
  | own member => exact ⟨query, .self query, List.mem_of_mem_tail member⟩
  | listed given spans member => exact ⟨_, (Query.Spans.listed given spans).reaches, member⟩

/-- What is recorded of a query as a whole does not matter. -/
theorem ReadsLater.of_metadata {metadata : Option Metadata} {object : SourceObject Query}
    (reads : { statement with metadata }.ReadsLater object) : statement.ReadsLater object := by
  cases reads with
  | own member => exact .own member
  | listed given spans member => exact .listed given spans member

/-- Objects are linked to those of the statement that are their parents. -/
def Linked (dotless : Prop) (chart : Chart) (statement : Statement Query) : Prop :=
  ∀ object, statement.ReadsLater object → ∀ parent ∈ statement.objects,
    1 < object.path.length → parent.path.same object.path.parent = true →
      ∃ id, parent.viewId = some id ∧ chart.Attached dotless object id

theorem Linked.mono {dotless : Prop} {before after : Chart} (linked : Linked dotless before statement)
    (attached : ∀ object id, statement.ReadsLater object → before.Attached dotless object id →
      after.Attached dotless object id) : Linked dotless after statement := by
  intro object reads parent member long same
  obtain ⟨id, numbered, linked⟩ := linked object reads parent member long same
  exact ⟨id, numbered, attached object id reads linked⟩

end Statement

namespace Query

open Statement (Linked)

variable {dotless : Prop}

/-- What is known of the links in a query that is compiled between two charts. -/
structure Attaching (dotless : Prop) (start now : Chart) (query : Query) : Prop where
  numbers : query.Throughout fun statement => start.views.Numbers statement.objects
  known : ∀ inner, query.Spans inner → ∀ object ∈ inner.body.objects, 1 < object.path.length →
    ∀ id, start.views.ids.find? (Path.key object.path.parent) = some id →
      now.Attached dotless object id
  linked : query.Throughout (Linked dotless now)

theorem Attaching.mono {start middle now after : Chart} {query : Query}
    (attaching : Attaching dotless middle now query) (earlier : start.Grows middle)
    (later : now.Grows after) (keeps : dotless → now.KeepsLinks after) :
    Attaching dotless start after query where
  numbers := attaching.numbers.mono fun _ numbers => numbers.mono earlier.views
  known inner spans object member long id found :=
    (attaching.known inner spans object member long id (earlier.views.keeps _ _ found)).mono later
      keeps
  linked := attaching.linked.mono fun _ linked =>
    linked.mono fun _ _ _ attached => attached.mono later keeps

/-- Links that are made apart stay once the numbers from before are back. -/
theorem Attaching.rejoin {offset : Nat} {before after : Chart} {query : Query}
    (attaching : Attaching dotless (before.apart offset) after query)
    (grows : (before.apart offset).Grows after) (sound : before.Sound) :
    query.Throughout (fun statement => before.views.Numbers statement.objects) ∧
      query.Throughout (Linked dotless (before.rejoin after)) := by
  constructor
  · refine attaching.numbers.mono fun statement numbers object member => ?_
    obtain ⟨id, numbered, _⟩ := numbers object member
    exact ⟨id, numbered, .inr (numbers.least member numbered)⟩
  · refine throughout_iff.2 fun inner reaches => ?_
    refine (throughout_iff.1 attaching.linked inner reaches).mono fun object id reads attached => ?_
    obtain ⟨innermost, reached, member⟩ := reads.exists_reached
    have numbers := throughout_iff.1 attaching.numbers innermost (reaches.trans reached)
    exact ⟨attached.parent, fun dotless =>
      (attached.settles dotless).rejoin grows sound fun _ => numbers.least member⟩

/-- What is known of a query that compiles, of names only where these hold no dots. -/
structure Parents (dotless : Prop) (site : Site) (before after : Session)
    (result : Statement Query) (around : Option (Statement Query)) : Prop where
  places : dotless → site.Sound → Places site result around
  charted : before.chart.Sound → before.chart.Grows after.chart ∧ Charted after.chart ⟨result⟩
  attaching : (dotless → site.Sound) → before.chart.Sound →
    (dotless → before.chart.KeepsLinks after.chart) ∧
      Attaching dotless before.chart after.chart ⟨result⟩

def parents (dotless : Prop) : Outcome := fun site _ before result around after =>
  Parents dotless site before after result around

theorem Lists.attaching {depth done : Nat} {aliases : AliasMap} {own statement : Statement Query}
    {start state : Session} (inherits : dotless → Scope.Inherits (fun _ => True) aliases)
    (supplied : dotless → own.Supplied) (sound : start.chart.Sound)
    (lists : Lists (parents dotless) depth aliases own start done statement state) :
    (dotless → start.chart.KeepsLinks state.chart) ∧
      ∀ list ∈ listedBefore statement done, Attaching dotless start.chart state.chart list := by
  induction lists with
  | start => exact ⟨fun _ => .refl _, by simp [listedBefore]⟩
  | skip lists plain induction => rwa [listedBefore_skip plain]
  | @nested done statement grown body state after query lists found grows compiled induction =>
      obtain ⟨keeps, attaching⟩ := induction
      have growing := ((lists.mono Parents.charted).charted sound).1
      have standing (plain : dotless) :
          Site.Sound ⟨.select, depth + 1, aliases, some statement⟩ := by
        have kept := ((lists.mono fun own => own.places plain).placed (inherits plain)
          (supplied plain)).1
        exact Site.sound_list (inherits plain) (kept.supplied (supplied plain))
      obtain ⟨growth, _⟩ := compiled.charted growing.sound
      obtain ⟨keepsToo, nested⟩ := compiled.attaching standing growing.sound
      refine ⟨fun plain => (keeps plain).trans (keepsToo plain), ?_⟩
      rw [listedBefore_replaceNested grows found]
      refine List.forall_mem_append.2 ⟨fun list member => ?_, ?_⟩
      · exact (attaching list member).mono (.refl sound) growth keepsToo
      · rw [List.forall_mem_singleton]
        exact nested.mono growing (.refl growth.sound) fun _ => .refl _

theorem Operands.attaching {depth : Nat} {around : Statement Query}
    {conditions results : List (Condition (Field Query))} {before after : Session}
    (operands : Operands (parents dotless) depth around conditions before results after)
    (sound : before.chart.Sound) :
    (dotless → before.chart.KeepsLinks after.chart) ∧
      ∀ query ∈ results.filterMap Condition.query?,
        Attaching dotless before.chart after.chart query := by
  induction operands with
  | nil => exact ⟨fun _ => .refl _, by simp⟩
  | plain plain later induction =>
      rw [List.filterMap_cons_none plain]
      exact induction sound
  | @nested field query body parent rest results before middle after kind compiled later induction =>
      have alone : QueryPlace.conditional ≠ .select := by decide
      obtain ⟨growth, _⟩ := compiled.charted sound
      obtain ⟨keeps, nested⟩ := compiled.attaching (fun _ => Site.sound_alone alone) sound
      obtain ⟨keepsToo, others⟩ := induction growth.sound
      have growing := ((later.mono Parents.charted).charted growth.sound).1
      refine ⟨fun plain => (keeps plain).trans (keepsToo plain), List.forall_mem_cons.2 ⟨?_, ?_⟩⟩
      · exact nested.mono (.refl sound) growing keepsToo
      · exact fun query member => (others query member).mono growth (.refl growing.sound) fun _ =>
          .refl _

/-- Queries in conditions have their links when the numbers from before are back. -/
theorem Growing.attaching {depth : Nat} {selected : Statement Query}
    {filter having : List (Condition (Field Query))} {before planned : Chart}
    {listing filtering ending : Session}
    (growing : Growing before planned listing.chart filtering.chart ending.chart
      selected.primaryLength)
    (filtered : Operands (parents dotless) depth selected selected.filter
      (conditionSession selected listing) filter filtering)
    (grouped : Operands (parents dotless) depth selected selected.having filtering having ending) :
    ∀ query ∈ filter.filterMap Condition.query? ++ having.filterMap Condition.query?,
      query.Throughout (fun statement => listing.chart.views.Numbers statement.objects) ∧
        query.Throughout (Linked dotless (listing.chart.rejoin ending.chart)) := by
  have start := growing.listed.sound.apart selected.primaryLength
  obtain ⟨_, filters⟩ := filtered.attaching start
  obtain ⟨keeps, havings⟩ := grouped.attaching growing.filtered.sound
  refine List.forall_mem_append.2 ⟨fun query member => ?_, fun query member => ?_⟩
  · have own := (filters query member).mono (.refl start) growing.grouped keeps
    exact Attaching.rejoin own growing.between growing.listed.sound
  · have own := (havings query member).mono growing.filtered (.refl growing.grouped.sound)
      fun _ => .refl _
    exact Attaching.rejoin own growing.between growing.listed.sound

theorem attaching_of_compiled {site : Site} {statement result : Statement Query}
    {before after : Session} {around : Option (Statement Query)}
    (given : statement.Parsed ∧ (dotless → statement.Undotted))
    (compiled : Compiled (parents dotless) site statement before result around after)
    (standing : dotless → site.Sound) (sound : before.chart.Sound) :
    (dotless → before.chart.KeepsLinks after.chart) ∧
      Attaching dotless before.chart after.chart ⟨result⟩ := by
  obtain ⟨read, undotted⟩ := given
  cases compiled with
  | @intro own selected _ _ filter having planned listing starting filtering ending after compiled
      lists begins filtered grouped ends ran =>
      have supplied (plain : dotless) := compiled.supplied read (undotted plain) (standing plain)
      have inherits (plain : dotless) := (compiled.located read (undotted plain) (standing plain)).1
      have attaching := Statement.compileOwn_attaches before |>.of_ok ran
      subst begins
      have growing := growing_of_steps sound ran (lists.mono Parents.charted)
        (filtered.mono Parents.charted) (grouped.mono Parents.charted)
      have recorded := growing.recorded
      have same := ((lists.mono Parents.charted).charted recorded.sound).2.1
      obtain ⟨keepsLists, listed⟩ := lists.attaching inherits supplied recorded.sound
      rw [lists.listed] at listed
      -- The objects get more plans with the lists, but keep their paths, numbers and links.
      have attaches := attaching.of_unplanned same
      have ordered := (compiled.ordered read).of_bare lists.selecting.objects
      have plain (dotless : dotless) (object : SourceObject Query)
          (member : object ∈ selected.objects) : object.path.Plain := by
        obtain ⟨own, given, alike⟩ := List.mem_map.1 (same ▸ List.mem_map_of_mem member)
        have path : own.path = object.path := congrArg (fun given => given.path) alike
        exact path ▸ ((supplied dotless).objects own given).plain
      have numbered := (attaches.recordsAll.grows sound).2
      have keepsOwn (dotless : dotless) := attaches.keepsLinks sound ordered.keyed (plain dotless)
      have growth := growing.rejoined
      have keeps : listing.chart.KeepsLinks (listing.chart.rejoin ending.chart) :=
        .rejoin growing.between growing.listed.sound
      have conditional := growing.attaching filtered grouped
      rw [← chart_of_ends ends] at growth keeps conditional
      have later := growing.listed.trans growth
      have keepsLater (dotless : dotless) := (keepsLists dotless).trans keeps
      have lists : ∀ list ∈ selected.listed, Attaching dotless planned.chart after.chart list :=
        fun list member => (listed list member).mono (.refl recorded.sound) growth fun _ => keeps
      refine ⟨fun dotless => (keepsOwn dotless).trans (keepsLater dotless), .intro ?_ ?_, ?_,
        .intro ?_ ?_⟩
      · exact numbered.numbers recorded.views
      · rw [Statement.nested_eq_append]
        refine List.forall_mem_append.2 ⟨fun list member => ?_, fun query member => ?_⟩
        · exact (lists list member).numbers.mono fun _ numbers => numbers.mono recorded.views
        · exact (conditional query member).1.mono fun _ numbers =>
            numbers.mono growing.toListing.views
      · intro inner spans object member long id found
        cases spans with
        | self =>
            exact (attaches.attached sound ordered.keyed plain member long found).mono later keepsLater
        | listed given spans =>
            exact (lists _ given).known inner spans object member long id
              (recorded.views.keeps _ _ found)
      · intro object reads parent member long same
        cases reads with
        | own tail =>
            obtain ⟨id, numbered, attached⟩ :=
              attaches.attached_of_ordered sound ordered plain tail member long same
            exact ⟨id, numbered, attached.mono later keepsLater⟩
        | listed given spans own =>
            obtain ⟨id, numbered, found⟩ := numbered parent member
            rw [ordered.keyed parent member, Path.key_eq_of_same same] at found
            exact ⟨id, numbered, (lists _ given).known _ spans object own long id found⟩
      · rw [Statement.nested_eq_append]
        exact List.forall_mem_append.2 ⟨fun list member => (lists list member).linked,
          fun query member => (conditional query member).2⟩

theorem parents_of_compiled {site : Site} {statement result : Statement Query}
    {before after : Session} {around : Option (Statement Query)}
    (given : statement.Parsed ∧ (dotless → statement.Undotted))
    (compiled : Compiled (parents dotless) site statement before result around after) :
    parents dotless site statement before result around after where
  places plain :=
    places_of_compiled ⟨given.1, given.2 plain⟩ (compiled.mono fun own => own.places plain)
  charted := charts_of_compiled (compiled.mono Parents.charted)
  attaching := attaching_of_compiled given compiled

end Query

namespace CompilerOptions

variable {options : CompilerOptions} {source : String} {date : Instant} {elapsedTime : Nat}
  {query : Query}

/-- Names are known to hold no dots where the whole text is. -/
theorem throughout_parsed {parsed : Query} (parses : options.parse source = .ok parsed) :
    parsed.Throughout fun statement => statement.Parsed ∧
      ((∀ parsed, options.parse source = .ok parsed →
        ∀ path ∈ parsed.paths, ∀ segment ∈ path, Undotted segment) → statement.Undotted) := by
  have read := parsed_of_parse parses
  refine Query.throughout_iff.2 fun inner reaches => ?_
  refine ⟨Query.throughout_iff.1 read inner reaches, fun undotted => ?_⟩
  exact (Query.throughout_iff.1 (read.undotted (undotted parsed parses)) inner reaches).2

/--
An object whose parent is one of the same query, where it is not the first, or
one of a query around its list of related rows, is linked to the number of the
parent. Where no name holds a dot, the node of the object has the same link.
-/
theorem parentViewId_of_compile
    (compiled : options.compile source date elapsedTime = .ok query) :
    ∃ metadata, query.body.metadata = some metadata ∧
      ∀ outer, query.Reaches outer → ∀ object, outer.body.ReadsLater object →
        ∀ parent ∈ outer.body.objects, 1 < object.path.length →
          parent.path.same object.path.parent = true →
            ∃ parentId, parent.viewId = some parentId ∧ object.parentViewId = some parentId ∧
              ((∀ parsed, options.parse source = .ok parsed →
                  ∀ path ∈ parsed.paths, ∀ segment ∈ path, Undotted segment) →
                ∃ id node, object.viewId = some id ∧ metadata.viewGraph.find? id = some node ∧
                  node.parentViewId = some parentId) := by
  obtain ⟨parsed, around, after, body, _, parents, rfl⟩ := outcome_of_compile
    (fun _ given => given.1) Query.parents_of_compiled (fun _ => throughout_parsed) compiled
  obtain ⟨_, attaching⟩ := parents.attaching (fun _ => Site.sound_alone (by decide))
    (Session.sound_chart _)
  refine ⟨_, rfl, fun outer reaches object reads parent member long same => ?_⟩
  have linked (metadata : Option Metadata) :
      Query.Throughout (Statement.Linked _ after.chart) ⟨{ body with metadata }⟩ :=
    attaching.linked.withMetadata fun own object reads => own object reads.of_metadata
  obtain ⟨id, numbered, attached⟩ :=
    Query.throughout_iff.1 (linked _) outer reaches object reads parent member long same
  refine ⟨id, numbered, attached.parent, fun undotted => ?_⟩
  obtain ⟨own, node, given, recorded, linked⟩ := (attached.settles undotted).exists_node
  exact ⟨own, node, given, recorded, linked.trans attached.parent⟩

/-- A list of tasks beside accounts, both of contacts. -/
def listedTasks : String :=
  "SELECT Id, (SELECT Id FROM Contact.Tasks) FROM Contact, Contact.Account"

theorem undotted_listedTasks :
    ∀ parsed, parse {} listedTasks = .ok parsed →
      ∀ path ∈ parsed.paths, ∀ segment ∈ path, Undotted segment :=
  undotted_of_parse (by decide +kernel)

/-- The parent is an object with the number, and the path of the object goes on from it. -/
def IsParent (id : Nat) (parent object : SourceObject Query) : Bool :=
  parent.viewId == some id && parent.path.same object.path.parent && 1 < object.path.length

theorem compile_listedTasks :
    ∃ query, compile {} listedTasks = .ok query ∧ ∃ parent ∈ query.body.objects,
      (∃ object ∈ query.body.objects.tail, IsParent 1 parent object = true) ∧
        ∃ list ∈ query.body.listed, ∃ object ∈ list.body.objects,
          IsParent 1 parent object = true := by
  have run : compilesTo {} listedTasks (fun query => query.body.objects.any fun parent =>
      query.body.objects.tail.any (IsParent 1 parent) &&
        query.body.listed.any (·.body.objects.any (IsParent 1 parent))) = true := by
    decide +kernel
  obtain ⟨query, compiled, holds⟩ := exists_of_compilesTo run
  simp only [List.any_eq_true, Bool.and_eq_true] at holds
  exact ⟨query, compiled, holds⟩

theorem parentViewId_of_listedTasks :
    ∃ query metadata, compile {} listedTasks = .ok query ∧ query.body.metadata = some metadata ∧
      (∃ object ∈ query.body.objects.tail, object.parentViewId = some 1 ∧
        ∃ id node, object.viewId = some id ∧ metadata.viewGraph.find? id = some node ∧
          node.parentViewId = some 1) ∧
      ∃ list ∈ query.body.listed, ∃ object ∈ list.body.objects, object.parentViewId = some 1 ∧
        ∃ id node, object.viewId = some id ∧ metadata.viewGraph.find? id = some node ∧
          node.parentViewId = some 1 := by
  obtain ⟨query, compiled, parent, member, ⟨object, tail, own⟩, list, listed, other, given, far⟩ :=
    compile_listedTasks
  obtain ⟨metadata, present, linked⟩ := parentViewId_of_compile compiled
  have links {object : SourceObject Query} (reads : query.body.ReadsLater object)
      (isParent : IsParent 1 parent object = true) : object.parentViewId = some 1 ∧
        ∃ id node, object.viewId = some id ∧ metadata.viewGraph.find? id = some node ∧
          node.parentViewId = some 1 := by
    simp only [IsParent, Bool.and_eq_true, beq_iff_eq, decide_eq_true_eq] at isParent
    obtain ⟨⟨numbered, same⟩, long⟩ := isParent
    obtain ⟨id, alsoNumbered, linked, recorded⟩ :=
      linked query (.self query) object reads parent member long same
    cases numbered.symm.trans alsoNumbered
    exact ⟨linked, recorded undotted_listedTasks⟩
  exact ⟨query, metadata, compiled, present, ⟨object, tail, links (.own tail) own⟩,
    list, listed, other, given, links (.listed listed (.self list) given) far⟩

/-- A list from an object whose parent is registered after it, on the way to it. -/
def distantList : String :=
  "SELECT (SELECT Id FROM Contact.a.b) FROM Contact"

/-- The first object of a list is not linked to its parent if this is one of the same list only. -/
theorem unlinked_of_distantList :
    ∃ query metadata list object parent, compile {} distantList = .ok query ∧
      query.body.metadata = some metadata ∧ query.Reaches list ∧ object ∈ list.body.objects ∧
      parent ∈ list.body.objects ∧ 1 < object.path.length ∧
      parent.path.same object.path.parent = true ∧ object.parentViewId ≠ parent.viewId ∧
      ∀ id node, object.viewId = some id → metadata.viewGraph.find? id = some node →
        node.parentViewId ≠ parent.viewId := by
  have run : compilesTo {} distantList (fun query => query.body.metadata.any fun metadata =>
      query.body.nested.any fun list => list.body.objects.any fun object =>
        list.body.objects.any fun parent => 1 < object.path.length &&
          parent.path.same object.path.parent && object.parentViewId != parent.viewId &&
          (object.viewId.bind metadata.viewGraph.find?).all
            (·.parentViewId != parent.viewId)) = true := by
    decide +kernel
  obtain ⟨query, compiled, holds⟩ := exists_of_compilesTo run
  obtain ⟨metadata, present, holds⟩ := (Option.any_eq_true _ _).1 holds
  simp only [List.any_eq_true, Bool.and_eq_true, decide_eq_true_eq, bne_iff_ne] at holds
  obtain ⟨list, nested, object, member, parent, given, ⟨⟨long, same⟩, unlinked⟩, recorded⟩ := holds
  refine ⟨query, metadata, list, object, parent, compiled, present,
    .nested nested (.self list), member, given, long, same, unlinked, fun id node numbered found => ?_⟩
  rw [numbered] at recorded
  simpa [found] using recorded

end CompilerOptions

end ObjectQuery
