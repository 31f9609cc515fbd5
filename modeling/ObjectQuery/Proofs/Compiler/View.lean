import ObjectQuery.Proofs.Compiler.Column
import ObjectQuery.Proofs.Numbering.View
import ObjectQuery.Proofs.Plan.Mark

namespace ObjectQuery

/-!
The numbers of objects in a compiled query, and the graph of objects. Within a
query and the lists of related rows in it, objects share a number if they share
their keys.
-/

namespace SourceObject

theorem map_unplanned_shareAll (statement : Statement Query)
    (tree : Option (ConditionTree (Field Query))) (objects : List (SourceObject Query)) :
    (shareAll statement tree objects).map unplanned = objects.map unplanned := by
  cases objects with
  | nil => rfl
  | cons primary rest =>
      simp only [shareAll, List.map_cons, List.map_map]
      rfl

end SourceObject

namespace Correlation

theorem Fetches.map_unplanned {objectKey : String} {column fetched : Field Query}
    {objects fetching : List (SourceObject Query)}
    (fetches : Fetches objectKey column objects fetching fetched) :
    fetching.map SourceObject.unplanned = objects.map SourceObject.unplanned := by
  induction fetches with
  | here rest key planned => rfl
  | later fetches induction => rw [List.map_cons, List.map_cons, induction]

end Correlation

namespace Statement

variable {site : Site} {statement : Statement Query}

theorem Grown.map_unplanned {reads : Path → String → Prop} {before after : Statement Query}
    (grown : Grown reads before after) :
    after.objects.map SourceObject.unplanned = before.objects.map SourceObject.unplanned := by
  induction grown with
  | refl => rfl
  | fetch _ _ _ fetches induction => exact fetches.map_unplanned.trans induction

/-- Planning adds to objects what belongs to their queries, and numbers none. -/
theorem PlanCourse.map_unplanned {parent : Option (Statement Query)} {before : Session}
    (course : PlanCourse statement parent before) :
    course.planned.objects.map SourceObject.unplanned =
      statement.objects.map SourceObject.unplanned := by
  rw [planned, SourceObject.map_unplanned_shareAll, course.objects_indexed, List.map_map]
  rfl

theorem compileOwn_attaches (before : Session) :
    Step.Meets (statement.compileOwn site.place site.depth site.inherited site.parent) before
      fun result after => before.chart.AttachesAll result.1.objects after.chart := by
  refine .of_runs fun result after run => ?_
  obtain ⟨course, rfl, rfl⟩ := (compileOwn_course before).of_ok run
  have attaches := (assignIds_attaches site.depth course.selected course.resolved _).of_ok
    course.numbers
  exact attaches.of_unplanned course.plan.map_unplanned

/-- Each query in a condition has numbers of its own for its objects and those in its lists. -/
def ViewedApart (statement : Statement Query) : Prop :=
  ∀ head ∈ statement.conditional, ∃ ledger : Ledger, ledger.Sound ∧
    ∀ inner, head.Spans inner → ledger.Lists inner.body.objects

/-- The objects have numbers below the next one. -/
def ViewsBelow (next : Nat) (statement : Statement Query) : Prop :=
  ∀ object ∈ statement.objects, ∃ id, object.viewId = some id ∧ 1 ≤ id ∧ id < next

theorem ViewsBelow.mono {next later : Nat} {statement : Statement Query}
    (below : ViewsBelow next statement) (least : next ≤ later) : ViewsBelow later statement := by
  intro object member
  obtain ⟨id, numbered, positive, bound⟩ := below object member
  exact ⟨id, numbered, positive, Nat.lt_of_lt_of_le bound least⟩

theorem viewsBelow_of_lists {ledger : Ledger} (sound : ledger.Sound) {statement : Statement Query}
    (lists : ledger.Lists statement.objects) : ViewsBelow ledger.next statement := by
  intro object member
  obtain ⟨id, numbered, found⟩ := lists object member
  exact ⟨id, numbered, sound.given _ _ found⟩

end Statement

namespace Query

open Statement (ViewedApart ViewsBelow)

/-- What a compiled query and those nested in it have of the numbers of objects. -/
structure Viewed (next : Nat) (query : Query) : Prop where
  apart : query.Throughout ViewedApart
  below : query.Throughout (ViewsBelow next)

theorem Viewed.mono {next later : Nat} {query : Query} (viewed : Viewed next query)
    (least : next ≤ later) : Viewed later query where
  apart := viewed.apart
  below := throughout_iff.2 fun inner reaches =>
    (throughout_iff.1 viewed.below inner reaches).mono least

/-- The objects of the query and of its lists have the numbers of their keys. -/
structure Charted (chart : Chart) (query : Query) : Prop where
  viewed : query.Viewed chart.views.next
  spans : ∀ inner, query.Spans inner → chart.views.Lists inner.body.objects

theorem Charted.mono {before after : Chart} {query : Query} (charted : Charted before query)
    (grows : before.Grows after) : Charted after query where
  viewed := charted.viewed.mono grows.views.next
  spans inner spans := (charted.spans inner spans).mono grows.views

/-- What is recorded of a query as a whole does not matter to the numbers of objects. -/
theorem Charted.withMetadata {chart : Chart} {statement : Statement Query} {metadata : Option Metadata}
    (charted : Charted chart ⟨statement⟩) : Charted chart ⟨{ statement with metadata }⟩ where
  viewed := ⟨charted.viewed.apart.withMetadata fun own => own,
    charted.viewed.below.withMetadata fun own => own⟩
  spans inner spans := by
    cases spans with
    | self => exact charted.spans ⟨statement⟩ (.self _)
    | listed list spans => exact charted.spans inner (.listed list spans)

def charts : Outcome := fun _ _ before result _ after =>
  before.chart.Sound → before.chart.Grows after.chart ∧ Charted after.chart ⟨result⟩

theorem Lists.charted {depth done : Nat} {aliases : AliasMap} {own statement : Statement Query}
    {start state : Session} (sound : start.chart.Sound)
    (lists : Lists charts depth aliases own start done statement state) :
    start.chart.Grows state.chart ∧
      statement.objects.map SourceObject.unplanned = own.objects.map SourceObject.unplanned ∧
      ∀ list ∈ listedBefore statement done, Charted state.chart list := by
  induction lists with
  | start => exact ⟨.refl sound, rfl, by simp [listedBefore]⟩
  | skip lists plain induction => rwa [listedBefore_skip plain]
  | @nested done statement grown body state after query lists found grows compiled induction =>
      obtain ⟨growing, same, listed⟩ := induction
      obtain ⟨growth, charted⟩ := compiled growing.sound
      rw [listedBefore_replaceNested grows found]
      refine ⟨growing.trans growth, grows.map_unplanned.trans same, ?_⟩
      exact List.forall_mem_append.2
        ⟨fun list member => (listed list member).mono growth, by simpa using charted⟩

/-- What is known of the queries in conditions: each has numbers of its own for keys. -/
structure Operated (next : Nat) (query : Query) : Prop where
  viewed : query.Viewed next
  ledger : ∃ ledger : Ledger, ledger.Sound ∧
    ∀ inner, query.Spans inner → ledger.Lists inner.body.objects

theorem Operated.mono {next later : Nat} {query : Query} (operated : Operated next query)
    (least : next ≤ later) : Operated later query :=
  ⟨operated.viewed.mono least, operated.ledger⟩

theorem Operands.charted {depth : Nat} {around : Statement Query}
    {conditions results : List (Condition (Field Query))} {before after : Session}
    (operands : Operands charts depth around conditions before results after)
    (sound : before.chart.Sound) :
    before.chart.Grows after.chart ∧
      ∀ query ∈ results.filterMap Condition.query?, Operated after.chart.views.next query := by
  induction operands with
  | nil => exact ⟨.refl sound, by simp⟩
  | plain plain later induction =>
      rw [List.filterMap_cons_none plain]
      exact induction sound
  | @nested field query body parent rest results before middle after kind compiled later induction =>
      obtain ⟨growth, charted⟩ := compiled sound
      obtain ⟨growing, operated⟩ := induction growth.sound
      refine ⟨growth.trans growing, List.forall_mem_cons.2 ⟨⟨?_, ?_⟩, operated⟩⟩
      · exact charted.viewed.mono growing.views.next
      · exact ⟨_, growth.sound.views, charted.spans⟩

theorem chart_of_ends {ending listing after : Session}
    (ends : after = { ending with registry := listing.registry }) :
    after.chart = listing.chart.rejoin ending.chart := by
  rw [ends]
  rfl

/-- The charts on the way through a query that compiles, each grown from the one before. -/
structure Growing (before planned listing filtering ending : Chart) (offset : Nat) : Prop where
  recorded : before.Grows planned
  listed : planned.Grows listing
  filtered : (listing.apart offset).Grows filtering
  grouped : filtering.Grows ending

namespace Growing

variable {before planned listing filtering ending : Chart} {offset : Nat}

theorem between (growing : Growing before planned listing filtering ending offset) :
    (listing.apart offset).Grows ending :=
  growing.filtered.trans growing.grouped

theorem rejoined (growing : Growing before planned listing filtering ending offset) :
    listing.Grows (listing.rejoin ending) :=
  growing.between.rejoin growing.listed.sound

theorem toListing (growing : Growing before planned listing filtering ending offset) :
    before.Grows listing :=
  growing.recorded.trans growing.listed

end Growing

/-- Queries in conditions start without numbers for keys, and those from before are back then. -/
theorem growing_of_steps {site : Site} {statement own selected : Statement Query}
    {around : Option (Statement Query)} {aliases : AliasMap}
    {filter having : List (Condition (Field Query))}
    {before planned listing filtering ending : Session} (sound : before.chart.Sound)
    (ran : statement.compileOwn site.place site.depth site.inherited site.parent before =
      .ok (own, around, aliases) planned)
    (lists : Lists charts site.depth aliases own planned own.fields.length selected listing)
    (filtered : Operands charts site.depth selected selected.filter
      (conditionSession selected listing) filter filtering)
    (grouped : Operands charts site.depth selected selected.having filtering having ending) :
    Growing before.chart planned.chart listing.chart filtering.chart ending.chart
      selected.primaryLength := by
  have recorded := ((Statement.compileOwn_attaches before |>.of_ok ran).recordsAll.grows sound).1
  have listed := (lists.charted recorded.sound).1
  have first := (filtered.charted (listed.sound.apart selected.primaryLength)).1
  exact ⟨recorded, listed, first, (grouped.charted first.sound).1⟩

theorem charts_of_compiled {site : Site} {statement result : Statement Query}
    {before after : Session} {around : Option (Statement Query)}
    (compiled : Compiled charts site statement before result around after) :
    charts site statement before result around after := by
  intro sound
  cases compiled with
  | @intro own selected _ _ filter having planned listing starting filtering ending after compiled
      lists begins filtered grouped ends ran =>
      subst begins
      have growing := growing_of_steps sound ran lists filtered grouped
      have own := ((Statement.compileOwn_attaches before |>.of_ok ran).recordsAll.grows sound).2
      obtain ⟨_, same, listed⟩ := lists.charted growing.recorded.sound
      rw [lists.listed] at listed
      obtain ⟨_, filters⟩ := filtered.charted (growing.listed.sound.apart selected.primaryLength)
      obtain ⟨_, havings⟩ := grouped.charted growing.filtered.sound
      have growth := growing.rejoined
      rw [← chart_of_ends ends] at growth
      have next : after.chart.views.next = ending.chart.views.next := by rw [chart_of_ends ends]; rfl
      have operated := List.forall_mem_append.2
        ⟨fun query member => (filters query member).mono growing.grouped.views.next, havings⟩
      rw [← next] at operated
      have lists : after.chart.views.Lists selected.objects :=
        ((own.mono growing.listed.views).of_unplanned same).mono growth.views
      have nested : ∀ query ∈ selected.listed ++ (filter.filterMap Condition.query? ++
          having.filterMap Condition.query?), Viewed after.chart.views.next query :=
        List.forall_mem_append.2 ⟨fun list member => ((listed list member).mono growth).viewed,
          fun query member => (operated query member).viewed⟩
      refine ⟨growing.toListing.trans growth, ⟨.intro ?_ ?_, .intro ?_ ?_⟩, ?_⟩
      · exact fun query member => (operated query member).ledger
      · rw [Statement.nested_eq_append]
        exact fun query member => (nested query member).apart
      · exact Statement.viewsBelow_of_lists growth.sound.views lists
      · rw [Statement.nested_eq_append]
        exact fun query member => (nested query member).below
      · intro inner spans
        cases spans with
        | self => exact lists
        | listed member spans => exact ((listed _ member).mono growth).spans inner spans

end Query

end ObjectQuery
