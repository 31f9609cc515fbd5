import ObjectQuery.Proofs.Compiler.Column

namespace ObjectQuery

/-!
Lists of related rows that read columns of the queries around them. Such a list
is known to do so, and each of the columns has the place of the last query before
the list that returns it, of those that share the places of columns with the list.
-/

namespace Statement

/--
The statement reads a column of none of its own objects, and the path of the
column is not longer than that of the first of them.
-/
structure ReadsAround (statement : Statement Query) (column : Field Query) (path : Path) :
    Prop where
  member : column ∈ statement.columns
  kind : column.kind = .column path
  outer : ∀ object ∈ statement.objects, object.path.same path.parent = false
  short : path.length ≤ statement.primaryLength

/-- The statement is known to read columns of objects around it, and their places are given. -/
def Fed (gives : Offer) (statement : Statement Query) : Prop :=
  ∀ column path, statement.ReadsAround column path → statement.isCorrelated = true ∧
    ∃ index, column.columnIndex = some index ∧ gives column.key index

theorem Fed.mono {gives weaker : Offer} {statement : Statement Query} (fed : statement.Fed gives)
    (weaken : ∀ key index, gives key index → weaker key index) : statement.Fed weaker := by
  intro column path reads
  obtain ⟨correlated, index, place, given⟩ := fed column path reads
  exact ⟨correlated, index, place, weaken _ _ given⟩

/-- Columns of objects around a statement get places from before, or are fetched. -/
theorem Planned.fed {reads : Path → String → Prop} {known : Path → Prop}
    {statement planned : Statement Query} {indexes : SortedMap String Nat}
    {parent : Option (Statement Query)} {finish : Correlation}
    (plan : statement.Planned reads planned
      { indexes := statement.ownIndexes indexes, parent } finish)
    (located : statement.Located known) :
    planned.Fed (Brought indexes (offered finish.parent)) := by
  have own := located.of_alike plan.alike
  rintro column path ⟨member, kind, outer, short⟩
  have keyed := (own.columns column member path kind).keyed
  obtain ⟨field, selected, isColumn, key⟩ := own.selected column member
  obtain ⟨other, fieldKind⟩ := Field.exists_eq_column isColumn
  have found := own.fields field selected other (congrArg FieldKind.path? fieldKind)
  -- The field under the key of the column names the same path, so it is looked for around as well.
  have same : other.same path = true :=
    found.plain.same_of_key_eq keyed.plain (found.key.symm.trans (key.trans keyed.key))
  have length : other.length = path.length := by
    simpa using congrArg List.length ((Path.same_iff _ _).1 same)
  have reads : field ∈ Field.allColumns planned.fields := by
    refine Field.mem_allColumns.2 ⟨field, selected, ?_⟩
    rw [Field.columns_of_isColumn isColumn]
    exact List.mem_singleton_self field
  obtain ⟨correlated, index, place, found⟩ := plan.correlates column member field reads key path
    other kind fieldKind short (length ▸ short)
  refine ⟨correlated, index, place, ?_⟩
  rcases plan.enters.places column.key index found with returned | ⟨_, brought⟩
  · obtain ⟨object, member, same, _⟩ := (plan.supplied located).exists_object keyed returned
    exact absurd same (by simp [outer object member])
  · exact brought

end Statement

namespace Query

/--
The key is returned by none of the queries, nor by lists in them, of those with
numbers from the least on and below the bound.
-/
def Unreturned (owners : List Query) (least bound : Nat) (key : String) : Prop :=
  ∀ owner ∈ owners, ∀ inner, owner.Spans inner → least ≤ inner.body.id → inner.body.id < bound →
    ∀ index, ¬inner.body.Returns index key

namespace Unreturned

variable {owners more : List Query} {least middle bound : Nat} {key : String}

theorem append (first : Unreturned owners least bound key)
    (second : Unreturned more least bound key) : Unreturned (owners ++ more) least bound key :=
  List.forall_mem_append.2 ⟨first, second⟩

theorem join (lower : Unreturned owners least middle key)
    (upper : Unreturned owners middle bound key) : Unreturned owners least bound key := by
  intro owner member inner spans above below
  rcases Nat.lt_or_ge inner.body.id middle with before | after
  · exact lower owner member inner spans above before
  · exact upper owner member inner spans after below

theorem later (whole : Unreturned owners least bound key) (le : least ≤ middle) :
    Unreturned owners middle bound key :=
  fun owner member inner spans above => whole owner member inner spans (Nat.le_trans le above)

/-- A statement with the lists in it is a query. -/
theorem enclose {statement : Statement Query}
    (own : least ≤ statement.id → statement.id < bound → ∀ index, ¬statement.Returns index key)
    (listed : Unreturned statement.listed least bound key) :
    Unreturned [⟨statement⟩] least bound key := by
  intro owner member inner spans above below
  cases List.mem_singleton.1 member
  cases spans with
  | self => exact own above below
  | listed member spans => exact listed _ member inner spans above below

end Unreturned

/--
The place of a key is that of the last of the queries, and of the lists in them,
with a number below the bound that returns it. Where none of them does, it is a
place from before or around.
-/
inductive Gives (before : SortedMap String Nat) (around : Offer) (owners : List Query)
    (bound : Nat) (key : String) (index : Nat) : Prop where
  | brought (place : Brought before around key index) (alone : Unreturned owners 0 bound key)
  | owner {owner inner : Query} (member : owner ∈ owners) (spans : owner.Spans inner)
      (number : inner.body.id < bound) (returned : inner.body.Returns index key)
      (last : Unreturned owners (inner.body.id + 1) bound key)

namespace Gives

variable {before : SortedMap String Nat} {start around : Offer} {owners more : List Query}
  {bound higher : Nat} {key : String} {index : Nat}

theorem raise (gives : Gives before around owners bound key index) (le : bound ≤ higher)
    (upper : Unreturned owners bound higher key) :
    Gives before around owners higher key index := by
  cases gives with
  | brought place alone => exact .brought place (alone.join upper)
  | owner member spans number returned last =>
      exact .owner member spans (Nat.lt_of_lt_of_le number le) returned (last.join upper)

theorem widen (gives : Gives before start owners bound key index)
    (grows : ∀ key index, start key index → around key index)
    (others : Unreturned more 0 bound key) :
    Gives before around (owners ++ more) bound key index := by
  cases gives with
  | brought place alone =>
      exact .brought (place.imp_right (And.imp_right (grows key index))) (alone.append others)
  | owner member spans number returned last =>
      exact .owner (List.mem_append_left _ member) spans number returned
        (last.append (others.later (Nat.zero_le _)))

theorem exists_last (gives : Gives .empty (fun _ _ => False) owners bound key index) :
    ∃ owner ∈ owners, ∃ inner, owner.Spans inner ∧ inner.body.id < bound ∧
      inner.body.Returns index key ∧ Unreturned owners (inner.body.id + 1) bound key := by
  cases gives with
  | brought place =>
      rcases place with ⟨⟨⟩⟩ | ⟨_, impossible⟩
      exact impossible.elim
  | owner member spans number returned last =>
      exact ⟨_, member, _, spans, number, returned, last⟩

end Gives

/-- Lists in the queries get their places from these queries, or from before and around. -/
def AllFed (before : SortedMap String Nat) (around : Offer) (owners lists : List Query) : Prop :=
  ∀ list ∈ lists, ∀ inner, list.Spans inner →
    inner.body.Fed (Gives before around owners inner.body.id)

end Query

namespace Statement

/-- The lists in the queries that stand in conditions of a statement get their places there. -/
def FedInside (statement : Statement Query) : Prop :=
  Query.AllFed .empty (fun _ _ => False) statement.conditional
    (statement.conditional.flatMap (·.body.listed))

end Statement

namespace Site

variable {site : Site}

/-- What a list may fetch from the query around it. -/
def offer (site : Site) (around : Option (Statement Query)) : Offer :=
  Statement.offered (if site.place = .select then around else none)

theorem offer_list (depth : Nat) (aliases : AliasMap) (parent : Option (Statement Query))
    (around : Statement Query) :
    (⟨.select, depth, aliases, parent⟩ : Site).offer (some around) = around.offer := by
  funext key index
  simp [offer, Statement.offered, Statement.offer]

theorem offer_alone (alone : site.place ≠ .select) (around : Option (Statement Query)) :
    site.offer around = fun _ _ => False := by
  funext key index
  simp [offer, Statement.offered, alone]

end Site

namespace Statement

variable {site : Site} {statement own result : Statement Query} {aliases : AliasMap}
  {around : Option (Statement Query)} {before after : Session} {column : Field Query} {path : Path}

theorem OwnCompiled.enters
    (compiled : OwnCompiled site statement before own around aliases after)
    (read : statement.Parsed) (undotted : statement.Undotted) (sound : site.Sound) :
    own.Fed (Brought before.registry.columnIndexes (site.offer around)) ∧
      Enters before.registry.columnIndexes after.registry.columnIndexes
        (site.offer site.parent) (site.offer around) own.offer := by
  obtain ⟨_, reads, numbered, finish, _, located, planned, fetched, indexes⟩ :=
    compiled.located read undotted sound
  have offers : offered finish.parent = site.offer around := by
    have grown := planned.grows.parent
    unfold Site.source at grown
    rw [Site.offer, fetched]
    split at grown
    · rw [if_pos ‹_›, if_pos ‹_›]
    · rw [if_neg ‹_›]
      generalize finish.parent = parent at grown ⊢
      cases grown
      rfl
  rw [indexes, ← offers]
  exact ⟨planned.fed located, planned.enters⟩

/-- A statement reads no more columns from around it while columns are fetched from itself. -/
theorem Keeps.readsAround (keeps : own.Keeps result) (supplied : own.Supplied)
    (same : result.objects.map SourceObject.bare = own.objects.map SourceObject.bare)
    (reads : result.ReadsAround column path) : own.ReadsAround column path := by
  refine ⟨?_, reads.kind, ?_, primaryLength_of_bare same ▸ reads.short⟩
  · refine (keeps.columns column reads.member).resolve_right ?_
    rintro ⟨index, _, returned⟩
    have supplied := keeps.supplied supplied
    have keyed := supplied.columns column reads.member path reads.kind
    obtain ⟨object, member, own, _⟩ := supplied.exists_object keyed returned
    exact absurd own (by simp [reads.outer object member])
  · intro object member
    obtain ⟨other, given, alike⟩ := exists_mem_of_map_eq same.symm member
    have path : other.path = object.path := congrArg (fun named => named.path) alike
    exact path ▸ reads.outer other given

end Statement

namespace Query

/--
What is known of queries that are compiled one after the other, of which the
lists among them read columns of queries around.
-/
structure Batch (before after : Session) (start around : Offer) (owners lists : List Query) : Prop
    extends Fetching before.registry.columnIndexes after.registry.columnIndexes start around where
  next : before.nextQueryId ≤ after.nextQueryId
  ids : ∀ owner ∈ owners, ∀ inner, owner.Spans inner →
    before.nextQueryId ≤ inner.body.id ∧ inner.body.id < after.nextQueryId
  within : ∀ list ∈ lists, ∃ owner ∈ owners, owner.Spans list
  returned : ∀ owner ∈ owners, ∀ inner, owner.Spans inner → ∀ index key,
    inner.body.Returns index key → after.registry.columnIndexes.contains key
  places : ∀ key index, after.registry.columnIndexes.find? key = some index →
    Gives before.registry.columnIndexes around owners after.nextQueryId key index
  fed : AllFed before.registry.columnIndexes around owners lists
  inside : ∀ owner ∈ owners, owner.Throughout Statement.FedInside

namespace Batch

variable {before middle after : Session} {start between around : Offer}
  {owners more lists others : List Query}

theorem refl (session : Session) (start : Offer) : Batch session session start start [] [] where
  toFetching := .refl _ start
  next := Nat.le_refl _
  ids := by simp
  within := by simp
  returned := by simp
  places _ _ found := .brought (.inl found) (by simp [Unreturned])
  fed := by simp [AllFed]
  inside := by simp

/-- Numbers in lists are those of the batch. -/
theorem ids_lists (batch : Batch before after start around owners lists) {list inner : Query}
    (member : list ∈ lists) (spans : list.Spans inner) :
    before.nextQueryId ≤ inner.body.id ∧ inner.body.id < after.nextQueryId := by
  obtain ⟨owner, given, outer⟩ := batch.within list member
  exact batch.ids owner given inner (outer.trans spans)

theorem unreturned_before (batch : Batch before after start around owners lists)
    {least bound : Nat} (le : bound ≤ before.nextQueryId) (key : String) :
    Unreturned owners least bound key := by
  intro owner member inner spans _ below
  exact absurd (batch.ids owner member inner spans).1 (Nat.not_le.2 (Nat.lt_of_lt_of_le below le))

theorem unreturned_after (batch : Batch before after start around owners lists)
    {least bound : Nat} (le : after.nextQueryId ≤ least) (key : String) :
    Unreturned owners least bound key := by
  intro owner member inner spans above
  exact absurd (batch.ids owner member inner spans).2 (Nat.not_lt.2 (Nat.le_trans le above))

/-- What is known before the second batch comes from before the first, or from the first. -/
theorem gives_append (first : Batch before middle start between owners lists)
    (second : Batch middle after between around more others) {bound : Nat}
    (le : middle.nextQueryId ≤ bound) {key : String} {index : Nat}
    (gives : Gives middle.registry.columnIndexes around more bound key index) :
    Gives before.registry.columnIndexes around (owners ++ more) bound key index := by
  cases gives with
  | brought place alone =>
      rcases place with found | ⟨absent, found⟩
      · have raised := (first.places key index found).raise le
          (first.unreturned_after (Nat.le_refl _) key)
        exact raised.widen second.grows alone
      · -- A key is fetched only if none of the queries before returns it.
        have none : Unreturned owners 0 bound key :=
          fun owner member inner spans _ _ index returned =>
            absent (first.returned owner member inner spans index key returned)
        exact .brought (.inr ⟨mt (first.known key) absent, found⟩) (none.append alone)
  | owner member spans number returned last =>
      have least := (second.ids _ member _ spans).1
      exact .owner (List.mem_append_right _ member) spans number returned
        ((first.unreturned_after (Nat.le_succ_of_le least) key).append last)

theorem trans (first : Batch before middle start between owners lists)
    (second : Batch middle after between around more others) :
    Batch before after start around (owners ++ more) (lists ++ others) := by
  refine ⟨first.toFetching.trans second.toFetching, Nat.le_trans first.next second.next,
    ?_, ?_, ?_, ?_, ?_, ?_⟩
  · refine List.forall_mem_append.2 ⟨fun owner member inner spans => ?_,
      fun owner member inner spans => ?_⟩
    · obtain ⟨least, below⟩ := first.ids owner member inner spans
      exact ⟨least, Nat.lt_of_lt_of_le below second.next⟩
    · obtain ⟨least, below⟩ := second.ids owner member inner spans
      exact ⟨Nat.le_trans first.next least, below⟩
  · refine List.forall_mem_append.2 ⟨fun list member => ?_, fun list member => ?_⟩
    · obtain ⟨owner, given, spans⟩ := first.within list member
      exact ⟨owner, List.mem_append_left _ given, spans⟩
    · obtain ⟨owner, given, spans⟩ := second.within list member
      exact ⟨owner, List.mem_append_right _ given, spans⟩
  · refine List.forall_mem_append.2 ⟨fun owner member inner spans index key returned => ?_,
      second.returned⟩
    exact second.known key (first.returned owner member inner spans index key returned)
  · exact fun key index found =>
      first.gives_append second second.next (second.places key index found)
  · refine List.forall_mem_append.2 ⟨fun list member inner spans => ?_,
      fun list member inner spans => ?_⟩
    · have below := (first.ids_lists member spans).2
      exact (first.fed list member inner spans).mono fun key _ gives =>
        gives.widen second.grows (second.unreturned_before (Nat.le_of_lt below) key)
    · have above := (second.ids_lists member spans).1
      exact (second.fed list member inner spans).mono fun _ _ gives =>
        first.gives_append second above gives
  · exact List.forall_mem_append.2 ⟨first.inside, second.inside⟩

theorem later (batch : Batch before middle start around owners lists)
    (next : middle.nextQueryId ≤ after.nextQueryId)
    (same : after.registry.columnIndexes = middle.registry.columnIndexes) :
    Batch before after start around owners lists where
  toFetching := same ▸ batch.toFetching
  next := Nat.le_trans batch.next next
  ids owner member inner spans :=
    (batch.ids owner member inner spans).imp_right fun below => Nat.lt_of_lt_of_le below next
  within := batch.within
  returned := same ▸ batch.returned
  places key index found := (batch.places key index (same ▸ found)).raise next
    (batch.unreturned_after (Nat.le_refl _) key)
  fed := batch.fed
  inside := batch.inside

section Enclose

variable {own result : Statement Query} (id : result.id = before.nextQueryId)
  (next : middle.nextQueryId = before.nextQueryId + 1)
  (enters : Enters before.registry.columnIndexes middle.registry.columnIndexes start around
    own.offer)
  (batch : Batch middle after own.offer result.offer result.listed result.listed)

include id next enters batch

/-- What lists find around them is returned by the query, whose number is below theirs. -/
theorem gives_enclose {bound : Nat} (above : result.id < bound) {key : String} {index : Nat}
    (gives : Gives middle.registry.columnIndexes result.offer result.listed bound key index) :
    Gives before.registry.columnIndexes around [⟨result⟩] bound key index := by
  have first (returned : result.Returns index key) (alone : Unreturned result.listed 0 bound key) :
      Gives before.registry.columnIndexes around [⟨result⟩] bound key index :=
    .owner (List.mem_singleton_self _) (.self _) above returned
      (.enclose (fun impossible => absurd impossible (Nat.not_succ_le_self _))
        (alone.later (Nat.zero_le _)))
  cases gives with
  | brought place alone =>
      rcases place with found | ⟨_, returned⟩
      · rcases enters.places key index found with returned | ⟨foreign, place⟩
        · exact first (batch.grows key index returned) alone
        · -- The key has a place before the lists, so that none of them fetches it.
          have none (place : Nat) (returned : result.Returns place key) : False :=
            (batch.added key place returned).elim (foreign place) fun new =>
              new.1 (SortedMap.contains_iff.2 ⟨index, found⟩)
          exact .brought place (.enclose (fun _ _ => none) alone)
      · exact first returned alone
  | owner member spans number returned last =>
      have least := (batch.ids _ member _ spans).1
      exact .owner (List.mem_singleton_self _) (.listed member spans) number returned
        (.enclose (fun impossible => by omega) last)

/-- The lists among the fields of a query are those in the query, which returns what they fetch. -/
theorem enclose (inside : Throughout Statement.FedInside ⟨result⟩) :
    Batch before after start around [⟨result⟩] result.listed := by
  have begins : result.id < middle.nextQueryId := by omega
  have ends := batch.next
  refine ⟨?_, by omega, ?_, ?_, ?_, ?_, ?_, by simpa using inside⟩
  · exact {
      known := fun key given => batch.known key (enters.known key given)
      grows := enters.grows
      added := fun key index offered =>
        (enters.added key index offered).imp_right (And.imp_right (batch.known key)) }
  · intro owner member inner spans
    cases List.mem_singleton.1 member
    cases spans with
    | self => exact ⟨Nat.le_of_eq id.symm, Nat.lt_of_lt_of_le begins ends⟩
    | listed member spans =>
        obtain ⟨least, below⟩ := batch.ids _ member inner spans
        exact ⟨by omega, below⟩
  · intro list member
    exact ⟨_, List.mem_singleton_self _, .listed member (.self list)⟩
  · intro owner member inner spans index key returned
    cases List.mem_singleton.1 member
    cases spans with
    | self =>
        rcases batch.added key index returned with own | ⟨_, found⟩
        · exact batch.known key (enters.returned key index own)
        · exact found
    | listed member spans => exact batch.returned _ member inner spans index key returned
  · exact fun key index found =>
      batch.gives_enclose id next enters (Nat.lt_of_lt_of_le begins ends)
        (batch.places key index found)
  · intro list member inner spans
    have number := (batch.ids list member inner spans).1
    exact (batch.fed list member inner spans).mono fun _ _ given =>
      batch.gives_enclose id next enters (Nat.lt_of_lt_of_le begins number) given

end Enclose

variable {result : Statement Query}

theorem fed_self (batch : Batch before after start around [⟨result⟩] result.listed)
    (id : result.id = before.nextQueryId)
    (fed : result.Fed (Brought before.registry.columnIndexes around)) :
    Batch before after start around [⟨result⟩] [⟨result⟩] :=
  { batch with
    within := fun list member => ⟨list, member, .self list⟩
    fed := by
      intro list member inner spans
      cases List.mem_singleton.1 member
      cases spans with
      | self =>
          exact fed.mono fun key index place =>
            .brought place (batch.unreturned_before (Nat.le_of_eq id) key)
      | listed member spans => exact batch.fed _ member inner spans }

end Batch

/-- A compiled query is a list itself, or has lists among its fields. -/
def feeds : Outcome := fun site _ before result around after =>
  site.Sound → Batch before after (site.offer site.parent) (site.offer around) [⟨result⟩]
    (if site.place = .select then [⟨result⟩] else result.listed)

def correlates : Outcome := fun site statement before result around after =>
  places site statement before result around after ∧
    feeds site statement before result around after

theorem Lists.batch {depth done : Nat} {aliases : AliasMap} {own statement : Statement Query}
    {start state : Session} (lists : Lists correlates depth aliases own start done statement state)
    (inherits : Scope.Inherits (fun _ => True) aliases) (supplied : own.Supplied) :
    Batch start state own.offer statement.offer (listedBefore statement done)
      (listedBefore statement done) := by
  induction lists with
  | start => exact .refl _ _
  | skip lists plain induction => rwa [listedBefore_skip plain]
  | @nested done statement grown body state _ _ lists found grows compiled induction =>
      have keeps := ((lists.mono And.left).placed inherits supplied).1
      have sound : Site.Sound ⟨.select, depth + 1, aliases, some statement⟩ :=
        Site.sound_list inherits (keeps.supplied supplied)
      have last := compiled.2 sound
      rw [Site.offer_list, Site.offer_list] at last
      rw [listedBefore_replaceNested grows found]
      exact induction.trans last

theorem Operands.batch {depth : Nat} {around : Statement Query}
    {conditions results : List (Condition (Field Query))} {before after : Session}
    (operands : Operands correlates depth around conditions before results after) :
    Batch before after (fun _ _ => False) (fun _ _ => False) (results.filterMap Condition.query?)
      ((results.filterMap Condition.query?).flatMap (·.body.listed)) := by
  induction operands with
  | nil => exact .refl _ _
  | plain plain later induction => rwa [List.filterMap_cons_none plain]
  | @nested field query body parent rest results state middle after kind compiled later induction =>
      have alone : QueryPlace.conditional ≠ .select := by decide
      have first := compiled.2 (Site.sound_alone alone)
      rw [Site.offer_alone alone, Site.offer_alone alone, if_neg alone] at first
      exact first.trans induction

theorem feeds_of_compiled {site : Site} {statement result : Statement Query}
    {before after : Session} {around : Option (Statement Query)}
    (given : statement.Parsed ∧ statement.Undotted)
    (compiled : Compiled correlates site statement before result around after) :
    feeds site statement before result around after := by
  intro sound
  obtain ⟨read, undotted⟩ := given
  cases compiled with
  | @intro own selected _ _ filter having planned listing starting filtering ending after compiled
      lists begins filtered grouped ends =>
      have supplied := compiled.supplied read undotted sound
      have inherits := (compiled.located read undotted sound).1
      obtain ⟨ownFed, enters⟩ := compiled.enters read undotted sound
      have keeps := ((lists.mono And.left).placed inherits supplied).1.trans
        (keeps_conditions filtered grouped)
      have selecting := lists.selecting
      have id : selected.id = before.nextQueryId := selecting.id.trans compiled.id
      have batch := lists.batch inherits supplied
      rw [lists.listed] at batch
      -- Queries in conditions begin without places, so that they get them from each other.
      have heads := filtered.batch.trans grouped.batch
      have inside : Throughout Statement.FedInside ⟨{ selected with filter, having }⟩ := by
        refine .intro ?_ ?_
        · have fed := heads.fed
          rwa [begins, ← List.flatMap_append] at fed
        · rw [Statement.nested_eq_append]
          exact List.forall_mem_append.2 ⟨batch.inside, heads.inside⟩
      have enclosed : Batch before listing (site.offer site.parent) (site.offer around)
          [⟨{ selected with filter, having }⟩] selected.listed :=
        .enclose id (congrArg Tally.nextQueryId compiled.tally) enters batch inside
      have next : listing.nextQueryId ≤ after.nextQueryId := by
        have started : starting.nextQueryId = listing.nextQueryId :=
          congrArg (·.nextQueryId) begins
        have ended : after.nextQueryId = ending.nextQueryId := congrArg (·.nextQueryId) ends
        rw [← started, ended]
        exact heads.next
      have whole := enclosed.later next (congrArg (·.registry.columnIndexes) ends)
      split
      · refine whole.fed_self id fun column path reads => ?_
        obtain ⟨correlated, given⟩ :=
          ownFed column path (keeps.readsAround supplied selecting.objects reads)
        exact ⟨(congrArg Statement.isCorrelated selecting.frame).trans correlated, given⟩
      · exact whole

theorem correlates_of_compiled {site : Site} {statement result : Statement Query}
    {before after : Session} {around : Option (Statement Query)}
    (given : statement.Parsed ∧ statement.Undotted)
    (compiled : Compiled correlates site statement before result around after) :
    correlates site statement before result around after :=
  ⟨places_of_compiled given (compiled.mono And.left), feeds_of_compiled given compiled⟩

/--
Of the queries that share the places of columns with a list, the last one before
the list that returns the key is not around the list.
-/
structure Overtakes (heads : List Query) (other inner : Query) (key : String) : Prop where
  shares : ∃ head ∈ heads, head.Spans inner
  member : ∃ head ∈ heads, head.Spans other
  beside : ¬other.Encloses inner
  number : other.body.id < inner.body.id
  returns : ∃ index, other.body.Returns index key
  last : Unreturned heads (other.body.id + 1) inner.body.id key

/-- Some query that is not around the list is the last one before it that returns the key. -/
def Overtaken (query inner : Query) (key : String) : Prop :=
  ∃ heads, query.Together heads ∧ ∃ other, Overtakes heads other inner key

/-- A query around the list returns the column of the object with its path, under its key. -/
def FetchesFor (query inner : Query) (path : Path) (key : String) (index : Nat) : Prop :=
  ∃ owner, query.Reaches owner ∧ owner.Encloses inner ∧
    ∃ object ∈ owner.body.objects, object.path.same path.parent = true ∧ object.Returns index key

/-- Lists anywhere in a query get places from queries around them, if they are not overtaken. -/
theorem fed_of_inside {query outer inner : Query}
    (fed : AllFed .empty (fun _ _ => False) [query] query.body.listed)
    (inside : query.Throughout Statement.FedInside) (reaches : query.Reaches outer)
    (listed : inner ∈ outer.body.listed) :
    inner.body.Fed fun key index => ∃ owner, query.Reaches owner ∧
      owner.body.Returns index key ∧ (owner.Encloses inner ∨ query.Overtaken inner key) := by
  obtain ⟨heads, together, head, given, spans⟩ := reaches.exists_together
  obtain ⟨list, member, within⟩ := spans.encloses listed
  have fed : inner.body.Fed (Gives .empty (fun _ _ => False) heads inner.body.id) := by
    rcases together with rfl | ⟨around, reached, rfl⟩
    · cases List.mem_singleton.1 given
      exact fed list member inner within
    · exact throughout_iff.1 inside around reached list
        (List.mem_flatMap.2 ⟨head, given, member⟩) inner within
  refine fed.mono fun key index gives => ?_
  obtain ⟨first, own, owner, owns, number, returned, last⟩ := gives.exists_last
  refine ⟨owner, together.reaches own owns, returned, ?_⟩
  by_cases encloses : owner.Encloses inner
  · exact .inl encloses
  · have shares := spans.trans (.listed listed (.self inner))
    exact .inr ⟨heads, together, owner, ⟨head, given, shares⟩, ⟨first, own, owns⟩, encloses,
      number, ⟨index, returned⟩, last⟩

theorem allFed_metadata {statement : Statement Query} {lists : List Query}
    (fed : AllFed .empty (fun _ _ => False) [⟨statement⟩] lists) (metadata : Option Metadata) :
    AllFed .empty (fun _ _ => False) [⟨{ statement with metadata }⟩] lists := by
  intro list member inner spans
  refine (fed list member inner spans).mono fun key index gives => ?_
  obtain ⟨owner, member, own, spans, number, returned, last⟩ := gives.exists_last
  cases List.mem_singleton.1 member
  have alone := last _ (List.mem_singleton_self _)
  have last : Unreturned [⟨{ statement with metadata }⟩] (own.body.id + 1) inner.body.id key :=
    .enclose (fun above below => alone _ (.self _) above below) fun list given other inside =>
      alone other (.listed given inside)
  cases spans with
  | self => exact .owner (List.mem_singleton_self _) (.self _) number returned last
  | listed member spans =>
      exact .owner (List.mem_singleton_self _) (.listed member spans) number returned last

end Query

namespace Statement

/-- The path of a column of none of the own objects. -/
def outerPath? (statement : Statement Query) (column : Field Query) : Option Path :=
  column.kind.path?.filter fun path =>
    statement.objects.all fun object => !object.path.same path.parent

theorem outer_of_outerPath? {statement : Statement Query} {column : Field Query} {path : Path}
    (member : column ∈ statement.columns) (found : statement.outerPath? column = some path) :
    column.kind = .column path ∧
      ∀ object ∈ statement.objects, object.path.same path.parent = false := by
  obtain ⟨path?, outer⟩ := Option.filter_eq_some_iff.1 found
  obtain ⟨other, kind⟩ := Field.exists_eq_column (isColumn_of_mem_columns member)
  rw [kind] at path?
  cases path?
  exact ⟨kind, by simpa using outer⟩

end Statement

namespace Query

/-- Queries are nested in the query, but none in these. -/
def isShallow (query : Query) : Bool :=
  query.body.nested.all (·.body.nested.isEmpty)

theorem eq_or_mem_of_isShallow {query inner : Query} (shallow : query.isShallow = true)
    (reaches : query.Reaches inner) :
    inner = query ∨ inner ∈ query.body.nested ∧ inner.body.nested = [] := by
  cases reaches with
  | self => exact .inl rfl
  | nested member reaches =>
      have none := List.isEmpty_iff.1 (List.all_eq_true.1 shallow _ member)
      cases reaches with
      | self => exact .inr ⟨member, none⟩
      | nested deeper => simp [none] at deeper

theorem Encloses.nested_ne_nil {outer inner : Query} (encloses : outer.Encloses inner) :
    outer.body.nested ≠ [] := by
  obtain ⟨list, member, _⟩ := encloses
  exact List.ne_nil_of_mem (Statement.mem_nested_iff.2 (.inl member))

/-- A list that stands first in the query reads a column of none of its own objects. -/
def readsAround (query : Query) : Bool :=
  query.isShallow && query.body.listed.any fun inner =>
    query.body.nested.all (inner.body.id ≤ ·.body.id) && inner.body.columns.any fun column =>
      (inner.body.outerPath? column).any (·.length ≤ inner.body.primaryLength)

theorem exists_readsAround {query : Query} (reads : query.readsAround = true) :
    query.isShallow = true ∧ ∃ inner column path, inner ∈ query.body.listed ∧
      (∀ other ∈ query.body.nested, inner.body.id ≤ other.body.id) ∧
      inner.body.ReadsAround column path := by
  obtain ⟨shallow, reads⟩ := (Bool.and_eq_true _ _).mp reads
  obtain ⟨inner, listed, reads⟩ := List.any_eq_true.1 reads
  obtain ⟨first, reads⟩ := (Bool.and_eq_true _ _).mp reads
  obtain ⟨column, member, reads⟩ := List.any_eq_true.1 reads
  obtain ⟨path, found, short⟩ := (Option.any_eq_true _ _).1 reads
  obtain ⟨kind, outer⟩ := Statement.outer_of_outerPath? member found
  exact ⟨shallow, inner, column, path, listed, by simpa using first,
    ⟨member, kind, outer, of_decide_eq_true short⟩⟩

end Query

namespace CompilerOptions

variable {options : CompilerOptions} {source : String} {date : Instant} {elapsedTime : Nat}
  {query outer inner : Query}

theorem fed_of_compile
    (undotted : ∀ parsed, options.parse source = .ok parsed →
      ∀ path ∈ parsed.paths, ∀ segment ∈ path, Undotted segment)
    (compiled : options.compile source date elapsedTime = .ok query)
    (reaches : query.Reaches outer) (listed : inner ∈ outer.body.listed) :
    inner.body.Fed fun key index => ∃ owner, query.Reaches owner ∧
      owner.body.Returns index key ∧ (owner.Encloses inner ∨ query.Overtaken inner key) := by
  obtain ⟨parsed, around, after, body, _, ⟨_, feeds⟩, rfl⟩ := outcome_of_compile
    (fun _ given => given.1) Query.correlates_of_compiled
    (fun parsed parses => (parsed_of_parse parses).undotted (undotted parsed parses)) compiled
  have alone : Site.root.place ≠ .select := by decide
  have batch := feeds (Site.sound_alone alone)
  rw [Site.offer_alone alone, Site.offer_alone alone, if_neg alone] at batch
  have inside := batch.inside _ (List.mem_singleton_self _)
  refine Query.fed_of_inside (Query.allFed_metadata batch.fed _) ?_ reaches listed
  exact inside.withMetadata fun own => own

/--
Where no name holds a dot, a list that reads a column of none of its own objects,
whose path is not longer than that of its first object, is known to be
correlated, and the column has a place. It is the place where a query around the
list returns it, unless the last query before the list that returns it, of those
that share the places of columns with the list, is not around the list.
-/
theorem correlated_of_compile
    (undotted : ∀ parsed, options.parse source = .ok parsed →
      ∀ path ∈ parsed.paths, ∀ segment ∈ path, Undotted segment)
    (compiled : options.compile source date elapsedTime = .ok query)
    (reaches : query.Reaches outer) (listed : inner ∈ outer.body.listed) {column : Field Query}
    {path : Path} (reads : inner.body.ReadsAround column path) :
    inner.body.isCorrelated = true ∧ ∃ index, column.columnIndex = some index ∧
      (¬query.Overtaken inner column.key → query.FetchesFor inner path column.key index) := by
  obtain ⟨correlated, index, place, owner, reached, returned, encloses⟩ :=
    fed_of_compile undotted compiled reaches listed column path reads
  refine ⟨correlated, index, place, fun free => ?_⟩
  obtain ⟨placed, _⟩ := placed_of_compile undotted compiled
  rw [Query.throughout_iff] at placed
  have member := Statement.mem_nested_iff.2 (.inl listed)
  have inside := placed inner (reaches.trans (.nested member (.self inner)))
  have keyed := inside.supplied.columns column reads.member path reads.kind
  exact ⟨owner, reached, encloses.resolve_right free,
    (placed owner reached).supplied.exists_object keyed returned⟩

theorem compile_readsAround :
    ∃ query, compile {} outerCode = .ok query ∧ query.readsAround = true := by
  have run : compilesTo {} outerCode Query.readsAround = true := by
    decide +kernel
  exact exists_of_compilesTo run

theorem correlated_of_outerCode :
    ∃ query inner column path index, compile {} outerCode = .ok query ∧
      inner ∈ query.body.listed ∧ inner.body.ReadsAround column path ∧
      inner.body.isCorrelated = true ∧ column.columnIndex = some index ∧
      query.FetchesFor inner path column.key index := by
  obtain ⟨query, compiled, reads⟩ := compile_readsAround
  obtain ⟨shallow, inner, column, path, listed, first, reads⟩ := Query.exists_readsAround reads
  obtain ⟨correlated, index, place, fetches⟩ :=
    correlated_of_compile undotted_outerCode compiled (.self query) listed reads
  refine ⟨query, inner, column, path, index, compiled, listed, reads, correlated, place,
    fetches ?_⟩
  rintro ⟨heads, together, other, overtakes⟩
  obtain ⟨head, given, spans⟩ := overtakes.member
  rcases Query.eq_or_mem_of_isShallow shallow (together.reaches given spans) with rfl | ⟨nested, _⟩
  · exact overtakes.beside ⟨inner, listed, .self inner⟩
  · exact absurd overtakes.number (Nat.not_lt.2 (first other nested))

end CompilerOptions

namespace Query

/-- The object returns no column with the key. -/
def lacks (key : String) (object : SourceObject Query) : Bool :=
  ((object.plan.map (·.body.fields)).getD []).all (·.key != key)

theorem not_returns_of_lacks {key : String} {object : SourceObject Query}
    (without : lacks key object = true) (index : Nat) : ¬object.Returns index key := by
  rintro ⟨plan, field, planned, present, same⟩
  rw [lacks, planned] at without
  have different := List.all_eq_true.1 without field (List.mem_of_getElem? present)
  simp [same] at different

/--
Some list in the query reads a column of none of its own objects, which no query
around the list returns at any place. It is told whether the path of the column
is longer than that of the first object of the list.
-/
def LeavesOpen (query : Query) (isLonger : Bool) : Prop :=
  ∃ outer inner column path, query.Reaches outer ∧ inner ∈ outer.body.listed ∧
    column ∈ inner.body.columns ∧ column.kind = .column path ∧
    (∀ object ∈ inner.body.objects, object.path.same path.parent = false) ∧
    decide (inner.body.primaryLength < path.length) = isLonger ∧
    ∀ index, ¬query.FetchesFor inner path column.key index

def leavesOpen (isLonger : Bool) (query : Query) : Bool :=
  query.isShallow && query.body.listed.any fun inner => inner.body.columns.any fun column =>
    (inner.body.outerPath? column).any (fun path =>
      decide (inner.body.primaryLength < path.length) == isLonger) &&
    query.body.objects.all (lacks column.key)

theorem LeavesOpen.of_leavesOpen {query : Query} {isLonger : Bool}
    (leaves : query.leavesOpen isLonger = true) : query.LeavesOpen isLonger := by
  obtain ⟨shallow, leaves⟩ := (Bool.and_eq_true _ _).mp leaves
  obtain ⟨inner, listed, leaves⟩ := List.any_eq_true.1 leaves
  obtain ⟨column, member, leaves⟩ := List.any_eq_true.1 leaves
  obtain ⟨longer, without⟩ := (Bool.and_eq_true _ _).mp leaves
  obtain ⟨path, found, length⟩ := (Option.any_eq_true _ _).1 longer
  obtain ⟨kind, outer⟩ := Statement.outer_of_outerPath? member found
  refine ⟨query, inner, column, path, .self query, listed, member, kind, outer,
    eq_of_beq length, ?_⟩
  rintro index ⟨owner, reaches, encloses, object, given, _, returned⟩
  rcases eq_or_mem_of_isShallow shallow reaches with rfl | ⟨_, none⟩
  · exact not_returns_of_lacks (List.all_eq_true.1 without object given) index returned
  · exact encloses.nested_ne_nil none

end Query

namespace CompilerOptions

/-- The column belongs to an object whose path is as long as that of the list. -/
def fartherObject : String :=
  "SELECT (SELECT Id FROM con.Departments WHERE acc.Name = 'x') " ++
    "FROM Contact con, con.Account acc"

/-- The list beside the one that reads the column returns a column with its key. -/
def listBeside : String :=
  "SELECT (SELECT Name FROM con.Departments), (SELECT Id FROM con.A.B WHERE dep.Name = 'x') " ++
    "FROM Contact con, con.Departments dep"

/-- Two columns have the same key, for one of the names holds a dot. -/
def dottedName : String :=
  "SELECT (SELECT Id FROM con.X.Z WHERE con.X.Y = 1 AND con.\"X.Y\" = 2) FROM Contact con"

theorem exists_leavesOpen {source : String} {isLonger : Bool}
    (run : compilesTo {} source (Query.leavesOpen isLonger) = true) :
    ∃ query, compile {} source = .ok query ∧ query.LeavesOpen isLonger := by
  obtain ⟨query, compiled, leaves⟩ := exists_of_compilesTo run
  exact ⟨query, compiled, .of_leavesOpen leaves⟩

/-- A column whose path is longer than that of the list is not looked for around it. -/
theorem leavesOpen_of_compile :
    ∃ query, compile {} fartherObject = .ok query ∧ query.LeavesOpen true := by
  refine exists_leavesOpen ?_
  decide +kernel

/-- One with a shorter path is missed if a list is overtaken, or if a name holds a dot. -/
theorem leavesOpen_of_shorter :
    (∃ query, compile {} listBeside = .ok query ∧ query.LeavesOpen false) ∧
      ∃ query, compile {} dottedName = .ok query ∧ query.LeavesOpen false := by
  refine ⟨exists_leavesOpen ?_, exists_leavesOpen ?_⟩
  · decide +kernel
  · decide +kernel

end CompilerOptions

end ObjectQuery
