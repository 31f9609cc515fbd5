import ObjectQuery.Proofs.Compiler.Identity
import ObjectQuery.Proofs.Numbering.Alias

namespace ObjectQuery

/-!
The aliases in a compiled query. No two fields of a query have the same one, and
every call has one. Columns that are fetched for lists of related rows go without,
but where no name holds a dot they are none of the columns that did so before.
-/

open Correlation (Carries Fetches)

/-- What a field shows of itself among the fields of a query. -/
structure Heading where
  /-- The path of a column. -/
  column? : Option Path
  isCall : Bool
  aliasName : Option String
  columnId : Option Nat
  key : String

namespace Field

variable {Q : Type} {field : Field Q} {path : Path}

def heading (field : Field Q) : Heading where
  column? := if field.kind.isColumn then field.kind.path? else none
  isCall := field.kind.isCall
  aliasName := field.aliasName
  columnId := field.columnId
  key := field.key

theorem column?_heading_eq_some :
    field.heading.column? = some path ↔ field.kind = .column path := by
  unfold heading
  cases field.kind <;> simp [FieldKind.isColumn, FieldKind.path?]

theorem map_heading_of_bare {before after : List (Field Q)}
    (alike : after.map bare = before.map bare)
    (labels : after.map (fun field => (field.aliasName, field.columnId)) =
      before.map fun field => (field.aliasName, field.columnId)) :
    after.map heading = before.map heading := by
  have shown (fields : List (Field Q)) : fields.map heading =
      (fields.map fun field => (field.bare, field.aliasName, field.columnId)).map
        fun (field, aliasName, columnId) => { field.heading with aliasName, columnId } := by
    simp [heading]
  have both := congrArg₂ List.zip alike labels
  rw [List.zip_map', List.zip_map'] at both
  rw [shown, shown, both]

end Field

namespace Heading

variable {objects others : List (SourceObject Query)} {earlier later : Heading}

/--
Of two columns without aliases, the later one has another number, or it belongs to
an object of which the earlier one is no column with its key.
-/
def Apart (objects : List (SourceObject Query)) (earlier later : Heading) : Prop :=
  ∀ path other, earlier.column? = some path → later.column? = some other →
    earlier.aliasName = none → later.aliasName = none →
    earlier.columnId ≠ later.columnId ∨ ∃ object ∈ objects, object.key = other.parent.key ∧
      (path.parent.same object.path = true → earlier.key ≠ later.key)

theorem Apart.of_bare (same : others.map SourceObject.bare = objects.map SourceObject.bare)
    (apart : Apart objects earlier later) : Apart others earlier later := by
  intro path other column columnToo unnamed unnamedToo
  refine (apart path other column columnToo unnamed unnamedToo).imp_right ?_
  rintro ⟨object, member, key, new⟩
  obtain ⟨own, given, alike⟩ := exists_mem_of_map_eq same.symm member
  have ownPath : own.path = object.path := congrArg (fun named => named.path) alike
  have ownKey : own.key = object.key := congrArg (fun named => named.key) alike
  exact ⟨own, given, ownKey.trans key, ownPath ▸ new⟩

end Heading

namespace Statement

variable {statement before after : Statement Query} {indexes more : SortedMap String Nat}

def headings (statement : Statement Query) : List Heading :=
  statement.fields.map Field.heading

/-- The aliases of a statement differ, its calls have them, and its columns are set apart. -/
structure Headed (statement : Statement Query) : Prop where
  distinct : (statement.headings.filterMap fun heading => heading.aliasName.map lowerText).Nodup
  calls : ∀ heading ∈ statement.headings, heading.isCall = true → heading.aliasName.isSome = true
  columns : statement.headings.Pairwise (Heading.Apart statement.objects)

/-- The columns of objects of the statement have places. -/
structure HeadedIn (indexes : SortedMap String Nat) (statement : Statement Query) : Prop
    extends Headed statement where
  known : ∀ heading ∈ statement.headings, ∀ path, heading.column? = some path →
    ∀ object ∈ statement.objects, path.parent.same object.path = true →
      heading.key ∈ indexes.keys

namespace HeadedIn

theorem mono (headed : statement.HeadedIn indexes) (keeps : indexes.keys ⊆ more.keys) :
    statement.HeadedIn more where
  toHeaded := headed.toHeaded
  known heading member path column object given same :=
    keeps (headed.known heading member path column object given same)

theorem of_headings (headed : before.HeadedIn indexes) (same : after.headings = before.headings)
    (objects : after.objects.map SourceObject.bare = before.objects.map SourceObject.bare) :
    after.HeadedIn indexes where
  distinct := same ▸ headed.distinct
  calls := same ▸ headed.calls
  columns := same ▸ headed.columns.imp (.of_bare objects)
  known heading member path column object given own := by
    obtain ⟨other, givenToo, alike⟩ := exists_mem_of_map_eq objects given
    have path : other.path = object.path := congrArg (fun named => named.path) alike
    exact headed.known heading (same ▸ member) _ column other givenToo (path ▸ own)

/-- A column that is fetched had no place before, as those of its object that were there have. -/
theorem fetch (headed : statement.HeadedIn indexes) {path : Path} {column fetched : Field Query}
    {objects : List (SourceObject Query)} (index : Nat) (kind : column.kind = .column path)
    (unnamed : column.aliasName = none) (absent : indexes.find? column.key = none)
    (fetches : Fetches path.parent.key column statement.objects objects fetched) :
    HeadedIn (indexes.insert column.key index)
      { statement with objects, fields := statement.fields ++ [fetched] } := by
  have given : HeadedIn indexes { statement with objects } :=
    headed.of_headings rfl fetches.map_bare
  obtain ⟨_, _, object, member, objectKey, _⟩ := fetches.returned
  have heading : fetched.heading =
      { column? := some path, isCall := false, aliasName := none, columnId := column.columnId
        key := column.key } := by
    obtain ⟨place, rfl⟩ := fetches.field
    simp [Field.heading, kind, unnamed, FieldKind.isColumn, FieldKind.isCall, FieldKind.path?]
  have headings : headings { statement with objects, fields := statement.fields ++ [fetched] } =
      statement.headings ++
        [{ column? := some path, isCall := false, aliasName := none, columnId := column.columnId
           key := column.key }] := by
    rw [Statement.headings, List.map_append, List.map_singleton, heading]
    rfl
  refine ⟨⟨?_, ?_, ?_⟩, ?_⟩
  · rw [headings, List.filterMap_append]
    simpa using headed.distinct
  · rw [headings, List.forall_mem_append, List.forall_mem_singleton]
    exact ⟨headed.calls, fun impossible => by cases impossible⟩
  · rw [headings, List.pairwise_append]
    refine ⟨given.columns, List.pairwise_singleton .., ?_⟩
    simp only [List.forall_mem_singleton]
    rintro earlier listed own _ column ⟨⟩ _ _
    refine .inr ⟨object, member, objectKey, fun same key => ?_⟩
    have known := given.known earlier listed own column object member same
    simp [SortedMap.mem_keys_iff, SortedMap.contains, key, absent] at known
  · rw [headings, List.forall_mem_append, List.forall_mem_singleton]
    simp only [SortedMap.mem_keys_iff, SortedMap.contains_insert, true_or, implies_true, and_true]
    exact fun earlier listed own column object member same =>
      .inr (SortedMap.mem_keys_iff.1 (given.known earlier listed own column object member same))

end HeadedIn

theorem carries_headedIn (depth : Nat) :
    Carries (fun column => ∀ path, column.kind = .column path → path.length ≤ depth →
        column.aliasName = none) depth
      fun correlation => ∀ parent ∈ correlation.parent, parent.HeadedIn correlation.indexes where
  correlated headed := headed
  fetched index headed present unnamed kind short absent fetches := by
    rintro _ ⟨⟩
    exact (headed _ present).fetch index kind (unnamed _ kind short) absent fetches

theorem headings_replaceNested {index : Nat} {query : Query}
    (found : Query.nestedAt? statement index = some query) (body : Query) :
    (statement.replaceNested index body).headings = statement.headings := by
  obtain ⟨field, present, nested⟩ := Option.bind_eq_some_iff.1 found
  have kind : field.kind = .subquery query := by
    cases kind : field.kind <;> rw [kind] at nested <;> cases nested
    rfl
  apply List.ext_getElem?
  intro other
  simp only [headings, replaceNested, List.getElem?_map, List.getElem?_modify]
  split
  · rename_i equal
    subst equal
    rw [present]
    simp [Field.heading, kind, FieldKind.isColumn, FieldKind.isCall]
  · simp

/-- Once the objects have given places to their columns, the names that were given hold good. -/
theorem AliasesGiven.headedIn {length : Nat} (given : statement.AliasesGiven length)
    (known : ∀ object ∈ statement.objects,
      ∀ field ∈ SourceObject.ownFields object.path statement.fields, field.key ∈ indexes.keys) :
    statement.HeadedIn indexes where
  distinct := by
    rw [headings, List.filterMap_map]
    exact given.distinct
  calls := List.forall_mem_map.2 given.calls
  columns := by
    refine List.pairwise_map.2 ((List.pairwise_filter.1 (List.pairwise_map.1 given.columns)).imp ?_)
    intro earlier later different path other column columnToo unnamed unnamedToo
    refine .inl (different ?_ ?_)
    · simp [Field.column?_heading_eq_some.1 column, show earlier.aliasName = none from unnamed,
        FieldKind.isColumn]
    · simp [Field.column?_heading_eq_some.1 columnToo, show later.aliasName = none from unnamedToo,
        FieldKind.isColumn]
  known := by
    refine List.forall_mem_map.2 fun field member path column object listed same => ?_
    have own : field.objectPath?.any (·.same object.path) = true := by
      rw [Field.objectPath?, Field.column?_heading_eq_some.1 column]
      exact same
    obtain ⟨index, present⟩ := SourceObject.exists_getElem?_ownFields member own
    exact known object listed { field with columnIndex := some index }
      (List.mem_of_getElem? present)

theorem mem_keys_ownIndexes {reads : Path → String → Prop} {planned : Statement Query}
    {start finish : Correlation} (plan : statement.Planned reads planned start finish)
    {key : String} (given : key ∈ indexes.keys ∨ ∃ object ∈ statement.objects,
      ∃ field ∈ SourceObject.ownFields object.path statement.fields, field.key = key) :
    key ∈ (statement.ownIndexes indexes).keys := by
  simp only [SortedMap.mem_keys_iff] at given ⊢
  rcases plan.find?_ownIndexes indexes key with ⟨index, found, _⟩ | ⟨others, found⟩
  · rw [SortedMap.contains, found]
    rfl
  · rcases given with known | ⟨object, member, field, own, same⟩
    · rwa [SortedMap.contains, found]
    · exact absurd same (others object member field own)

theorem length_primary {Q : Type} (statement : Statement Q) :
    statement.primary.length = statement.primaryLength := by
  rw [primary, primaryLength]
  cases statement.objects.head? <;> rfl

/-- Places that are known stay so, and the headings of the query around hold good with them. -/
structure Lends (parent around : Option (Statement Query)) (before after : Session) : Prop where
  keeps : before.registry.columnIndexes.keys ⊆ after.registry.columnIndexes.keys
  around : (∀ statement ∈ parent, statement.HeadedIn before.registry.columnIndexes) →
    ∀ statement ∈ around, statement.HeadedIn after.registry.columnIndexes

theorem PlanCourse.headedIn {parent : Option (Statement Query)} {before : Session}
    (course : PlanCourse statement parent before)
    (given : statement.AliasesGiven statement.primaryLength)
    (filter : Condition.IsFilter statement.filter) :
    course.planned.HeadedIn course.finish.indexes ∧
      Lends parent course.finish.parent before course.after := by
  have whatever : Field.AllRead (fun _ _ => True) statement.columns := fun _ _ _ _ => trivial
  have planned := course.isPlanned whatever filter
  have toOwn : before.registry.columnIndexes.keys ⊆
      (statement.ownIndexes before.registry.columnIndexes).keys :=
    fun key given => mem_keys_ownIndexes planned (.inl given)
  have toEnd : (statement.ownIndexes before.registry.columnIndexes).keys ⊆
      course.finish.indexes.keys := by
    intro key given
    rw [SortedMap.mem_keys_iff] at given ⊢
    obtain ⟨index, found⟩ := Option.isSome_iff_exists.1 given
    rw [SortedMap.contains, planned.grows.indexes key index found]
    rfl
  refine ⟨?_, List.Subset.trans toOwn toEnd, fun around => ?_⟩
  · have headings : course.planned.headings = statement.headings :=
      Field.map_heading_of_bare planned.alike.fields planned.labels
    have headed : statement.HeadedIn (statement.ownIndexes before.registry.columnIndexes) :=
      given.headedIn fun object member field own =>
        mem_keys_ownIndexes planned (.inr ⟨object, member, field, own, rfl⟩)
    exact (headed.of_headings headings planned.alike.objects).mono toEnd
  · have unnamed : ∀ column ∈ statement.columns, ∀ path, column.kind = .column path →
        path.length ≤ statement.primaryLength → column.aliasName = none := by
      intro column member
      obtain ⟨field, listed, reads⟩ := exists_everyField member
      exact given.quiet field listed column reads
    exact (course.keeps (carries_headedIn _) unnamed fun statement present =>
      (around statement present).mono toOwn).2

theorem compileOwn_headedIn {site : Site} (read : statement.AsRead) {before : Session}
    (sound : before.columns.Sound) :
    Step.Meets (statement.compileOwn site.place site.depth site.inherited site.parent) before
      fun result after => result.1.HeadedIn after.registry.columnIndexes ∧
        Lends site.parent result.2.1 before after := by
  refine .of_runs fun result after run => ?_
  obtain ⟨course, rfl, rfl⟩ := (compileOwn_course before).of_ok run
  obtain ⟨filtered, grouped⟩ := read.parsed.registered before.nextQueryId site.parent
  have objects : ((statement.registered before.nextQueryId site.parent).scope site.aliases
      before.mentions).objects ≠ [] := read.parsed.objects
  have names : (statement.registered before.nextQueryId site.parent).Names (· ≠ []) :=
    { read.parsed.names with }
  have selects : (statement.registered before.nextQueryId site.parent).AliasesSelected :=
    { read.aliases with }
  obtain ⟨known, listed⟩ := (resolve_aliases site.place course.primary filtered grouped
    names.fields selects objects).of_ok course.resolves
  obtain ⟨alike, kept, _⟩ :=
    (assignIds_meets site.depth course.selected course.resolved _).of_ok course.numbers
  have length : course.resolved.primary.length = course.numbered.primaryLength := by
    rw [length_primary, primaryLength_of_bare alike.objects]
  have given := (assignIds_aliases site.depth known listed (course.unnumbered read.parsed) _
    (by exact sound)).of_ok course.numbers
  obtain ⟨headed, lends⟩ := course.plan.headedIn (length ▸ given)
    ((course.isResolved read.parsed).filter.of_map_eq alike.filter)
  have indexes : course.planning.registry.columnIndexes = before.registry.columnIndexes :=
    kept.indexes
  have lent : Lends site.source course.plan.finish.parent before course.plan.after :=
    ⟨indexes ▸ lends.keeps, indexes ▸ lends.around⟩
  have kept : Lends site.parent site.parent before course.plan.after :=
    ⟨lent.keeps, fun around statement present => (around statement present).mono lent.keeps⟩
  exact ⟨headed, course.relates_around
    (fun parent around => Lends parent around before course.plan.after) lent kept⟩

end Statement

namespace Query

open Statement (Headed HeadedIn Lends)

/-- What is known of the headings in a query that compiles, and of the query around it. -/
structure Headlined (site : Site) (before after : Session) (result : Statement Query)
    (around : Option (Statement Query)) : Prop extends Lends site.parent around before after where
  headed : Throughout Headed ⟨result⟩

def headlines : Outcome := fun site statement before result around after =>
  numbers site statement before result around after ∧
    (before.columns.Sound → Headlined site before after result around)

/-- A list of related rows leaves the headings of the statement around it as they are to be. -/
theorem Lists.headedIn {depth done : Nat} {aliases : AliasMap} {own statement : Statement Query}
    {before start state : Session} (first : Listed before start own [])
    (headed : own.HeadedIn start.registry.columnIndexes)
    (lists : Lists headlines depth aliases own start done statement state) :
    start.registry.columnIndexes.keys ⊆ state.registry.columnIndexes.keys ∧
      statement.HeadedIn state.registry.columnIndexes ∧
      ∀ query ∈ listedBefore statement done, query.Throughout Headed := by
  induction lists with
  | start => exact ⟨List.Subset.refl _, headed, by simp [listedBefore]⟩
  | skip lists plain induction => rwa [listedBefore_skip plain]
  | @nested done statement grown body _ _ _ lists found grows compiled induction =>
      obtain ⟨keeps, headed, listed⟩ := induction
      have sound := ((lists.mono And.left).numbered first).2.draws.grows.sound
      have nested := compiled.2 sound
      have around : grown.HeadedIn _ := nested.around (by rintro _ ⟨⟩; exact headed) grown rfl
      refine ⟨List.Subset.trans keeps nested.keeps, around.of_headings ?_ rfl, ?_⟩
      · exact Statement.headings_replaceNested ((grows.nestedAt done).trans found) ⟨body⟩
      · rw [listedBefore_replaceNested grows found, List.forall_mem_append]
        exact ⟨listed, by simpa using nested.headed⟩

theorem Operands.headed {depth : Nat} {around : Statement Query}
    {conditions results : List (Condition (Field Query))} {before after : Session}
    (operands : Operands headlines depth around conditions before results after)
    (sound : before.columns.Sound) :
    (∀ query ∈ results.filterMap Condition.query?, query.Throughout Headed) ∧
      after.columns.Sound := by
  let numbering (session : Session) : Prop := session.columns.Sound
  suffices (∀ query ∈ results.filterMap Condition.query?, query.Throughout Headed) ∧
      numbering after from this
  refine operands.forall_queries ?_ sound
  rintro query before body parent after sound ⟨numbered, headlined⟩
  exact ⟨(headlined sound).headed, (numbered sound).draws.grows.sound⟩

theorem headlines_of_compiled {site : Site} {statement result : Statement Query}
    {before after : Session} {around : Option (Statement Query)} (read : statement.AsRead)
    (compiled : Compiled headlines site statement before result around after) :
    headlines site statement before result around after := by
  refine ⟨numbers_of_compiled read.parsed (compiled.mono And.left), fun sound => ?_⟩
  cases compiled with
  | @intro own selected _ _ filter having planned listing starting filtering ending after compiled
      lists begins filtered grouped ends ran =>
      obtain ⟨headed, lends⟩ := (Statement.compileOwn_headedIn read sound).of_ok ran
      have drawn := (Statement.compileOwn_draws read.parsed sound).of_ok ran
      have first := listed_of_drawsOwn drawn
      obtain ⟨keeps, headed, listed⟩ := lists.headedIn first headed
      rw [lists.listed] at listed
      have known := ((lists.mono And.left).numbered first).2.draws.grows.sound
      have start : starting.columns = listing.columns.apart := by
        rw [begins]
        rfl
      obtain ⟨filters, sound⟩ := filtered.headed (start ▸ Ledger.sound_apart known)
      obtain ⟨havings, _⟩ := grouped.headed sound
      have indexes : after.registry.columnIndexes = listing.registry.columnIndexes := by rw [ends]
      refine ⟨⟨?_, fun parent around present => ?_⟩, .intro ?_ ?_⟩
      · rw [indexes]
        exact List.Subset.trans lends.keeps keeps
      · rw [indexes]
        exact (lends.around parent around present).mono keeps
      · exact (headed.of_headings rfl rfl : HeadedIn _ { selected with filter, having }).toHeaded
      · rw [Statement.nested_eq_append, Statement.conditional]
        simp only [List.forall_mem_append]
        exact ⟨listed, filters, havings⟩

end Query

namespace CompilerOptions

variable {options : CompilerOptions} {source : String} {date : Instant} {elapsedTime : Nat}
  {query : Query}

theorem headed_of_compile (compiled : options.compile source date elapsedTime = .ok query) :
    query.Throughout Statement.Headed := by
  obtain ⟨parsed, around, after, body, _, headlined, rfl⟩ := outcome_of_compile
    (fun _ (given : Statement.AsRead _) => given.parsed) Query.headlines_of_compiled
    (fun _ => asRead_of_parse) compiled
  exact (headlined.2 (Ledger.sound_empty (Nat.le_refl 1))).headed.withMetadata fun own =>
    ⟨own.distinct, own.calls, own.columns⟩

/--
In the fields of each query in a compiled query, among them those that are added
for other clauses and for lists of related rows, no alias is found twice, letter
case aside, and every call has one. Where no name of the text holds a dot, the
columns without aliases have different numbers.
-/
theorem aliases_of_compile (compiled : options.compile source date elapsedTime = .ok query)
    {inner : Query} (reaches : query.Reaches inner) :
    (Field.aliasKeys inner.body.fields).Nodup ∧
    (∀ field ∈ inner.body.fields, field.kind.isCall = true → field.aliasName.isSome = true) ∧
    ((∀ parsed, options.parse source = .ok parsed →
        ∀ path ∈ parsed.paths, ∀ segment ∈ path, Undotted segment) →
      (Field.unnamedIds inner.body.fields).Nodup) := by
  have headed := Query.throughout_iff.1 (headed_of_compile compiled) inner reaches
  refine ⟨?_, List.forall_mem_map.1 headed.calls, fun undotted => ?_⟩
  · have distinct := headed.distinct
    rwa [Statement.headings, List.filterMap_map] at distinct
  refine List.pairwise_map.2 (List.pairwise_filter.2
    ((List.pairwise_map.1 headed.columns).imp_of_mem ?_))
  intro earlier later member memberToo apart shown shownToo ids
  obtain ⟨isColumn, unnamed⟩ := Bool.and_eq_true_iff.1 shown
  obtain ⟨isColumnToo, unnamedToo⟩ := Bool.and_eq_true_iff.1 shownToo
  obtain ⟨path, kind⟩ := Field.exists_eq_column isColumn
  obtain ⟨other, kindToo⟩ := Field.exists_eq_column isColumnToo
  have named := Statement.mem_named_of_fields member (congrArg FieldKind.path? kind)
  have namedToo := Statement.mem_named_of_fields memberToo (congrArg FieldKind.path? kindToo)
  obtain ⟨head, stands, spans⟩ := reaches.exists_head
  obtain ⟨keys, numbers⟩ := columnId_eq_iff_same undotted compiled stands spans spans named namedToo
    kind kindToo
  have same := numbers.1 ids
  rcases apart path other (Field.column?_heading_eq_some.2 kind)
      (Field.column?_heading_eq_some.2 kindToo) (Option.isNone_iff_eq_none.1 unnamed)
      (Option.isNone_iff_eq_none.1 unnamedToo) with different | ⟨object, listed, key, new⟩
  · exact different ids
  -- Without dots, the key of an object tells that both columns belong to it.
  · have placed := Query.throughout_iff.1 (placed_of_compile undotted compiled).1 inner reaches
    have keysNames := Query.throughout_iff.1 (keysNames_of_compile undotted compiled) inner reaches
    have keyed := keysNames later namedToo other (congrArg FieldKind.path? kindToo)
    have own := placed.supplied.objects object listed
    have belongs : object.path.same other.parent = true :=
      own.plain.same_of_key_eq keyed.parent (own.key.symm.trans key)
    have both := Path.same_parent (Path.same_symm same) (Path.same_symm belongs)
    exact new (Path.same_symm both) (keys.2 same)

/-- A name like those that are given to fields without, a call, and a column read by a list. -/
def takenName : String :=
  "SELECT Id, Name Expr0, Id, UPPER(Title), " ++
    "(SELECT Id FROM Contact.Tasks WHERE Contact.Code = Kind) FROM Contact"

/--
The aliases and numbers of the fields. The list has no alias, nor do the columns
that the call and the list read.
-/
def takenNameLabels : List (Option String × Option Nat) :=
  [(none, some 1), (some "Expr0", some 2), (some "expr1", some 1), (some "expr2", some 3),
    (none, some 5), (none, some 4), (none, some 7)]

theorem undotted_takenName :
    ∀ parsed, parse {} takenName = .ok parsed →
      ∀ path ∈ parsed.paths, ∀ segment ∈ path, Undotted segment :=
  undotted_of_parse (by decide +kernel)

theorem aliases_of_takenName :
    ∃ query, compile {} takenName = .ok query ∧
      query.body.fields.map (fun field => (field.aliasName, field.columnId)) = takenNameLabels ∧
      (Field.aliasKeys query.body.fields).Nodup ∧
      (∀ field ∈ query.body.fields, field.kind.isCall = true → field.aliasName.isSome = true) ∧
      (Field.unnamedIds query.body.fields).Nodup := by
  have run : compilesTo {} takenName (fun query =>
      query.body.fields.map (fun field => (field.aliasName, field.columnId)) ==
        takenNameLabels) = true := by
    decide +kernel
  obtain ⟨query, compiled, labels⟩ := exists_of_compilesTo run
  obtain ⟨distinct, calls, columns⟩ := aliases_of_compile compiled (.self query)
  exact ⟨query, compiled, eq_of_beq labels, distinct, calls, columns undotted_takenName⟩

/-- A list of departments, and one in it that reads a column of an object around both. -/
def dottedAround : String :=
  "SELECT (SELECT Id, (SELECT Id FROM X.Y WHERE acc.b.X = 2) FROM c.Departments, acc.b " ++
    "WHERE acc.\"b.X\" = 1) FROM Contact c, c.Account acc"

/-- The column that the inner list fetches shares its number with one that the outer list reads. -/
theorem shared_of_dottedAround :
    ∃ query, compile {} dottedAround = .ok query ∧ ∃ inner, query.Reaches inner ∧
      (inner.body.fields.filter (·.kind.isColumn)).map
        (fun field => (field.kind.path?, field.aliasName, field.columnId)) =
        [(some ["Contact", "Departments", "Id"], none, some 2),
          (some ["Contact", "Account", "b.X"], none, some 4),
          (some ["Contact", "Account", "b", "X"], none, some 4)] ∧
      ¬(Field.unnamedIds inner.body.fields).Nodup := by
  have run : compilesTo {} dottedAround (fun query => query.body.listed.any fun inner =>
      ((inner.body.fields.filter (·.kind.isColumn)).map
        (fun field => (field.kind.path?, field.aliasName, field.columnId)) ==
        [(some ["Contact", "Departments", "Id"], none, some 2),
          (some ["Contact", "Account", "b.X"], none, some 4),
          (some ["Contact", "Account", "b", "X"], none, some 4)]) &&
      Field.unnamedIds inner.body.fields == [some 2, some 4, some 4]) = true := by
    decide +kernel
  obtain ⟨query, compiled, holds⟩ := exists_of_compilesTo run
  obtain ⟨inner, listed, holds⟩ := List.any_eq_true.1 holds
  obtain ⟨columns, ids⟩ := Bool.and_eq_true_iff.1 holds
  have nested := Statement.mem_nested_iff.2 (.inl listed)
  refine ⟨query, compiled, inner, .nested nested (.self inner), eq_of_beq columns, ?_⟩
  rw [eq_of_beq ids]
  decide

end CompilerOptions

end ObjectQuery
