import ObjectQuery.Proofs.Compiler.Statement
import ObjectQuery.Proofs.Resolution.Statement

namespace ObjectQuery

/-!
Places of columns in the queries of their objects. A place that is given is that
of a column with the key, and stays so when more columns are fetched.
-/

namespace Path

/-- The path of a column under its key, with a path of its object. -/
structure Keyed (path : Path) (key : String) : Prop where
  plain : path.Plain
  key : key = path.key
  parent : path.parent.Plain

theorem FoundIn.keyed {Q : Type} {known : Path → Prop} {objects : List (SourceObject Q)}
    {path : Path} {key : String} (found : path.FoundIn known objects key) : path.Keyed key :=
  ⟨found.plain, found.key, found.parent.plain⟩

end Path

namespace Field

/-- The field is a column or a field set of the object with the path, under its key. -/
def BelongsTo (object : Path) (field : Field Q) : Prop :=
  ∃ path, field.kind.path? = some path ∧ path.parent.same object = true ∧ path.Plain ∧
    field.key = path.key

end Field

namespace SourceObject

/-- The query of the object returns fields of its own, in their places. -/
structure ReturnsOwn (object : SourceObject Query) : Prop where
  plain : object.path.Plain
  key : object.key = object.path.key
  fields : ∃ plan, object.plan = some plan ∧ ∀ (index : Nat) (field : Field Query),
    plan.body.fields[index]? = some field →
      field.columnIndex = some index ∧ field.BelongsTo object.path

/-- An object that returns a column with the key of a path is the object of the path. -/
theorem ReturnsOwn.same {object : SourceObject Query} {path : Path} {index : Nat} {key : String}
    (own : object.ReturnsOwn) (keyed : path.Keyed key) (returned : object.Returns index key) :
    object.path.same path.parent = true := by
  obtain ⟨plan, field, planned, present, same⟩ := returned
  obtain ⟨other, plannedToo, fields⟩ := own.fields
  cases planned.symm.trans plannedToo
  obtain ⟨_, fieldPath, _, belongs, plain, fieldKey⟩ := fields index field present
  have keys : fieldPath.key = path.key := fieldKey.symm.trans (same.trans keyed.key)
  exact Path.same_parent (plain.same_of_key_eq keyed.plain keys) belongs

theorem getElem?_ownFields {Q : Type} {path : Path} {fields : List (Field Q)} {index : Nat}
    {field : Field Q} (present : (ownFields path fields)[index]? = some field) :
    ∃ other ∈ fields, other.objectPath?.any (·.same path) = true ∧
      field = { other with columnIndex := some index } := by
  rw [ownFields, List.getElem?_mapIdx, Option.map_eq_some_iff] at present
  obtain ⟨other, found, rfl⟩ := present
  obtain ⟨member, own⟩ := List.mem_filter.1 (List.mem_of_getElem? found)
  exact ⟨other, member, own, rfl⟩

theorem exists_getElem?_ownFields {Q : Type} {path : Path} {fields : List (Field Q)}
    {field : Field Q} (member : field ∈ fields)
    (own : field.objectPath?.any (·.same path) = true) :
    ∃ index, (ownFields path fields)[index]? = some { field with columnIndex := some index } := by
  have filtered : field ∈ fields.filter fun field => field.objectPath?.any (·.same path) :=
    List.mem_filter.2 ⟨member, own⟩
  obtain ⟨index, found⟩ := List.getElem?_of_mem filtered
  refine ⟨index, ?_⟩
  rw [ownFields, List.getElem?_mapIdx, found]
  rfl

theorem Plans.returnsOwn {known : Path → Prop} {objects : List (SourceObject Query)}
    {fields : List (Field Query)} {object : SourceObject Query} (plans : object.Plans fields)
    (plain : object.path.Plain) (key : object.key = object.path.key)
    (located : ∀ field ∈ fields, ∀ path, field.kind.path? = some path →
      path.FoundIn known objects field.key) : object.ReturnsOwn := by
  obtain ⟨plan, planned, returned⟩ := plans
  refine ⟨plain, key, plan, planned, fun index field present => ?_⟩
  rw [returned] at present
  obtain ⟨other, member, own, rfl⟩ := getElem?_ownFields present
  obtain ⟨parent, path?, same⟩ := (Option.any_eq_true _ _).1 own
  obtain ⟨path, kind, rfl⟩ := Option.map_eq_some_iff.1 path?
  have found := located other member path kind
  exact ⟨rfl, path, kind, same, found.plain, found.key⟩

theorem find?_foldl_fields (fields : List (Field Query)) (indexes : SortedMap String Nat)
    (key : String) :
    (∃ field ∈ fields, field.key = key ∧
      (fields.foldl (fun indexes field => indexes.insert field.key (field.columnIndex.getD 0))
        indexes).find? key = some (field.columnIndex.getD 0)) ∨
    (∀ field ∈ fields, field.key ≠ key) ∧
      (fields.foldl (fun indexes field => indexes.insert field.key (field.columnIndex.getD 0))
        indexes).find? key = indexes.find? key := by
  induction fields generalizing indexes with
  | nil => exact .inr ⟨by simp, rfl⟩
  | cons first rest induction =>
      rw [List.foldl_cons]
      rcases induction (indexes.insert first.key (first.columnIndex.getD 0)) with
        ⟨field, member, same, found⟩ | ⟨others, found⟩
      · exact .inl ⟨field, List.mem_cons_of_mem _ member, same, found⟩
      · by_cases same : first.key = key
        · subst same
          rw [SortedMap.find?_insert_self] at found
          exact .inl ⟨first, List.mem_cons_self, rfl, found⟩
        · rw [SortedMap.find?_insert_of_ne _ _ same] at found
          exact .inr ⟨List.forall_mem_cons.2 ⟨same, others⟩, found⟩

/-- The place that objects give to a key is that of a field of their own with the key. -/
theorem find?_foldl_objects (fields : List (Field Query)) (objects : List (SourceObject Query))
    (indexes : SortedMap String Nat) (key : String) :
    (∃ object ∈ objects, ∃ index field, (ownFields object.path fields)[index]? = some field ∧
      field.key = key ∧
      ((objects.map (·.withPlan fields)).foldl addIndexes indexes).find? key = some index) ∨
    (∀ object ∈ objects, ∀ field ∈ ownFields object.path fields, field.key ≠ key) ∧
      ((objects.map (·.withPlan fields)).foldl addIndexes indexes).find? key =
        indexes.find? key := by
  induction objects generalizing indexes with
  | nil => exact .inr ⟨by simp, rfl⟩
  | cons object rest induction =>
      rw [List.map_cons, List.foldl_cons]
      rcases induction (addIndexes indexes (object.withPlan fields)) with
        ⟨other, member, own⟩ | ⟨others, found⟩
      · exact .inl ⟨other, List.mem_cons_of_mem _ member, own⟩
      · rw [found]
        rcases find?_foldl_fields (ownFields object.path fields) indexes key with
          ⟨field, member, same, place⟩ | ⟨none, place⟩
        · obtain ⟨index, present⟩ := List.getElem?_of_mem member
          obtain ⟨_, _, _, rfl⟩ := getElem?_ownFields present
          exact .inl ⟨object, List.mem_cons_self, index, _, present, same, place⟩
        · exact .inr ⟨List.forall_mem_cons.2 ⟨none, others⟩, place⟩

end SourceObject

/-- Which keys are returned at which places. -/
abbrev Offer := String → Nat → Prop

/--
The places of columns and what is offered around, before columns are fetched from
there and after: a column is fetched only if its key had no place, and then has one.
-/
structure Fetching (before after : SortedMap String Nat) (start around : Offer) : Prop where
  known : ∀ key, before.contains key → after.contains key
  grows : ∀ key index, start key index → around key index
  added : ∀ key index, around key index →
    start key index ∨ ¬before.contains key ∧ after.contains key

/-- A place from before, or of a column that is fetched from around for it has none. -/
def Brought (before : SortedMap String Nat) (around : Offer) : Offer := fun key index =>
  before.find? key = some index ∨ ¬before.contains key ∧ around key index

/-- Places are given to the columns of a query, of which it returns its own. -/
structure Enters (before after : SortedMap String Nat) (start around own : Offer) : Prop
    extends Fetching before after start around where
  returned : ∀ key index, own key index → after.contains key
  places : ∀ key index, after.find? key = some index → own key index ∨
    (∀ place, ¬own key place) ∧ Brought before around key index

namespace Fetching

variable {before middle after : SortedMap String Nat} {start between around : Offer}

theorem refl (places : SortedMap String Nat) (start : Offer) : Fetching places places start start :=
  ⟨fun _ given => given, fun _ _ offered => offered, fun _ _ => .inl⟩

theorem trans (first : Fetching before middle start between)
    (second : Fetching middle after between around) : Fetching before after start around where
  known key given := second.known key (first.known key given)
  grows key index offered := second.grows key index (first.grows key index offered)
  added key index offered := by
    rcases second.added key index offered with earlier | new
    · exact (first.added key index earlier).imp_right (And.imp_right (second.known key))
    · exact .inr (new.imp_left (mt (first.known key)))

end Fetching

namespace Statement

variable {reads : Path → String → Prop} {known : Path → Prop} {statement other : Statement Query}

theorem locatedIn_of_bare {before after : List (SourceObject Query)} {path : Path}
    (same : after.map SourceObject.bare = before.map SourceObject.bare)
    (located : path.LocatedIn known before) : path.LocatedIn known after := by
  refine ⟨located.plain, fun length positive => (located.beginnings length positive).imp_right ?_⟩
  rintro ⟨object, member, own⟩
  obtain ⟨other, later, alike⟩ := exists_mem_of_map_eq same.symm member
  exact ⟨other, later, (congrArg (fun named => named.path) alike).trans own⟩

theorem foundIn_of_bare {before after : List (SourceObject Query)} {path : Path} {key : String}
    (same : after.map SourceObject.bare = before.map SourceObject.bare)
    (found : path.FoundIn known before key) : path.FoundIn known after key :=
  { found with parent := locatedIn_of_bare same found.parent }

theorem Located.of_alike (located : statement.Located known) (alike : statement.Alike other) :
    other.Located known := by
  refine ⟨?_, ?_, ?_⟩
  · intro object member
    obtain ⟨own, given, same⟩ := exists_mem_of_map_eq alike.objects member
    have path : own.path = object.path := congrArg (fun named => named.path) same
    have key : own.key = object.key := congrArg (fun named => named.key) same
    rw [← path, ← key]
    exact (located.objects own given).imp_left (locatedIn_of_bare alike.objects)
  · exact (located.named.of_bare alike.named).mono fun _ _ => foundIn_of_bare alike.objects
  · intro column member
    obtain ⟨own, given, same⟩ := exists_mem_of_map_eq alike.columns member
    obtain ⟨field, selected, isColumn, key⟩ := located.selected own given
    obtain ⟨later, present, alikeField⟩ := exists_mem_of_map_eq alike.fields.symm selected
    refine ⟨later, present, ?_, ?_⟩
    · simpa [isColumn] using congrArg (·.kind.isColumn) alikeField
    · have ownKey : own.key = column.key := by simpa using congrArg (·.key) same
      have fieldKey : later.key = field.key := by simpa using congrArg (·.key) alikeField
      rw [fieldKey, key, ownKey]

/--
A statement whose objects return their own, and whose columns have the keys of
their paths.
-/
structure Supplied (statement : Statement Query) : Prop where
  objects : ∀ object ∈ statement.objects, object.ReturnsOwn
  columns : Field.AllRead Path.Keyed statement.columns

/-- Some object of the statement returns a column with the key at the place of the column. -/
def Covers (statement : Statement Query) (column : Field Query) : Prop :=
  ∃ index, column.columnIndex = some index ∧ statement.Returns index column.key

theorem Supplied.exists_object (supplied : statement.Supplied) {path : Path} {index : Nat}
    {key : String} (keyed : path.Keyed key) (returned : statement.Returns index key) :
    ∃ object ∈ statement.objects, object.path.same path.parent = true ∧
      object.Returns index key := by
  obtain ⟨object, member, returned⟩ := returned
  exact ⟨object, member, (supplied.objects object member).same keyed returned, returned⟩

/-- A column of one of the own objects is among the fields that some own object returns. -/
theorem Located.exists_own (located : statement.Located known) (unknown : ∀ path, ¬known path)
    {column : Field Query} (member : column ∈ statement.columns) :
    ∃ object ∈ statement.objects, ∃ field ∈ SourceObject.ownFields object.path statement.fields,
      field.key = column.key := by
  obtain ⟨field, selected, isColumn, key⟩ := located.selected column member
  obtain ⟨path, kind⟩ := Field.exists_eq_column isColumn
  have path? : field.kind.path? = some path := congrArg FieldKind.path? kind
  have found := located.fields field selected path path?
  obtain ⟨object, given, same⟩ := found.parent.within.resolve_left (unknown _)
  have own : field.objectPath?.any (·.same object.path) = true := by
    rw [Field.objectPath?, path?, Option.map_some, Option.any_some, same]
    exact Path.same_refl _
  obtain ⟨index, present⟩ := SourceObject.exists_getElem?_ownFields selected own
  exact ⟨object, given, _, List.mem_of_getElem? present, key⟩

/-- What the objects of the statement return, under which keys and at which places. -/
def offer (statement : Statement Query) : Offer := fun key index => statement.Returns index key

/-- What is returned by the objects of the statement around a query, if there is one. -/
def offered (around : Option (Statement Query)) : Offer := fun key index =>
  ∃ statement ∈ around, statement.Returns index key

namespace Planned

variable {planned : Statement Query} {start finish : Correlation}

theorem supplied (plan : statement.Planned reads planned start finish)
    (located : statement.Located known) : planned.Supplied where
  objects object member :=
    have keyed := (located.of_alike plan.alike).objects object member
    (plan.plans object member).returnsOwn keyed.1.plain keyed.2 located.fields
  columns column member path kind :=
    ((located.of_alike plan.alike).columns column member path kind).keyed

theorem find?_ownIndexes (plan : statement.Planned reads planned start finish)
    (indexes : SortedMap String Nat) (key : String) :
    (∃ index, (statement.ownIndexes indexes).find? key = some index ∧
      planned.Returns index key) ∨
    (∀ object ∈ statement.objects, ∀ field ∈ SourceObject.ownFields object.path statement.fields,
      field.key ≠ key) ∧ (statement.ownIndexes indexes).find? key = indexes.find? key := by
  have places := SourceObject.find?_foldl_objects statement.fields statement.objects indexes key
  refine places.imp_left ?_
  rintro ⟨object, member, index, field, present, same, found⟩
  obtain ⟨other, given, alike⟩ := exists_mem_of_map_eq plan.alike.objects.symm member
  obtain ⟨own, planned, returned⟩ := plan.plans other given
  have path : other.path = object.path := congrArg (fun named => named.path) alike
  refine ⟨index, found, other, given, own, field, planned, ?_, same⟩
  rw [returned, path, present]

theorem not_returns (plan : statement.Planned reads planned start finish) {key : String}
    (none : ∀ object ∈ statement.objects,
      ∀ field ∈ SourceObject.ownFields object.path statement.fields, field.key ≠ key)
    (index : Nat) : ¬planned.Returns index key := by
  rintro ⟨object, member, own, field, present, returned, same⟩
  obtain ⟨shown, planned, fields⟩ := plan.plans object member
  cases present.symm.trans planned
  obtain ⟨other, given, alike⟩ := exists_mem_of_map_eq plan.alike.objects member
  have path : other.path = object.path := congrArg (fun named => named.path) alike
  rw [fields, ← path] at returned
  exact none other given field (List.mem_of_getElem? returned) same

/--
The objects of a statement put the columns that they return over the places from
before, and what is fetched is put under keys that have no places by then.
-/
theorem enters {indexes : SortedMap String Nat} {parent : Option (Statement Query)}
    (plan : statement.Planned reads planned
      { indexes := statement.ownIndexes indexes, parent } finish) :
    Enters indexes finish.indexes (offered parent) (offered finish.parent) planned.offer := by
  have places := plan.find?_ownIndexes indexes
  have known (key : String) (given : indexes.contains key) :
      (statement.ownIndexes indexes).contains key := by
    rcases places key with ⟨index, found, _⟩ | ⟨_, same⟩
    · exact SortedMap.contains_iff.2 ⟨index, found⟩
    · rwa [SortedMap.contains, same]
  refine ⟨⟨fun key given => plan.grows.contains (known key given), ?_, ?_⟩, ?_, ?_⟩
  · rintro key index ⟨around, present, returned⟩
    have grows := plan.grows.parent
    rw [Option.mem_def.1 present] at grows
    generalize finish.parent = fetched at grows ⊢
    cases grows with
    | some grown => exact ⟨_, rfl, grown.returns returned⟩
  · rintro key index ⟨around, present, returned⟩
    exact (plan.grows.added around present key index returned).imp_right
      (And.imp_left (mt (known key)))
  · intro key index returned
    rcases places key with ⟨place, found, _⟩ | ⟨none, _⟩
    · exact plan.grows.contains (SortedMap.contains_iff.2 ⟨place, found⟩)
    · exact absurd returned (plan.not_returns none index)
  · intro key index found
    rcases places key with ⟨place, own, returned⟩ | ⟨none, same⟩
    · cases found.symm.trans (plan.grows.indexes key place own)
      exact .inl returned
    · refine .inr ⟨plan.not_returns none, ?_⟩
      rw [Brought, ← same]
      exact (plan.grows.fetched key index found).imp_right (And.imp_left (mt (known key)))

/-- Where no objects are known but its own, a statement returns each column that it reads. -/
theorem covers {indexes : SortedMap String Nat} {parent : Option (Statement Query)}
    (plan : statement.Planned reads planned
      { indexes := statement.ownIndexes indexes, parent } finish)
    (located : statement.Located known) (unknown : ∀ path, ¬known path)
    {column : Field Query} (member : column ∈ planned.columns) : planned.Covers column := by
  obtain ⟨earlier, read, same⟩ := exists_mem_of_map_eq plan.alike.columns member
  have keys : earlier.key = column.key := by simpa using congrArg Field.key same
  rcases plan.find?_ownIndexes indexes column.key with ⟨index, found, returned⟩ | ⟨none, _⟩
  · exact ⟨index, plan.placed column member index found, returned⟩
  -- The place is not left to what is known before, for an own object returns the column.
  · obtain ⟨object, given, field, own, key⟩ := located.exists_own unknown read
    exact absurd (key.trans keys) (none object given field own)

end Planned

end Statement

namespace Correlation.Fetches

variable {objectKey : String} {path : Path} {column fetched : Field Query}
  {objects fetching : List (SourceObject Query)}

theorem kind (fetches : Fetches objectKey column objects fetching fetched) :
    fetched.kind = column.kind := by
  obtain ⟨_, rfl⟩ := fetches.field
  rfl

theorem key (fetches : Fetches objectKey column objects fetching fetched) :
    fetched.key = column.key := by
  obtain ⟨_, rfl⟩ := fetches.field
  rfl

/-- The objects still return their own, for the column belongs to the one that it is added to. -/
theorem returnsOwn (fetches : Fetches objectKey column objects fetching fetched)
    (object : objectKey = path.parent.key) (kind : column.kind = .column path)
    (keyed : path.Keyed column.key) (own : ∀ object ∈ objects, object.ReturnsOwn) :
    ∀ object ∈ fetching, object.ReturnsOwn := by
  induction fetches with
  | @here first plan rest key planned =>
      obtain ⟨head, others⟩ := List.forall_mem_cons.1 own
      refine List.forall_mem_cons.2 ⟨⟨head.plain, head.key, _, rfl, ?_⟩, others⟩
      obtain ⟨other, plannedToo, fields⟩ := head.fields
      cases planned.symm.trans plannedToo
      -- The object is found by its key, which only its own path has.
      have keys : path.parent.key = first.path.key := object.symm.trans (key.symm.trans head.key)
      have belongs : path.parent.same first.path = true :=
        keyed.parent.same_of_key_eq head.plain keys
      intro index field present
      rw [List.getElem?_append] at present
      split at present
      · exact fields index field present
      · rename_i beyond
        obtain ⟨last, rfl⟩ := List.getElem?_eq_some_iff.1 present
        have place : index = plan.body.fields.length := by
          rw [List.length_singleton] at last
          omega
        simp only [List.getElem_singleton]
        exact ⟨congrArg some place.symm, path, congrArg FieldKind.path? kind, belongs, keyed.plain,
          keyed.key⟩
  | later fetches induction =>
      obtain ⟨head, others⟩ := List.forall_mem_cons.1 own
      exact List.forall_mem_cons.2 ⟨head, induction others⟩

end Correlation.Fetches

namespace Statement

variable {before after : Statement Query} {column : Field Query}

namespace Grown

variable {reads : Path → String → Prop}

theorem covers (grown : before.Grown reads after) (covers : before.Covers column) :
    after.Covers column := by
  obtain ⟨index, place, returned⟩ := covers
  exact ⟨index, place, grown.returns returned⟩

/-- The fields that are added are columns that are read where they are fetched, and returned. -/
theorem exists_added (grown : before.Grown reads after) :
    ∃ added, after.fields = before.fields ++ added ∧ ∀ field ∈ added, after.Covers field ∧
      ∃ path, field.kind = .column path ∧ reads path field.key := by
  induction grown with
  | refl => exact ⟨[], (List.append_nil _).symm, by simp⟩
  | @fetch after path read fetched objects grown kind holds fetches induction =>
      obtain ⟨added, fields, held⟩ := induction
      have step : after.Grown (fun _ _ => True)
          { after with objects, fields := after.fields ++ [fetched] } :=
        .fetch (.refl after) kind trivial fetches
      obtain ⟨index, place, object, given, _, returned⟩ := fetches.returned
      refine ⟨added ++ [fetched], ?_, List.forall_mem_append.2
        ⟨fun field member => (held field member).imp_left step.covers, ?_⟩⟩
      · rw [fields, List.append_assoc]
      · rw [List.forall_mem_singleton]
        exact ⟨⟨index, place, object, given, fetches.key ▸ returned⟩, path, fetches.kind.trans kind,
          fetches.key ▸ holds⟩

theorem mem_columns (grown : before.Grown reads after) (member : column ∈ after.columns) :
    column ∈ before.columns ∨
      after.Covers column ∧ ∀ path, column.kind = .column path → reads path column.key := by
  obtain ⟨added, fields, held⟩ := grown.exists_added
  rw [grown.frame, fields] at member
  refine (mem_columns_append member).imp_right fun own => ?_
  obtain ⟨field, given, same⟩ := Field.mem_allColumns.1 own
  obtain ⟨covers, path, kind, holds⟩ := held field given
  rw [Field.columns_of_isColumn (by simp [kind, FieldKind.isColumn])] at same
  cases List.mem_singleton.1 same
  refine ⟨covers, fun other otherKind => ?_⟩
  cases kind.symm.trans otherKind
  exact holds

theorem mem_named (grown : before.Grown reads after) (member : column ∈ after.named) :
    column ∈ before.named ∨
      after.Covers column ∧ ∀ path, column.kind.path? = some path → reads path column.key := by
  obtain ⟨added, fields, held⟩ := grown.exists_added
  rw [grown.frame, fields] at member
  refine (mem_named_append member).imp_right fun own => ?_
  obtain ⟨field, given, same⟩ := Field.mem_allNamed.1 own
  obtain ⟨covers, path, kind, holds⟩ := held field given
  have path? : field.kind.path? = some path := congrArg FieldKind.path? kind
  rw [Field.named_of_path? path?] at same
  cases List.mem_singleton.1 same
  refine ⟨covers, fun other otherKind => ?_⟩
  cases path?.symm.trans otherKind
  exact holds

theorem supplied (grown : before.Grown Path.Keyed after) (supplied : before.Supplied) :
    after.Supplied where
  objects := by
    induction grown with
    | refl => exact supplied.objects
    | fetch grown kind keyed fetches induction => exact fetches.returnsOwn rfl kind keyed induction
  columns column member path kind := by
    rcases grown.mem_columns member with own | ⟨_, reads⟩
    · exact supplied.columns column own path kind
    · exact reads path kind

end Grown

/-- What a statement keeps while columns are fetched from it and queries in it are compiled. -/
structure Keeps (before after : Statement Query) : Prop where
  objects : after.objects.map SourceObject.bare = before.objects.map SourceObject.bare
  supplied : before.Supplied → after.Supplied
  returns : ∀ index key, before.Returns index key → after.Returns index key
  columns : ∀ column ∈ after.columns, column ∈ before.columns ∨ after.Covers column
  named : ∀ field ∈ after.named, field ∈ before.named ∨
    after.Covers field ∧ ∀ path, field.kind.path? = some path → path.Keyed field.key

namespace Keeps

variable {middle : Statement Query}

theorem refl (statement : Statement Query) : statement.Keeps statement :=
  ⟨rfl, fun supplied => supplied, fun _ _ returned => returned, fun _ member => .inl member,
    fun _ member => .inl member⟩

theorem covers (keeps : before.Keeps after) (covers : before.Covers column) :
    after.Covers column := by
  obtain ⟨index, place, returned⟩ := covers
  exact ⟨index, place, keeps.returns index _ returned⟩

theorem trans (first : before.Keeps middle) (second : middle.Keeps after) :
    before.Keeps after where
  objects := second.objects.trans first.objects
  supplied supplied := second.supplied (first.supplied supplied)
  returns index key returned := second.returns index key (first.returns index key returned)
  columns column member := by
    rcases second.columns column member with earlier | covered
    · exact (first.columns column earlier).imp_right second.covers
    · exact .inr covered
  named field member := by
    rcases second.named field member with earlier | added
    · exact (first.named field earlier).imp_right fun added => added.imp_left second.covers
    · exact .inr added

theorem of_objects (objects : after.objects = before.objects)
    (columns : ∀ column ∈ after.columns, column ∈ before.columns)
    (named : ∀ field ∈ after.named, field ∈ before.named) : before.Keeps after where
  objects := congrArg (List.map SourceObject.bare) objects
  supplied supplied := ⟨objects ▸ supplied.objects, fun column member =>
    supplied.columns column (columns column member)⟩
  returns index key returned := by
    rwa [Returns, objects]
  columns column member := .inl (columns column member)
  named field member := .inl (named field member)

end Keeps

theorem Grown.keeps (grown : before.Grown Path.Keyed after) : before.Keeps after where
  objects := grown.objects
  supplied := grown.supplied
  returns _ _ := grown.returns
  columns _ member := (grown.mem_columns member).imp_right And.left
  named _ := grown.mem_named

/-- A nested query takes the place of a field, and stands for no column. -/
theorem mem_fields_replaceNested {statement : Statement Query} {index : Nat} {query : Query}
    {field : Field Query} (member : field ∈ (statement.replaceNested index query).fields) :
    field ∈ statement.fields ∨ field.kind = .subquery query := by
  obtain ⟨place, present⟩ := List.getElem?_of_mem member
  simp only [replaceNested, List.getElem?_modify] at present
  obtain ⟨own, found, rfl⟩ := Option.map_eq_some_iff.1 present
  by_cases same : index = place
  · exact .inr (by simp [same])
  · rw [if_neg same]
    exact .inl (List.mem_of_getElem? found)

theorem keeps_replaceNested (statement : Statement Query) (index : Nat) (query : Query) :
    statement.Keeps (statement.replaceNested index query) := by
  refine .of_objects rfl (fun column member => ?_) fun named member => ?_
  · refine mem_columns_iff.2 ((mem_columns_iff.1 member).imp_left fun selected => ?_)
    obtain ⟨field, given, reads⟩ := Field.mem_allColumns.1 selected
    rcases mem_fields_replaceNested given with own | kind
    · exact Field.mem_allColumns.2 ⟨field, own, reads⟩
    · simp [Field.columns_eq, kind, Field.kindColumns] at reads
  · obtain ⟨field, given, holds⟩ := Field.mem_allNamed.1 member
    refine Field.mem_allNamed.2 ⟨field, ?_, holds⟩
    refine mem_everyField_iff.2 ((mem_everyField_iff.1 given).imp_left fun selected => ?_)
    refine (mem_fields_replaceNested selected).resolve_right fun kind => ?_
    simp [Field.named_eq, kind, Field.kindNamed] at holds

end Statement

end ObjectQuery
