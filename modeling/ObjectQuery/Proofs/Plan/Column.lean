import ObjectQuery.Plan.ColumnIndex
import ObjectQuery.Proofs.Compiler.Step
import ObjectQuery.Proofs.Query.Alike
import ObjectQuery.Proofs.Resolution.Nested

namespace ObjectQuery

/-!
Giving columns their places. A place that is given stays, and the query around a
list of related rows grows by the columns that are fetched from it.
-/

namespace SourceObject

/-- The query of the object returns a column with the key at the place. -/
def Returns (object : SourceObject Query) (index : Nat) (key : String) : Prop :=
  ∃ plan field, object.plan = some plan ∧ plan.body.fields[index]? = some field ∧ field.key = key

end SourceObject

namespace Statement

/-- Some object of the statement returns a column with the key at the place. -/
def Returns (statement : Statement Query) (index : Nat) (key : String) : Prop :=
  ∃ object ∈ statement.objects, object.Returns index key

end Statement

namespace Correlation

/-- How a list of objects changes when a column is fetched from one of them. -/
inductive Fetches (objectKey : String) (column : Field Query) :
    List (SourceObject Query) → List (SourceObject Query) → Field Query → Prop where
  | here {object : SourceObject Query} {plan : Query} (rest : List (SourceObject Query))
      (key : object.key = objectKey) (planned : object.plan = some plan) :
      Fetches objectKey column (object :: rest)
        ({ object with
            plan := some ⟨{ plan.body with
              fields := plan.body.fields ++
                [{ column with
                    columnIndex := some plan.body.fields.length, notSelected := true }] }⟩ } ::
          rest)
        { column with columnIndex := some plan.body.fields.length, notSelected := true }
  | later {object : SourceObject Query} {rest others : List (SourceObject Query)}
      {fetched : Field Query} (fetches : Fetches objectKey column rest others fetched) :
      Fetches objectKey column (object :: rest) (object :: others) fetched

theorem fetches_of_fetch? {objectKey : String} {column fetched : Field Query}
    {objects fetching : List (SourceObject Query)}
    (found : fetch? objectKey column objects = some (fetching, fetched)) :
    Fetches objectKey column objects fetching fetched := by
  induction objects generalizing fetching with
  | nil => cases found
  | cons object rest induction =>
      unfold fetch? at found
      split at found
      · rename_i key
        obtain ⟨plan, planned, pair⟩ := Option.map_eq_some_iff.1 found
        cases pair
        exact .here rest (by simpa using key) planned
      · obtain ⟨⟨others, inner⟩, later, pair⟩ := Option.map_eq_some_iff.1 found
        cases pair
        exact .later (induction later)

namespace Fetches

variable {objectKey : String} {column fetched : Field Query}
  {objects fetching : List (SourceObject Query)}

theorem field (fetches : Fetches objectKey column objects fetching fetched) :
    ∃ index, fetched = { column with columnIndex := some index, notSelected := true } := by
  induction fetches with
  | here rest key planned => exact ⟨_, rfl⟩
  | later fetches induction => exact induction

theorem map_bare (fetches : Fetches objectKey column objects fetching fetched) :
    fetching.map SourceObject.bare = objects.map SourceObject.bare := by
  induction fetches with
  | here rest key planned => rfl
  | later fetches induction => rw [List.map_cons, List.map_cons, induction]

/-- What an object returns stays where it is. -/
theorem returns (fetches : Fetches objectKey column objects fetching fetched) {index : Nat}
    {key : String} {object : SourceObject Query} (member : object ∈ objects)
    (given : object.Returns index key) :
    ∃ other ∈ fetching, other.bare = object.bare ∧ other.Returns index key := by
  induction fetches with
  | here rest objectKey planned =>
      rcases List.mem_cons.1 member with rfl | others
      · obtain ⟨plan, field, found, present, fieldKey⟩ := given
        obtain rfl := Option.some.inj (planned.symm.trans found)
        refine ⟨_, List.mem_cons_self, rfl, _, field, rfl, ?_, fieldKey⟩
        rw [List.getElem?_append_left (List.getElem?_eq_some_iff.1 present).1]
        exact present
      · exact ⟨object, List.mem_cons_of_mem _ others, rfl, given⟩
  | later fetches induction =>
      rcases List.mem_cons.1 member with rfl | others
      · exact ⟨object, List.mem_cons_self, rfl, given⟩
      · obtain ⟨other, later, same, returned⟩ := induction others
        exact ⟨other, List.mem_cons_of_mem _ later, same, returned⟩

/-- What is returned in the end was returned before, but for the column. -/
theorem returns_cases (fetches : Fetches objectKey column objects fetching fetched) {index : Nat}
    {key : String} {object : SourceObject Query} (member : object ∈ fetching)
    (given : object.Returns index key) :
    (∃ own ∈ objects, own.Returns index key) ∨ key = column.key := by
  induction fetches with
  | @here own plan rest objectKey planned =>
      rcases List.mem_cons.1 member with rfl | others
      · obtain ⟨_, field, ⟨⟩, present, fieldKey⟩ := given
        rw [List.getElem?_append] at present
        split at present
        · exact .inl ⟨own, List.mem_cons_self, plan, field, planned, present, fieldKey⟩
        · obtain rfl := List.mem_singleton.1 (List.mem_of_getElem? present)
          exact .inr fieldKey.symm
      · exact .inl ⟨object, List.mem_cons_of_mem _ others, given⟩
  | later fetches induction =>
      rcases List.mem_cons.1 member with rfl | others
      · exact .inl ⟨object, List.mem_cons_self, given⟩
      · refine (induction others).imp_left ?_
        rintro ⟨own, before, returned⟩
        exact ⟨own, List.mem_cons_of_mem _ before, returned⟩

theorem returned (fetches : Fetches objectKey column objects fetching fetched) :
    ∃ index, fetched.columnIndex = some index ∧
      ∃ object ∈ fetching, object.key = objectKey ∧ object.Returns index column.key := by
  induction fetches with
  | @here object plan rest key planned =>
      refine ⟨_, rfl, _, List.mem_cons_self, key, _,
        { column with columnIndex := some plan.body.fields.length, notSelected := true }, rfl,
        ?_, rfl⟩
      simp
  | later fetches induction =>
      obtain ⟨index, place, object, member, key, returned⟩ := induction
      exact ⟨index, place, object, List.mem_cons_of_mem _ member, key, returned⟩

end Fetches

end Correlation

namespace Statement

open Correlation (Fetches)

variable {reads : Path → String → Prop}

/-- What a statement becomes when columns are fetched from its objects. -/
inductive Grown (reads : Path → String → Prop) : Statement Query → Statement Query → Prop where
  | refl (statement : Statement Query) : Grown reads statement statement
  | fetch {before after : Statement Query} {path : Path} {column fetched : Field Query}
      {objects : List (SourceObject Query)} (grown : Grown reads before after)
      (kind : column.kind = .column path) (holds : reads path column.key)
      (fetches : Fetches path.parent.key column after.objects objects fetched) :
      Grown reads before { after with objects, fields := after.fields ++ [fetched] }

namespace Grown

variable {before middle after : Statement Query}

theorem trans (first : Grown reads before middle) (second : Grown reads middle after) :
    Grown reads before after := by
  induction second with
  | refl => exact first
  | fetch _ kind holds fetches induction => exact .fetch induction kind holds fetches

theorem mono {weaker : Path → String → Prop} (grown : Grown reads before after)
    (weaken : ∀ path key, reads path key → weaker path key) : Grown weaker before after := by
  induction grown with
  | refl => exact .refl _
  | fetch _ kind holds fetches induction => exact .fetch induction kind (weaken _ _ holds) fetches

/-- Only fields and the queries of objects are added to. -/
theorem frame (grown : Grown reads before after) :
    after = { before with fields := after.fields, objects := after.objects } := by
  induction grown with
  | refl => rfl
  | @fetch after _ _ _ _ _ _ _ _ induction => rw [induction]

theorem objects (grown : Grown reads before after) :
    after.objects.map SourceObject.bare = before.objects.map SourceObject.bare := by
  induction grown with
  | refl => rfl
  | fetch _ _ _ fetches induction => exact fetches.map_bare.trans induction

/-- The fields of a statement keep their places, and what is added nests no queries. -/
theorem nestedAt (grown : Grown reads before after) (index : Nat) :
    Query.nestedAt? after index = Query.nestedAt? before index := by
  induction grown with
  | refl => rfl
  | @fetch grown path column fetched objects _ kind _ fetches induction =>
      rw [← induction]
      obtain ⟨place, rfl⟩ := fetches.field
      simp only [Query.nestedAt?, List.getElem?_append]
      split
      · rfl
      · rename_i beyond
        rw [List.getElem?_eq_none (by omega : grown.fields.length ≤ index)]
        cases index - grown.fields.length <;> simp [kind, FieldKind.query?]

theorem returns (grown : Grown reads before after) {index : Nat} {key : String}
    (given : before.Returns index key) : after.Returns index key := by
  induction grown with
  | refl => exact given
  | fetch _ _ _ fetches induction =>
      obtain ⟨object, member, returned⟩ := induction
      obtain ⟨other, later, _, returned⟩ := fetches.returns member returned
      exact ⟨other, later, returned⟩

end Grown

end Statement

namespace Correlation

open Statement (Grown)

variable {reads : Path → String → Prop} {before middle after : Correlation} {depth : Nat}
  {column : Field Query}

/-- What giving places to columns makes of what is known. -/
structure Extends (reads : Path → String → Prop) (before after : Correlation) : Prop where
  indexes : ∀ key index, before.indexes.find? key = some index →
    after.indexes.find? key = some index
  fetched : ∀ key index, after.indexes.find? key = some index →
    before.indexes.find? key = some index ∨
      ¬before.indexes.contains key ∧ ∃ parent ∈ after.parent, parent.Returns index key
  /-- Columns are fetched under keys that have no places before. -/
  added : ∀ parent ∈ after.parent, ∀ key index, parent.Returns index key →
    (∃ own ∈ before.parent, own.Returns index key) ∨
      ¬before.indexes.contains key ∧ after.indexes.contains key
  parent : Option.Rel (Grown reads) before.parent after.parent
  isCorrelated : before.isCorrelated = true → after.isCorrelated = true

theorem rel_refl (parent : Option (Statement Query)) : Option.Rel (Grown reads) parent parent := by
  cases parent with
  | none => exact .none
  | some statement => exact .some (.refl statement)

theorem rel_mono {weaker : Path → String → Prop} {parent around : Option (Statement Query)}
    (grown : Option.Rel (Grown reads) parent around)
    (weaken : ∀ path key, reads path key → weaker path key) :
    Option.Rel (Grown weaker) parent around := by
  cases grown with
  | none => exact .none
  | some grown => exact .some (grown.mono weaken)

theorem Extends.refl (correlation : Correlation) : Extends reads correlation correlation where
  indexes _ _ found := found
  fetched _ _ found := .inl found
  added parent present _ _ returned := .inl ⟨parent, present, returned⟩
  parent := rel_refl correlation.parent
  isCorrelated correlated := correlated

theorem Extends.contains (extended : Extends reads before after) {key : String}
    (known : before.indexes.contains key) : after.indexes.contains key := by
  obtain ⟨index, found⟩ := SortedMap.contains_iff.1 known
  exact SortedMap.contains_iff.2 ⟨index, extended.indexes key index found⟩

theorem Extends.trans (first : Extends reads before middle)
    (second : Extends reads middle after) : Extends reads before after where
  indexes key index found := second.indexes key index (first.indexes key index found)
  fetched key index found := by
    rcases second.fetched key index found with known | fetched
    · refine (first.fetched key index known).imp_right (And.imp_right ?_)
      rintro ⟨parent, present, returned⟩
      have grows := second.parent
      rw [Option.mem_def.1 present] at grows
      generalize after.parent = around at grows ⊢
      cases grows with
      | some grown => exact ⟨_, rfl, grown.returns returned⟩
    · exact .inr (fetched.imp_left (mt first.contains))
  added parent present key index returned := by
    rcases second.added parent present key index returned with ⟨own, given, returned⟩ | added
    · exact (first.added own given key index returned).imp_right (And.imp_right second.contains)
    · exact .inr (added.imp_left (mt first.contains))
  parent := by
    have left := first.parent
    have right := second.parent
    generalize before.parent = earlier at left ⊢
    generalize after.parent = later at right ⊢
    generalize middle.parent = between at left right
    cases left with
    | none =>
        cases right
        exact .none
    | some grown =>
        cases right with
        | some growing => exact .some (grown.trans growing)
  isCorrelated correlated := second.isCorrelated (first.isCorrelated correlated)

/-- A column with the place that its key has, if its key has one. -/
def Placed (before : Correlation) (column : Field Query) : Prop :=
  ∀ index, before.indexes.find? column.key = some index → column.columnIndex = some index

/-- A column of an object around the query has a place, and the query is known to read it. -/
def Correlates (depth : Nat) (after : Correlation) (column : Field Query) : Prop :=
  ∀ path, column.kind = .column path → path.length ≤ depth →
    after.isCorrelated = true ∧
      ∃ index, column.columnIndex = some index ∧ after.indexes.find? column.key = some index

theorem Placed.earlier (placed : Placed middle column) (grows : Extends reads before middle) :
    Placed before column :=
  fun index found => placed index (grows.indexes _ _ found)

theorem Correlates.later (correlates : Correlates depth middle column)
    (grows : Extends reads middle after) : Correlates depth after column := by
  intro path kind short
  obtain ⟨correlated, index, place, found⟩ := correlates path kind short
  exact ⟨grows.isCorrelated correlated, index, place, grows.indexes _ _ found⟩

theorem fetchFromParent_meets {path : Path} (kind : column.kind = .column path)
    (holds : reads path column.key) (absent : before.indexes.find? column.key = none) :
    Step.Meets (fetchFromParent column) before fun place after =>
      Extends reads before after ∧ after.isCorrelated = before.isCorrelated ∧
        ∃ index, place = some index ∧ after.indexes.find? column.key = some index := by
  refine .get_bind ?_
  dsimp only
  split
  · exact .throw trivial
  · rename_i around fetched fetching
    obtain ⟨parent, present, inner⟩ := Option.bind_eq_some_iff.1 fetching
    obtain ⟨⟨objects, found⟩, fetch, pair⟩ := Option.bind_eq_some_iff.1 inner
    cases pair
    rw [kind] at fetch
    have fetches := fetches_of_fetch? fetch
    obtain ⟨index, place, object, member, _, returned⟩ := fetches.returned
    have unknown : ¬before.indexes.contains column.key := by simp [SortedMap.contains, absent]
    refine .set_bind (.pure ⟨⟨?_, ?_, ?_, ?_, fun correlated => correlated⟩, rfl, ?_⟩)
    · intro key other known
      have apart : column.key ≠ key := by
        rintro rfl
        simp [absent] at known
      rwa [SortedMap.find?_insert_of_ne _ _ apart]
    · intro key other known
      by_cases same : column.key = key
      · subst same
        rw [SortedMap.find?_insert_self, place] at known
        cases known
        exact .inr ⟨unknown, _, rfl, object, member, returned⟩
      · rw [SortedMap.find?_insert_of_ne _ _ same] at known
        exact .inl known
    · rintro _ ⟨⟩ key other ⟨own, later, returned⟩
      rcases fetches.returns_cases later returned with ⟨own, given, returned⟩ | rfl
      · exact .inl ⟨parent, present, own, given, returned⟩
      · exact .inr ⟨unknown, (SortedMap.contains_insert ..).2 (.inl rfl)⟩
    · rw [present]
      exact .some (.fetch (.refl parent) kind holds fetches)
    · exact ⟨_, rfl, SortedMap.find?_insert_self ..⟩

theorem columnIndex_meets {path : Path} (kind : column.kind = .column path)
    (holds : reads path column.key) (before : Correlation) (depth : Nat) :
    Step.Meets (columnIndex depth path column) before fun columnIndex after =>
      Extends reads before after ∧ Placed before { column with columnIndex } ∧
        Correlates depth after { column with columnIndex } := by
  refine .get_bind ?_
  refine .ite (fun short => .modify_bind ?_) fun long => ?_
  · cases found : before.indexes.find? column.key with
    | some index =>
        refine .pure ⟨{ Extends.refl before with isCorrelated := fun _ => rfl }, ?_, ?_⟩
        · intro other known
          exact found.symm.trans known
        · intro _ _ _
          exact ⟨rfl, index, rfl, found⟩
    | none =>
        have absent : ({ before with isCorrelated := true } : Correlation).indexes.find?
          column.key = none := found
        refine (fetchFromParent_meets kind holds absent).mono ?_
        rintro place after ⟨grows, same, index, rfl, known⟩
        refine ⟨⟨grows.indexes, grows.fetched, grows.added, grows.parent, fun _ => same⟩, ?_, ?_⟩
        · intro other impossible
          have known : before.indexes.find? column.key = some other := impossible
          simp [found] at known
        · intro _ _ _
          exact ⟨same, index, rfl, known⟩
  · refine .pure ⟨Extends.refl before, fun _ known => known, ?_⟩
    intro other columnKind short
    cases kind.symm.trans columnKind
    exact absurd short long

/-- What giving places to the columns of fields makes of them. -/
structure Indexes (reads : Path → String → Prop) (depth : Nat) (before after : Correlation)
    (columns : List (Field Query)) : Prop where
  grows : Extends reads before after
  placed : ∀ column ∈ columns, Placed before column
  correlates : ∀ column ∈ columns, Correlates depth after column

theorem Indexes.none (correlation : Correlation) : Indexes reads depth correlation correlation [] :=
  ⟨Extends.refl correlation, by simp, by simp⟩

theorem Indexes.append {left right : List (Field Query)}
    (first : Indexes reads depth before middle left)
    (second : Indexes reads depth middle after right) :
    Indexes reads depth before after (left ++ right) where
  grows := first.grows.trans second.grows
  placed column member := by
    rcases List.mem_append.1 member with member | member
    · exact first.placed column member
    · exact (second.placed column member).earlier first.grows
  correlates column member := by
    rcases List.mem_append.1 member with member | member
    · exact (first.correlates column member).later second.grows
    · exact second.correlates column member

mutual

theorem indexField_meets (depth : Nat) : (field : Field Query) →
    Field.AllRead reads field.columns → (before : Correlation) →
    Step.Meets (indexField depth field) before fun indexed after =>
      indexed.bare = field.bare ∧ Indexes reads depth before after indexed.columns
  | ⟨kind, aliasName, notSelected, aggregated, key, columnId, columnIndex⟩, holds, before => by
      unfold indexField
      exact indexKind_meets depth kind _ rfl holds before

theorem indexKind_meets (depth : Nat) : (kind : FieldKind Query) → (field : Field Query) →
    field.kind = kind → Field.AllRead reads (Field.kindColumns kind field) →
    (before : Correlation) →
    Step.Meets (indexKind depth kind field) before fun indexed after =>
      indexed.bare = field.bare ∧ Indexes reads depth before after indexed.columns
  | .column path, field, same, holds, before => by
      unfold indexKind
      have given := holds field (List.mem_singleton_self field) path same
      refine (columnIndex_meets same given before depth).bind ?_
      rintro columnIndex after ⟨grows, placed, correlates⟩
      refine .pure ?_
      have reading : ({ field with columnIndex } : Field Query).columns =
          [{ field with columnIndex }] := by
        rw [Field.columns_eq, same]
        rfl
      rw [reading]
      exact ⟨by rw [Field.bare_eq, Field.bare_eq], grows, by simpa using placed,
        by simpa using correlates⟩
  | .call name arguments, field, same, holds, before => by
      unfold indexKind
      refine (indexAll_meets depth arguments holds before).bind ?_
      rintro indexed after ⟨alike, indexes⟩
      refine .pure ⟨?_, ?_⟩
      · rw [Field.bare_eq, Field.bare_eq, same, FieldKind.bare, FieldKind.bare,
          Field.allBare_eq_map, Field.allBare_eq_map, alike]
      · rwa [Field.columns_eq]
  | .fieldSet _, field, same, _, before | .subquery _, field, same, _, before
  | .literal _, field, same, _, before | .parameter _, field, same, _, before
  | .relativeDate _, field, same, _, before => by
      unfold indexKind
      refine .pure ⟨rfl, ?_⟩
      rw [Field.columns_eq, same]
      exact .none before

theorem indexAll_meets (depth : Nat) : (fields : List (Field Query)) →
    Field.AllRead reads (Field.allColumns fields) → (before : Correlation) →
    Step.Meets (indexAll depth fields) before fun indexed after =>
      indexed.map Field.bare = fields.map Field.bare ∧
        Indexes reads depth before after (Field.allColumns indexed)
  | [], _, before => .pure ⟨rfl, .none before⟩
  | field :: rest, holds, before => by
      unfold indexAll
      simp only [Field.allColumns, Field.allRead_append] at holds
      refine (indexField_meets depth field holds.1 before).bind ?_
      rintro first middle ⟨same, indexes⟩
      refine (indexAll_meets depth rest holds.2 middle).bind ?_
      rintro others after ⟨alike, more⟩
      refine .pure ⟨?_, indexes.append more⟩
      rw [List.map_cons, List.map_cons, same, alike]

end

theorem indexAll_keeps_labels (depth : Nat) (fields : List (Field Query)) :
    Step.Yields (fun _ => True) (indexAll depth fields) fun indexed =>
      indexed.map (fun field => (field.aliasName, field.columnId)) =
        fields.map fun field => (field.aliasName, field.columnId) := by
  induction fields with
  | nil => exact .pure rfl
  | cons field rest induction =>
      have first : Step.Yields (fun _ => True) (indexField depth field) fun indexed =>
          (indexed.aliasName, indexed.columnId) = (field.aliasName, field.columnId) := by
        obtain ⟨kind, aliasName, notSelected, aggregated, key, columnId, columnIndex⟩ := field
        unfold indexField
        cases kind with
        | column _ | call _ _ =>
            unfold indexKind
            exact .after fun _ => .pure rfl
        | _ =>
            unfold indexKind
            exact .pure rfl
      unfold indexAll
      exact first.bind fun _ same => induction.bind fun _ alike =>
        .pure (congrArg₂ List.cons same alike)

/-- What giving places to columns makes of them where they are not looked for around. -/
structure Places (reads : Path → String → Prop) (before after : Correlation)
    (columns : List (Field Query)) : Prop where
  grows : Extends reads before after
  placed : ∀ column ∈ columns, Placed before column

theorem Indexes.places {columns : List (Field Query)}
    (indexes : Indexes reads depth before after columns) : Places reads before after columns :=
  ⟨indexes.grows, indexes.placed⟩

theorem Places.append {left right : List (Field Query)} (first : Places reads before middle left)
    (second : Places reads middle after right) : Places reads before after (left ++ right) where
  grows := first.grows.trans second.grows
  placed column member := by
    rcases List.mem_append.1 member with member | member
    · exact first.placed column member
    · exact (second.placed column member).earlier first.grows

theorem placed_index (correlation : Correlation) (field : Field Query) :
    Placed correlation { field with columnIndex := correlation.indexes.find? field.key } :=
  fun _ found => found

theorem indexOperand_meets (depth : Nat) (field : Field Query)
    (holds : Field.AllRead reads field.columns) (before : Correlation) :
    Step.Meets (indexOperand depth field) before fun indexed after =>
      indexed.bare = field.bare ∧ Places reads before after indexed.columns := by
  unfold indexOperand
  split
  · rename_i path kind
    refine .get_bind (.pure ⟨by rw [Field.bare_eq, Field.bare_eq], .refl before, ?_⟩)
    have reading : ({ field with columnIndex := before.indexes.find? field.key } :
        Field Query).columns = [{ field with columnIndex := before.indexes.find? field.key }] := by
      rw [Field.columns_eq, kind]
      rfl
    rw [reading]
    simpa using placed_index before field
  · rename_i name arguments kind
    rw [Field.columns_eq, kind] at holds
    refine (indexAll_meets depth arguments holds before).bind ?_
    rintro indexed after ⟨alike, indexes⟩
    refine .pure ⟨?_, ?_⟩
    · rw [Field.bare_eq, Field.bare_eq, kind, FieldKind.bare, FieldKind.bare,
        Field.allBare_eq_map, Field.allBare_eq_map, alike]
    · rw [Field.columns_eq]
      exact indexes.places
  · rename_i noColumn noCall
    refine .pure ⟨rfl, .refl before, ?_⟩
    rw [Field.columns_eq]
    cases kind : field.kind with
    | column path => exact absurd kind (noColumn path)
    | call name arguments => exact absurd kind (noCall name arguments)
    | _ => simp [Field.kindColumns]

theorem indexConditions_meets (depth : Nat) (conditions : List (Condition (Field Query)))
    (holds : Field.AllRead reads (Field.allColumns (conditions.filterMap Condition.operand?)))
    (before : Correlation) :
    Step.Meets (indexConditions depth conditions) before fun indexed after =>
      indexed.map (Condition.map Field.bare) = conditions.map (Condition.map Field.bare) ∧
        Places reads before after (Field.allColumns (indexed.filterMap Condition.operand?)) := by
  let reached (results : List (Condition (Field Query))) (state : Correlation) : Prop :=
    Places reads before state (Field.allColumns (results.filterMap Condition.operand?))
  have begins : reached [] before := ⟨.refl before, by simp [Field.allColumns]⟩
  have keeps : ∀ indexed after, List.Forall₂ (fun entry result : Condition (Field Query) =>
      result.map Field.bare = entry.map Field.bare) conditions indexed ∧ reached indexed after →
      indexed.map (Condition.map Field.bare) = conditions.map (Condition.map Field.bare) ∧
        reached indexed after :=
    fun indexed after => And.imp_left Step.map_eq_of_forall₂
  unfold indexConditions
  refine (Step.Meets.mapM reached begins ?_).mono keeps
  intro entry member results state places
  cases entry with
  | operand field =>
      have reading : Field.AllRead reads field.columns := fun column reads =>
        holds column (Field.mem_allColumns.2
          ⟨field, List.mem_filterMap.2 ⟨_, member, rfl⟩, reads⟩)
      refine (indexOperand_meets depth field reading state).bind ?_
      rintro indexed after ⟨same, more⟩
      refine .pure ⟨congrArg Condition.operand same, ?_⟩
      have both := Places.append places more
      simpa [reached, List.filterMap_append, Field.allColumns_eq_flatMap, Condition.operand?]
        using both
  | noop | unknown | operator op =>
      refine .pure ⟨rfl, ?_⟩
      simp only [reached, List.filterMap_append]
      change Places _ _ _ (Field.allColumns (_ ++ []))
      rwa [List.append_nil]

theorem indexOrderKeys_meets (orders : List (OrderKey Query)) (before : Correlation) :
    Step.Meets (orders.mapM indexOrderKey) before fun indexed after =>
      after = before ∧ indexed.map (·.field.bare) = orders.map (·.field.bare) ∧
        ∀ order ∈ indexed, Placed before order.field := by
  let reached (results : List (OrderKey Query)) (state : Correlation) : Prop :=
    state = before ∧ ∀ order ∈ results, Placed before order.field
  have begins : reached [] before := ⟨rfl, by simp⟩
  have each : ∀ order ∈ orders, ∀ results state, reached results state →
      Step.Meets (indexOrderKey order) state fun indexed after =>
        indexed.field.bare = order.field.bare ∧ reached (results ++ [indexed]) after := by
    rintro order _ results state ⟨rfl, placed⟩
    refine .get_bind (.pure ⟨by rw [Field.bare_eq, Field.bare_eq], rfl, ?_⟩)
    simp only [List.forall_mem_append, List.forall_mem_singleton]
    exact ⟨placed, placed_index state order.field⟩
  refine (Step.Meets.mapM reached begins each).mono ?_
  rintro indexed after ⟨alike, same, placed⟩
  exact ⟨same, Step.map_eq_of_forall₂ alike, placed⟩

end Correlation

namespace Statement

open Correlation

/-- The length of the path of the first object. -/
def primaryLength (statement : Statement Q) : Nat :=
  (statement.objects.head?.map (·.path.length)).getD 0

/-- What giving places to the columns of a statement makes of it. -/
structure Indexed (reads : Path → String → Prop) (statement indexed : Statement Query)
    (before after : Correlation) : Prop where
  alike : statement.Alike indexed
  labels : indexed.fields.map (fun field => (field.aliasName, field.columnId)) =
    statement.fields.map fun field => (field.aliasName, field.columnId)
  objects : indexed.objects = statement.objects
  grows : Extends reads before after
  correlated : after.isCorrelated = true → indexed.isCorrelated = true
  placed : ∀ column ∈ indexed.columns, Placed before column
  /-- Columns of objects around the statement have places, for some field reads them. -/
  correlates : ∀ column ∈ indexed.columns, ∀ field ∈ Field.allColumns indexed.fields,
    field.key = column.key → ∀ own path, column.kind = .column own → field.kind = .column path →
    own.length ≤ indexed.primaryLength → path.length ≤ indexed.primaryLength →
    indexed.isCorrelated = true ∧
      ∃ index, column.columnIndex = some index ∧ after.indexes.find? column.key = some index

theorem indexStatement_meets {reads : Path → String → Prop} {statement : Statement Query}
    (holds : Field.AllRead reads statement.columns) (before : Correlation) :
    Step.Meets (indexStatement statement) before fun indexed after =>
      Indexed reads statement indexed before after := by
  simp only [columns, Field.allRead_append] at holds
  obtain ⟨⟨⟨⟨fieldsHold, filterHolds⟩, groupByHolds⟩, havingHolds⟩, _⟩ := holds
  refine ((indexAll_meets _ statement.fields fieldsHold before).and
    ((indexAll_keeps_labels _ statement.fields).meets trivial)).bind ?_
  rintro fields selecting ⟨⟨fieldsAlike, selected⟩, labels, _⟩
  refine (indexOrderKeys_meets statement.orderBy selecting).bind ?_
  rintro orderBy middle ⟨same, ordersAlike, ordered⟩
  subst same
  refine ((indexAll_meets _ statement.groupBy groupByHolds middle).and
    ((indexAll_keeps_labels _ statement.groupBy).meets trivial)).bind ?_
  rintro groupBy grouping ⟨⟨keysAlike, grouped⟩, keyLabels, _⟩
  refine (indexConditions_meets _ statement.filter filterHolds grouping).bind ?_
  rintro filter filtering ⟨filterAlike, filtered⟩
  refine (indexConditions_meets _ statement.having havingHolds filtering).bind ?_
  rintro having after ⟨havingAlike, restricted⟩
  refine .get_bind (.pure ?_)
  -- Places are given clause by clause, so each clause knows those of the ones before.
  have toFilter := grouped.grows
  have toHaving := toFilter.trans filtered.grows
  have toEnd := toHaving.trans restricted.grows
  have others : ∀ column, column ∈ Field.allColumns (filter.filterMap Condition.operand?) ∨
      column ∈ Field.allColumns groupBy ∨
      column ∈ Field.allColumns (having.filterMap Condition.operand?) ∨
      column ∈ orderBy.map (·.field) → Placed middle column := by
    rintro column (member | member | member | member)
    · exact (filtered.placed column member).earlier toFilter
    · exact grouped.placed column member
    · exact (restricted.placed column member).earlier toHaving
    · obtain ⟨order, given, rfl⟩ := List.mem_map.1 member
      exact ordered order given
  have aliases := congrArg (List.map Prod.fst) keyLabels
  rw [List.map_map, List.map_map] at aliases
  refine {
    alike := ⟨rfl, rfl, fieldsAlike, rfl, filterAlike, keysAlike, aliases, rfl, havingAlike,
      ordersAlike, rfl⟩
    labels := labels
    objects := rfl
    grows := selected.grows.trans toEnd
    correlated := fun correlated => by simp [correlated]
    placed := ?_
    correlates := ?_ }
  · intro column member
    rcases columns_cases member with fields | other
    · exact selected.placed column fields
    · exact (others column other).earlier selected.grows
  · intro column member field reads key own path columnKind fieldKind short fieldShort
    rcases columns_cases member with fields | other
    · obtain ⟨correlated, index, place, found⟩ :=
        (selected.correlates column fields).later toEnd own columnKind short
      exact ⟨by simp [correlated], index, place, found⟩
    -- Other clauses need not look around, for the field found the place before.
    · obtain ⟨_, index, _, found⟩ := selected.correlates field reads path fieldKind fieldShort
      obtain ⟨correlated, _, _, kept⟩ :=
        (selected.correlates field reads).later toEnd path fieldKind fieldShort
      rw [key] at found
      exact ⟨by simp [correlated], index, others column other index found,
        toEnd.indexes _ _ found⟩

end Statement

end ObjectQuery
