import ObjectQuery.Proofs.Compiler.Identity
import ObjectQuery.Proofs.Compiler.Trace

namespace ObjectQuery

/-!
What the aliases of selected fields denote in a compiled query. A key of groups or
a sort key with the name of one stands for the column or the call that has it.
-/

open Ledger (Consistent Sound)

namespace Field

variable {Q : Type}

/--
The field is the same column as the item, with its number, or the same call, with
the numbers of the columns in it. Calls have numbers that they share with no other.
-/
structure Denotes (field item : Field Q) : Prop where
  column : item.kind.isColumn = true → field.kind = item.kind ∧ field.columnId = item.columnId
  call : item.kind.isCall = true → field.kind.bare = item.kind.bare ∧
    field.columns.map mark = item.columns.map mark ∧
    ∀ id, item.columnId = some id → field.columnId ≠ some id

section

variable {ledger : Ledger} {marks : List Mark}

/-- Columns that look the same have the same number. -/
theorem mark_eq_of_bare (sound : ledger.Sound) (consistent : ledger.Consistent marks)
    {column other : Field Q} (member : column.mark ∈ marks) (memberToo : other.mark ∈ marks)
    (isColumn : column.kind.isColumn = true) (same : other.bare = column.bare) :
    other.mark = column.mark := by
  have kind : other.kind.isColumn = column.kind.isColumn := by
    simpa using congrArg (·.kind.isColumn) same
  have key : other.key = column.key := by simpa using congrArg Field.key same
  have id : other.columnId = column.columnId :=
    (sound.id_eq_iff consistent consistent memberToo member (kind.trans isColumn) isColumn).2 key
  rw [mark, mark, kind, key, id]

theorem map_mark_of_bare (sound : ledger.Sound) (consistent : ledger.Consistent marks)
    {columns others : List (Field Q)} (members : ∀ column ∈ columns, column.mark ∈ marks)
    (membersToo : ∀ other ∈ others, other.mark ∈ marks)
    (isColumn : ∀ column ∈ columns, column.kind.isColumn = true)
    (same : others.map bare = columns.map bare) : others.map mark = columns.map mark := by
  induction columns generalizing others with
  | nil => rw [List.map_eq_nil_iff.1 same]
  | cons column rest induction =>
      obtain ⟨other, later, rfl, alike, sameLater⟩ := List.map_eq_cons_iff.1 same
      rw [List.forall_mem_cons] at members membersToo isColumn
      rw [List.map_cons, List.map_cons, induction members.2 membersToo.2 isColumn.2 sameLater,
        mark_eq_of_bare sound consistent members.1 membersToo.1 isColumn.1 alike]

theorem denotes_of_bare (sound : ledger.Sound) (consistent : ledger.Consistent marks)
    {field item : Field Q} (subset : field.marks ⊆ marks) (itemSubset : item.marks ⊆ marks)
    (apart : item.mark.Apart field.mark) (same : field.bare = item.bare) :
    field.Denotes item := by
  have columns (column : Field Q) (member : column ∈ field.columns) : column.mark ∈ marks :=
    subset (field.mark_mem_marks column member)
  have itemColumns (column : Field Q) (member : column ∈ item.columns) : column.mark ∈ marks :=
    itemSubset (item.mark_mem_marks column member)
  refine ⟨fun isColumn => ?_, fun isCall => ⟨?_, ?_, fun id given shared => ?_⟩⟩
  · obtain ⟨path, kind⟩ := exists_eq_column isColumn
    refine ⟨(kind_eq_column_of_bare same.symm kind).trans kind.symm, ?_⟩
    exact congrArg Mark.id (mark_eq_of_bare sound consistent (itemSubset item.mark_mem)
      (subset field.mark_mem) isColumn same)
  · rw [← kind_bare, ← kind_bare, same]
  · refine map_mark_of_bare sound consistent itemColumns columns item.isColumn_of_mem_columns ?_
    rw [← columns_bare, ← columns_bare, same]
  · have isColumn : item.kind.isColumn = true := (apart id given shared).1
    cases kind : item.kind <;> simp [kind, FieldKind.isColumn, FieldKind.isCall] at isColumn isCall

end

theorem marks_subset_allMarks {fields : List (Field Q)} {field : Field Q}
    (member : field ∈ fields) : field.marks ⊆ allMarks fields := by
  rw [allMarks_eq_flatMap]
  exact fun mark marked => List.mem_flatMap.2 ⟨field, member, marked⟩

/-- The field at the place is a name without an object. -/
def Writes (fields : List (Field Q)) (place : Nat) (name : String) : Prop :=
  ∃ field, fields[place]? = some field ∧ field.kind = .column [name]

end Field

namespace Statement

variable {before after statement : Statement Query} {ledger : Ledger}

/--
What keys denote that are written as aliases of selected fields. Where these are
columns or calls, keys that stay with them denote them, no two of them one column.
-/
structure KeysDenote (before after : Statement Query) (written keys : List (Field Query))
    (stays : Nat → String → Prop) : Prop where
  denotes : ∀ place name index, Field.Writes written place name → before.Aliases name index →
    ∃ item, after.fields[index]? = some item ∧
      (item.kind.isColumn = true ∨ item.kind.isCall = true → stays place name →
        ∃ key, keys[place]? = some key ∧ key.Denotes item)
  once : ∀ place other name otherName index item, Field.Writes written place name →
    Field.Writes written other otherName → before.Aliases name index →
    before.Aliases otherName index → after.fields[index]? = some item →
    item.kind.isColumn = true → stays place name → stays other otherName → place = other

/--
The key of groups at the place is a column with the name, in an object whose path
is longer or shorter than that of the primary object.
-/
def Strays (statement : Statement Query) (place : Nat) (name : String) : Prop :=
  ∃ key, ∃ object : Path, statement.groupBy[place]? = some key ∧
    key.kind = .column (object ++ [name]) ∧ object.length ≠ statement.primary.length

/-- Keys of groups that do not stray, and sort keys, denote the fields whose aliases they name. -/
structure Denotes (before after : Statement Query) : Prop where
  groupBy : KeysDenote before after before.groupBy after.groupBy
    fun place name => ¬after.Strays place name
  orderBy : KeysDenote before after (before.orderBy.map (·.field)) (after.orderBy.map (·.field))
    fun _ _ => True

/-- Keys that look like a selected field denote it. -/
theorem denotes_of_mem (sound : ledger.Sound) (consistent : ledger.Consistent statement.marks)
    (apart : statement.marks.Pairwise Mark.Apart) {key item : Field Query}
    (member : item ∈ statement.fields)
    (given : key ∈ statement.groupBy ++ statement.orderBy.map (·.field))
    (same : key.bare = item.bare) : key.Denotes item := by
  have selected := Field.marks_subset_allMarks member
  have keys := Field.marks_subset_allMarks given
  rw [marks_eq, List.append_assoc, List.append_assoc, List.append_assoc] at apart consistent
  have subset : Field.allMarks (statement.groupBy ++ statement.orderBy.map (·.field)) ⊆
      Field.allMarks (statement.filter.filterMap Condition.operand?) ++
        (Field.allMarks statement.groupBy ++
          (Field.allMarks (statement.having.filterMap Condition.operand?) ++
            Field.allMarks (statement.orderBy.map (·.field)))) := by
    intro mark
    simp only [Field.allMarks_append, List.mem_append]
    rintro (group | order)
    · exact .inr (.inl group)
    · exact .inr (.inr (.inr order))
  refine Field.denotes_of_bare sound consistent ?_ ?_ ?_ same
  · exact fun mark marked => List.mem_append_right _ (subset (keys marked))
  · exact fun mark marked => List.mem_append_left _ (selected marked)
  · obtain ⟨_, _, others⟩ := List.pairwise_append.1 apart
    exact others _ (selected item.mark_mem) _ (subset (keys key.mark_mem))

/-- Keys that all have different numbers do not denote one column twice. -/
theorem KeysDenote.of_nodup {written keys : List (Field Query)} {stays : Nat → String → Prop}
    (apart : (keys.map (·.columnId)).Nodup)
    (denotes : ∀ place name index, Field.Writes written place name → before.Aliases name index →
      ∃ item, after.fields[index]? = some item ∧
        (item.kind.isColumn = true ∨ item.kind.isCall = true → stays place name →
          ∃ key, keys[place]? = some key ∧ key.Denotes item)) :
    KeysDenote before after written keys stays := by
  refine ⟨denotes, ?_⟩
  intro place other name otherName index item named otherNamed aliased otherAliased selected
    isColumn keeps keepsToo
  obtain ⟨_, found, gives⟩ := denotes place name index named aliased
  cases selected.symm.trans found
  obtain ⟨_, found, givesToo⟩ := denotes other otherName index otherNamed otherAliased
  cases selected.symm.trans found
  obtain ⟨key, listed, stands⟩ := gives (.inl isColumn) keeps
  obtain ⟨otherKey, listedToo, standsToo⟩ := givesToo (.inl isColumn) keepsToo
  have same : key.columnId = otherKey.columnId :=
    (stands.column isColumn).2.trans (standsToo.column isColumn).2.symm
  have below : place < (keys.map (·.columnId)).length := by
    rw [List.length_map]
    exact (List.getElem?_eq_some_iff.1 listed).1
  refine (List.getElem?_inj below apart).1 ?_
  rw [List.getElem?_map, List.getElem?_map, listed, listedToo]
  exact congrArg some same

theorem Traces.denotes (traces : before.Traces after) (sound : ledger.Sound)
    (consistent : ledger.Consistent after.marks) (apart : after.marks.Pairwise Mark.Apart) :
    before.Denotes after := by
  have stands {place : Nat} {keys : List (Field Query)} {key item : Field Query}
      (subset : keys ⊆ after.groupBy ++ after.orderBy.map (·.field))
      (listed : keys[place]? = some key) {index : Nat} (selected : after.fields[index]? = some item)
      (same : key.bare = item.bare) : key.Denotes item :=
    denotes_of_mem sound consistent apart (List.mem_of_getElem? selected)
      (subset (List.mem_of_getElem? listed)) same
  refine ⟨.of_nodup traces.keysApart.groupBy ?_, .of_nodup ?_ ?_⟩
  · rintro place name index ⟨own, present, kind⟩ aliased
    obtain ⟨item, selected, gives⟩ := traces.groupBy place own name index present kind aliased
    refine ⟨item, selected, fun kind stays => ?_⟩
    obtain ⟨key, listed, same | ⟨object, column, length⟩⟩ := gives kind
    · exact ⟨key, listed, stands (List.subset_append_left ..) listed selected same⟩
    · exact absurd ⟨key, object, listed, column, length⟩ stays
  · simpa [Function.comp_def] using traces.keysApart.orderBy
  · rintro place name index ⟨own, present, kind⟩ aliased
    rw [List.getElem?_map] at present
    obtain ⟨order, given, rfl⟩ := Option.map_eq_some_iff.1 present
    obtain ⟨item, selected, gives⟩ := traces.orderBy place order name index given kind aliased
    refine ⟨item, selected, fun kind _ => ?_⟩
    obtain ⟨own, listed, same⟩ := gives kind
    have listed : (after.orderBy.map (·.field))[place]? = some own.field := by
      rw [List.getElem?_map, listed, Option.map_some]
    exact ⟨own.field, listed, stands (List.subset_append_right ..) listed selected same⟩

end Statement

namespace CompilerOptions

variable {options : CompilerOptions} {source : String} {date : Instant} {elapsedTime : Nat}
  {query : Query}

-- A key of groups strays where an alias of an object spells the name of the primary one.
example : compilesTo {} "SELECT MAX(Name) n FROM Contact, Account Contact GROUP BY n"
    (fun query => query.body.groupBy.map (·.kind.path?) == [some ["Contact", "Account", "n"]]) =
      true := by
  decide +kernel

end CompilerOptions

end ObjectQuery
