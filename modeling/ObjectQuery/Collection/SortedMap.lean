namespace ObjectQuery

/-! Finite maps whose entries stand in the order of their keys, each key once. -/

/-- A finite map, as its entries in ascending order of keys. -/
structure SortedMap (κ ν : Type) [Ord κ] where
  entries : List (κ × ν)
  sorted : entries.Pairwise fun left right => compare left.1 right.1 = .lt

namespace SortedMap

variable {κ ν : Type} [Ord κ]

theorem eq_of_entries {left right : SortedMap κ ν} (same : left.entries = right.entries) :
    left = right := by
  cases left
  cases right
  simpa using same

def empty : SortedMap κ ν := ⟨[], .nil⟩

instance : Inhabited (SortedMap κ ν) := ⟨empty⟩

instance [DecidableEq κ] [DecidableEq ν] : DecidableEq (SortedMap κ ν) := fun left right =>
  decidable_of_iff (left.entries = right.entries) ⟨eq_of_entries, congrArg entries⟩

def find? (map : SortedMap κ ν) (key : κ) : Option ν :=
  (map.entries.find? fun entry => compare entry.1 key == .eq).map (·.2)

@[simp]
theorem find?_empty (key : κ) : (empty : SortedMap κ ν).find? key = none := rfl

def contains (map : SortedMap κ ν) (key : κ) : Bool :=
  (map.find? key).isSome

theorem contains_iff {map : SortedMap κ ν} {key : κ} :
    map.contains key = true ↔ ∃ value, map.find? key = some value :=
  Option.isSome_iff_exists

def keys (map : SortedMap κ ν) : List κ :=
  map.entries.map (·.1)

theorem mem_keys_iff [Std.LawfulEqOrd κ] {map : SortedMap κ ν} {key : κ} :
    key ∈ map.keys ↔ map.contains key = true := by
  simp [keys, contains, find?]

def erase (map : SortedMap κ ν) (key : κ) : SortedMap κ ν :=
  ⟨map.entries.filter fun entry => compare entry.1 key != .eq, map.sorted.filter _⟩

/-- Ascending entries with one more, which takes the place of one with its key. -/
def insertEntry (key : κ) (value : ν) : List (κ × ν) → List (κ × ν)
  | [] => [(key, value)]
  | entry :: rest =>
      match compare key entry.1 with
      | .lt => (key, value) :: entry :: rest
      | .eq => (key, value) :: rest
      | .gt => entry :: insertEntry key value rest

theorem mem_insertEntry {key : κ} {value : ν} {entries : List (κ × ν)} {entry : κ × ν}
    (member : entry ∈ insertEntry key value entries) :
    entry = (key, value) ∨ entry ∈ entries := by
  induction entries with
  | nil => simpa [insertEntry] using member
  | cons head rest induction =>
      unfold insertEntry at member
      split at member
      · simpa using member
      · rcases List.mem_cons.1 member with same | later
        · exact .inl same
        · exact .inr (List.mem_cons_of_mem _ later)
      · rcases List.mem_cons.1 member with same | later
        · exact .inr (by simp [same])
        · rcases induction later with same | before
          · exact .inl same
          · exact .inr (List.mem_cons_of_mem _ before)

theorem pairwise_insertEntry [Std.TransOrd κ] [Std.LawfulEqOrd κ] (key : κ) (value : ν)
    {entries : List (κ × ν)}
    (sorted : entries.Pairwise fun left right => compare left.1 right.1 = .lt) :
    (insertEntry key value entries).Pairwise fun left right =>
      compare left.1 right.1 = .lt := by
  induction entries with
  | nil => simp [insertEntry]
  | cons head rest induction =>
      obtain ⟨first, later⟩ := List.pairwise_cons.1 sorted
      unfold insertEntry
      split
      · rename_i less
        refine List.pairwise_cons.2 ⟨?_, sorted⟩
        intro entry member
        rcases List.mem_cons.1 member with same | after
        · rw [same]
          exact less
        · exact Std.TransCmp.lt_trans less (first entry after)
      · rename_i equal
        have same : key = head.1 := Std.LawfulEqCmp.eq_of_compare equal
        refine List.pairwise_cons.2 ⟨?_, later⟩
        intro entry member
        simpa [same] using first entry member
      · rename_i greater
        refine List.pairwise_cons.2 ⟨?_, induction later⟩
        intro entry member
        rcases mem_insertEntry member with same | after
        · rw [same]
          exact Std.OrientedCmp.lt_of_gt greater
        · exact first entry after

theorem find?_insertEntry [Std.LawfulEqOrd κ] (key other : κ) (value : ν)
    (entries : List (κ × ν)) :
    ((insertEntry key value entries).find? fun entry => compare entry.1 other == .eq).map (·.2) =
      if compare key other = .eq then
        some value
      else
        (entries.find? fun entry => compare entry.1 other == .eq).map (·.2) := by
  induction entries with
  | nil => by_cases same : compare key other = .eq <;> simp [insertEntry, same]
  | cons head rest induction =>
      unfold insertEntry
      split
      · by_cases same : compare key other = .eq <;> simp [List.find?_cons, same]
      · rename_i equal
        have same : key = head.1 := Std.LawfulEqCmp.eq_of_compare equal
        subst same
        by_cases found : compare head.1 other = .eq <;> simp [found]
      · rename_i greater
        by_cases found : compare head.1 other = .eq
        · have same : head.1 = other := Std.LawfulEqCmp.eq_of_compare found
          subst same
          simp [greater]
        · simpa [List.find?_cons, found] using induction

theorem insertEntry_of_lt [Std.TransOrd κ] {key : κ} (value : ν) {entries : List (κ × ν)}
    (above : ∀ entry ∈ entries, compare entry.1 key = .lt) :
    insertEntry key value entries = entries ++ [(key, value)] := by
  induction entries with
  | nil => rfl
  | cons head rest induction =>
      have greater : compare key head.1 = .gt :=
        Std.OrientedCmp.gt_of_lt (above head (by simp))
      simp [insertEntry, greater,
        induction fun entry member => above entry (List.mem_cons_of_mem _ member)]

variable [Std.TransOrd κ] [Std.LawfulEqOrd κ]

/-- The map with a value for a key, whatever the value before. -/
def insert (map : SortedMap κ ν) (key : κ) (value : ν) : SortedMap κ ν :=
  ⟨insertEntry key value map.entries, pairwise_insertEntry key value map.sorted⟩

@[simp]
theorem find?_insert_self (map : SortedMap κ ν) (key : κ) (value : ν) :
    (map.insert key value).find? key = some value := by
  simp [insert, find?, find?_insertEntry]

theorem find?_insert_of_ne (map : SortedMap κ ν) {key other : κ} (value : ν)
    (different : key ≠ other) : (map.insert key value).find? other = map.find? other := by
  have apart : compare key other ≠ .eq := fun same =>
    different (Std.LawfulEqCmp.eq_of_compare same)
  simp [insert, find?, find?_insertEntry, apart]

theorem contains_insert (map : SortedMap κ ν) (key other : κ) (value : ν) :
    (map.insert key value).contains other = true ↔ key = other ∨ map.contains other = true := by
  by_cases same : key = other
  · simp [contains, same]
  · simp [contains, find?_insert_of_ne map value same, same]

/-- The map of a list of entries, of which the last with a key counts. -/
def ofList (entries : List (κ × ν)) : SortedMap κ ν :=
  entries.foldl (fun map entry => map.insert entry.1 entry.2) empty

theorem entries_foldl_insert (map : SortedMap κ ν) (entries : List (κ × ν))
    (sorted : (map.entries ++ entries).Pairwise fun left right =>
      compare left.1 right.1 = .lt) :
    (entries.foldl (fun map entry => map.insert entry.1 entry.2) map).entries =
      map.entries ++ entries := by
  induction entries generalizing map with
  | nil => simp
  | cons head rest induction =>
      have above : ∀ entry ∈ map.entries, compare entry.1 head.1 = .lt := fun entry member =>
        (List.pairwise_append.1 sorted).2.2 entry member head (by simp)
      have step : (map.insert head.1 head.2).entries = map.entries ++ [head] :=
        insertEntry_of_lt head.2 above
      rw [List.foldl_cons, induction _ (by simpa [step] using sorted), step]
      simp

theorem ofList_entries (map : SortedMap κ ν) : ofList map.entries = map :=
  eq_of_entries (entries_foldl_insert empty map.entries map.sorted)

end SortedMap

abbrev SortedSet (κ : Type) [Ord κ] := SortedMap κ Unit

namespace SortedSet

def toList {κ : Type} [Ord κ] (set : SortedSet κ) : List κ :=
  SortedMap.keys set

variable {κ : Type} [Ord κ] [Std.TransOrd κ] [Std.LawfulEqOrd κ]

def add (set : SortedSet κ) (element : κ) : SortedSet κ :=
  SortedMap.insert set element ()

theorem contains_add (set : SortedSet κ) (element other : κ) :
    SortedMap.contains (add set element) other = true ↔
      element = other ∨ SortedMap.contains set other = true :=
  SortedMap.contains_insert set element other ()

def ofList (elements : List κ) : SortedSet κ :=
  elements.foldl add SortedMap.empty

theorem contains_foldl_add (set : SortedSet κ) (elements : List κ) (element : κ) :
    SortedMap.contains (elements.foldl add set) element = true ↔
      SortedMap.contains set element = true ∨ element ∈ elements := by
  induction elements generalizing set with
  | nil => simp
  | cons first rest induction =>
      rw [List.foldl_cons, induction, contains_add, List.mem_cons, eq_comm (a := element),
        or_assoc, or_left_comm]

theorem contains_ofList (elements : List κ) (element : κ) :
    SortedMap.contains (ofList elements) element = true ↔ element ∈ elements := by
  rw [ofList, contains_foldl_add]
  simp [SortedMap.contains]

end SortedSet

end ObjectQuery
