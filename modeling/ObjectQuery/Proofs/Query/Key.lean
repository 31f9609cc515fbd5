import ObjectQuery.Query.Path

namespace ObjectQuery

/-!
What the key of a path tells of it. Where no segment holds a dot, paths have the
same key only if they are the same but for letter case.
-/

theorem dot_not_mem_lowerRuns :
    ∀ run ∈ LetterCase.lowerRuns, (0x2E : Int) < run.first + run.shift := by
  decide +kernel

theorem eq_dot_of_ofNat {code : Nat} (dot : Char.ofNat code = '.') : code = 0x2E := by
  by_cases valid : code.isValidChar
  · rw [Char.ofNat, dif_pos valid] at dot
    exact congrArg Char.toNat dot
  · rw [Char.ofNat, dif_neg valid] at dot
    cases dot

theorem toLower_ne_dot {char : Char} (different : char ≠ '.') : char.toLower ≠ '.' := by
  unfold Char.toLower
  split
  · rename_i capital
    intro dot
    have values := congrArg (·.val.toNat) dot
    simp [UInt32.le_iff_toNat_le] at values capital
    omega
  · exact different

theorem eq_dot_of_mem_image {code : Nat} (other : code ≠ 0x2E) :
    0x2E ∉ LetterCase.image LetterCase.lowerRuns LetterCase.lowerExpansions code := by
  unfold LetterCase.image
  split
  · rename_i codes found
    simp only [LetterCase.lowerExpansions, List.lookup_cons, List.lookup_nil] at found
    split at found
    · cases found
      decide
    · cases found
  · rw [List.mem_singleton]
    cases found : LetterCase.lowerRuns.findSome? (·.image? code) with
    | none => simpa using other.symm
    | some image =>
        obtain ⟨run, member, runs⟩ := List.exists_of_findSome?_eq_some found
        have above := dot_not_mem_lowerRuns run member
        unfold CaseRun.image? at runs
        split at runs
        · rename_i inside
          cases runs
          simp only [Bool.and_eq_true, decide_eq_true_eq] at inside
          simp only [Option.getD_some]
          omega
        · cases runs

theorem dot_not_mem_lowerChar {char : Char} (different : char ≠ '.') : '.' ∉ lowerChar char := by
  unfold lowerChar
  split
  · simpa using (toLower_ne_dot different).symm
  · intro member
    obtain ⟨code, given, dot⟩ := List.mem_map.1 member
    rw [eq_dot_of_ofNat dot] at given
    refine eq_dot_of_mem_image (fun same => different ?_) given
    exact Char.ext (UInt32.toNat.inj same)

/-- The segment of a path holds no dot. -/
def Undotted (segment : String) : Prop :=
  '.' ∉ segment.toList

theorem dot_not_mem_lowerCharsAfter {chars : List Char} (before : List Char)
    (undotted : '.' ∉ chars) : '.' ∉ lowerCharsAfter before chars := by
  induction chars generalizing before with
  | nil => exact undotted
  | cons char rest induction =>
      obtain ⟨first, later⟩ := not_or.1 (mt List.mem_cons.2 undotted)
      rw [lowerCharsAfter, List.mem_append, not_or]
      refine ⟨?_, induction _ later⟩
      split
      · split <;> decide
      · exact dot_not_mem_lowerChar (Ne.symm first)

theorem Undotted.lowerText {segment : String} (undotted : Undotted segment) :
    Undotted (lowerText segment) := by
  unfold Undotted ObjectQuery.lowerText
  rw [String.toList_ofList]
  exact dot_not_mem_lowerCharsAfter [] undotted

namespace Path

/-- A path with segments, none of which holds a dot. -/
def Plain (path : Path) : Prop :=
  path ≠ [] ∧ ∀ segment ∈ path, Undotted segment

def dots (key : String) : Nat :=
  key.toList.count '.'

/-- A name for the path is a single segment, or has as many segments as the path. -/
def Named (path : Path) (name : String) : Prop :=
  dots name = 0 ∨ dots name + 1 = path.length

theorem toList_key (path : Path) :
    path.key.toList = ['.'].intercalate ((path.map lowerText).map String.toList) := by
  rw [key, render, String.toList_intercalate]
  rfl

theorem le_count_intercalate (parts : List (List Char)) :
    parts.length ≤ (['.'].intercalate parts).count '.' + 1 := by
  induction parts with
  | nil => simp
  | cons part rest induction =>
      cases rest with
      | nil => simp
      | cons next others =>
          rw [List.intercalate_cons_cons]
          simp only [List.count_append, List.length_cons] at induction ⊢
          simp
          omega

theorem count_intercalate {parts : List (List Char)} (undotted : ∀ part ∈ parts, '.' ∉ part) :
    (['.'].intercalate parts).count '.' = parts.length - 1 := by
  induction parts with
  | nil => rfl
  | cons part rest induction =>
      obtain ⟨first, later⟩ := List.forall_mem_cons.1 undotted
      cases rest with
      | nil => simpa using List.count_eq_zero.2 first
      | cons next others =>
          rw [List.intercalate_cons_cons, List.count_append, List.count_append, induction later,
            List.count_eq_zero.2 first]
          simp
          omega

/--
The texts between the dots of a path, in lower case. Segments are put together
of one or more of these.
-/
def pieces (path : Path) : List (List Char) :=
  path.flatMap fun segment => (lowerText segment).toList.splitOn '.'

theorem splitOn_append_dot (first second : List Char) :
    (first ++ '.' :: second).splitOn '.' = first.splitOn '.' ++ second.splitOn '.' := by
  simp only [List.splitOn_eq_splitOnP]
  exact List.splitOnP_append_cons first second (beq_self_eq_true '.')

theorem splitOn_intercalate_parts {parts : List (List Char)} (nonempty : parts ≠ []) :
    (['.'].intercalate parts).splitOn '.' = parts.flatMap (List.splitOn '.') := by
  induction parts with
  | nil => exact absurd rfl nonempty
  | cons part rest induction =>
      cases rest with
      | nil => simp
      | cons next others =>
          rw [List.intercalate_cons_cons, List.append_assoc, List.singleton_append,
            splitOn_append_dot, induction (List.cons_ne_nil next others)]
          exact List.flatMap_cons.symm

theorem splitOn_key {path : Path} (nonempty : path ≠ []) :
    path.key.toList.splitOn '.' = path.pieces := by
  rw [toList_key, splitOn_intercalate_parts (by simpa using nonempty), pieces]
  simp only [List.flatMap_map]

/-- The key of a path tells its pieces, and nothing else. -/
theorem key_eq_iff_pieces {path other : Path} (nonempty : path ≠ []) (nonemptyToo : other ≠ []) :
    path.key = other.key ↔ path.pieces = other.pieces := by
  rw [← splitOn_key nonempty, ← splitOn_key nonemptyToo]
  refine ⟨fun same => by rw [same], fun same => String.toList_inj.1 ?_⟩
  have joined := congrArg (['.'].intercalate ·) same
  simpa only [List.intercalate_splitOn] using joined

theorem length_le_dots (path : Path) : path.length ≤ dots path.key + 1 := by
  simpa [dots, toList_key] using le_count_intercalate ((path.map lowerText).map String.toList)

theorem same_refl (path : Path) : path.same path = true :=
  (same_iff path path).2 rfl

theorem same_symm {path other : Path} (same : path.same other = true) :
    other.same path = true := by
  rw [same_iff] at same ⊢
  exact same.symm

theorem same_trans {path other third : Path} (first : path.same other = true)
    (second : other.same third = true) : path.same third = true := by
  rw [same_iff] at first second ⊢
  exact first.trans second

/-- Columns under the same path belong to the same object. -/
theorem same_parent {left right object : Path} (same : left.same right = true)
    (own : left.parent.same object = true) : object.same right.parent = true := by
  rw [same_iff] at same own ⊢
  rw [← own, parent, parent, List.map_dropLast, List.map_dropLast, same]

namespace Plain

variable {path other : Path}

theorem dots_key (plain : path.Plain) : dots path.key = path.length - 1 := by
  rw [dots, toList_key, count_intercalate]
  · simp
  · simp only [List.map_map, List.forall_mem_map, Function.comp_apply]
    exact fun segment member => (plain.2 segment member).lowerText

theorem named_key (plain : path.Plain) : path.Named path.key := by
  right
  have nonempty := List.length_pos_iff.2 plain.1
  rw [plain.dots_key]
  omega

theorem append (plain : path.Plain) (rest : ∀ segment ∈ other, Undotted segment) :
    Plain (path ++ other) :=
  ⟨List.append_ne_nil_of_left_ne_nil plain.1 other, List.forall_mem_append.2 ⟨plain.2, rest⟩⟩

theorem take (plain : path.Plain) (length : Nat) : Plain (path.take (length + 1)) := by
  refine ⟨?_, fun segment member => plain.2 segment (List.mem_of_mem_take member)⟩
  rw [Ne, List.take_eq_nil_iff]
  exact fun empty => empty.elim (Nat.succ_ne_zero _) plain.1

theorem undotted_of_mem_drop (plain : path.Plain) (length : Nat) :
    ∀ segment ∈ path.drop length, Undotted segment :=
  fun segment member => plain.2 segment (List.mem_of_mem_drop member)

theorem same_of_key_eq (plain : path.Plain) (otherPlain : other.Plain)
    (keys : path.key = other.key) : path.same other = true := by
  have parts {path : Path} (plain : path.Plain) :
      path.key.toList.splitOn '.' = (path.map lowerText).map String.toList := by
    rw [toList_key, List.splitOn_intercalate]
    · simp only [List.map_map, List.forall_mem_map, Function.comp_apply]
      exact fun segment member => (plain.2 segment member).lowerText
    · simpa using plain.1
  have lowered := parts plain
  rw [keys, parts otherPlain] at lowered
  rw [same_iff]
  exact ((List.map_inj_right fun _ _ => String.toList_inj.1).1 lowered).symm

/-- Where no segment holds a dot, the key is that of the path alone, letter case aside. -/
theorem key_eq_iff (plain : path.Plain) (otherPlain : other.Plain) :
    path.key = other.key ↔ path.same other = true :=
  ⟨plain.same_of_key_eq otherPlain, key_eq_of_same⟩

end Plain

end Path

end ObjectQuery
