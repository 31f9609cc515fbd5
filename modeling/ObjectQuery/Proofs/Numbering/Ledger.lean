import Mathlib.Data.List.Perm.Basic
import ObjectQuery.Collection.SortedMap
import ObjectQuery.Proofs.Query.Column

namespace ObjectQuery

/-!
Numbers that keys are given as they come, and numbers that belong to no key. No
number is given twice while the numbers of keys are kept.
-/

/-- The numbers that keys have, and the number that is given next. -/
structure Ledger where
  next : Nat
  ids : SortedMap String Nat

namespace Ledger

/-- Different keys have different numbers, of those that were given. -/
structure Sound (ledger : Ledger) : Prop where
  positive : 1 ≤ ledger.next
  given : ∀ key id, ledger.ids.find? key = some id → 1 ≤ id ∧ id < ledger.next
  injective : ∀ left right id, ledger.ids.find? left = some id →
    ledger.ids.find? right = some id → left = right

/-- A later ledger: the numbers of keys are kept, and those that are added are new. -/
structure Grows (before after : Ledger) : Prop where
  sound : after.Sound
  next : before.next ≤ after.next
  keeps : ∀ key id, before.ids.find? key = some id → after.ids.find? key = some id
  fresh : ∀ key id, after.ids.find? key = some id →
    before.ids.find? key = some id ∨ before.next ≤ id

/-- The ledger after a number that belongs to no key. -/
def take (ledger : Ledger) : Ledger :=
  { ledger with next := ledger.next + 1 }

/-- The ledger after a number for the key. -/
def give (ledger : Ledger) (key : String) : Ledger :=
  ⟨ledger.next + 1, ledger.ids.insert key ledger.next⟩

/-- A ledger that goes on from the numbers given so far, without those of keys. -/
def apart (ledger : Ledger) : Ledger :=
  { ledger with ids := .empty }

section

variable {before middle after ledger : Ledger}

theorem sound_empty {next : Nat} (positive : 1 ≤ next) : Sound ⟨next, .empty⟩ where
  positive := positive
  given _ _ impossible := by cases impossible
  injective _ _ _ impossible := by cases impossible

theorem sound_apart (sound : ledger.Sound) : ledger.apart.Sound :=
  sound_empty sound.positive

theorem find?_give {key other : String} {id : Nat} :
    (ledger.give key).ids.find? other = some id ↔
      (other = key ∧ id = ledger.next) ∨ (other ≠ key ∧ ledger.ids.find? other = some id) := by
  by_cases same : key = other
  · subst same
    simp [give, SortedMap.find?_insert_self, eq_comm]
  · rw [give, SortedMap.find?_insert_of_ne _ _ same]
    simp [Ne.symm same]

namespace Grows

theorem refl (sound : ledger.Sound) : ledger.Grows ledger where
  sound := sound
  next := Nat.le_refl _
  keeps _ _ found := found
  fresh _ _ found := .inl found

theorem trans (first : before.Grows middle) (second : middle.Grows after) :
    before.Grows after where
  sound := second.sound
  next := Nat.le_trans first.next second.next
  keeps key id found := second.keeps key id (first.keeps key id found)
  fresh key id found := by
    rcases second.fresh key id found with known | later
    · exact first.fresh key id known
    · exact .inr (Nat.le_trans first.next later)

theorem take (sound : ledger.Sound) : ledger.Grows ledger.take where
  sound := {
    positive := Nat.le_succ_of_le sound.positive
    given := fun key id found => (sound.given key id found).imp_right Nat.lt_succ_of_lt
    injective := sound.injective }
  next := Nat.le_succ _
  keeps _ _ found := found
  fresh _ _ found := .inl found

theorem give (sound : ledger.Sound) {key : String} (absent : ledger.ids.find? key = none) :
    ledger.Grows (ledger.give key) where
  sound := {
    positive := Nat.le_succ_of_le sound.positive
    given := by
      intro other id found
      change _ ∧ id < ledger.next + 1
      rcases find?_give.1 found with ⟨_, rfl⟩ | ⟨_, known⟩
      · exact ⟨sound.positive, Nat.lt_succ_self _⟩
      · exact (sound.given other id known).imp_right Nat.lt_succ_of_lt
    injective := by
      intro left right id leftFound rightFound
      rcases find?_give.1 leftFound with ⟨leftKey, leftNext⟩ | ⟨_, leftKnown⟩ <;>
        rcases find?_give.1 rightFound with ⟨rightKey, rightNext⟩ | ⟨_, rightKnown⟩
      · exact leftKey.trans rightKey.symm
      · have below := (sound.given _ _ rightKnown).2
        omega
      · have below := (sound.given _ _ leftKnown).2
        omega
      · exact sound.injective left right id leftKnown rightKnown }
  next := Nat.le_succ _
  keeps other id found := find?_give.2 (.inr ⟨by rintro rfl; simp [absent] at found, found⟩)
  fresh other id found := by
    rcases find?_give.1 found with ⟨_, rfl⟩ | ⟨_, known⟩
    · exact .inr (Nat.le_refl _)
    · exact .inl known

/-- The numbers of keys from before, after others were given apart from them. -/
theorem of_apart (grows : before.apart.Grows after) (sound : before.Sound) :
    before.Grows { before with next := after.next } where
  sound := {
    positive := grows.sound.positive
    given := fun key id found => (sound.given key id found).imp_right fun below =>
      Nat.lt_of_lt_of_le below grows.next
    injective := sound.injective }
  next := grows.next
  keeps _ _ found := found
  fresh _ _ found := .inl found

/-- A number that belonged to no key is not given to one. -/
theorem not_given (grows : middle.Grows after) {id : Nat} (below : id < middle.next)
    (free : ∀ key, middle.ids.find? key ≠ some id) (key : String) :
    after.ids.find? key ≠ some id := by
  intro found
  rcases grows.fresh key id found with known | later
  · exact free key known
  · exact absurd below (Nat.not_lt_of_le later)

end Grows

end

/--
Fields that are numbered between two ledgers: the number of a column is that of
its key, and the numbers of all others belong to no key.
-/
structure Marked (start now : Ledger) (marks : List Mark) : Prop where
  grows : start.Grows now
  columns : ∀ mark ∈ marks, mark.isColumn = true → ∀ id, mark.id = some id →
    now.ids.find? mark.key = some id
  own : ∀ mark ∈ marks, mark.isColumn = false → ∀ id, mark.id = some id →
    start.next ≤ id ∧ id < now.next ∧ ∀ key, now.ids.find? key ≠ some id
  apart : marks.Pairwise Mark.Apart

namespace Marked

variable {start now : Ledger} {mark : Mark} {marks others : List Mark}

theorem perm (marked : Marked start now marks) (same : marks.Perm others) :
    Marked start now others where
  grows := marked.grows
  columns mark member := marked.columns mark (same.mem_iff.2 member)
  own mark member := marked.own mark (same.mem_iff.2 member)
  apart := (same.pairwise_iff Mark.Apart.symm).1 marked.apart

theorem of_unnumbered (sound : start.Sound) (fresh : ∀ mark ∈ marks, mark.id = none) :
    Marked start start marks where
  grows := .refl sound
  columns mark member _ id found := by simp [fresh mark member] at found
  own mark member _ id found := by simp [fresh mark member] at found
  apart := List.pairwise_iff_getElem.2 fun left _ _ _ _ id found => by
    simp [fresh _ (List.getElem_mem _)] at found

/-- The numbers of the fields lie below the next one. -/
theorem lt_next (marked : Marked start now marks) (member : mark ∈ marks) {id : Nat}
    (numbered : mark.id = some id) : id < now.next := by
  cases column : mark.isColumn with
  | true =>
      have found := marked.columns mark member column id numbered
      exact (marked.grows.sound.given _ _ found).2
  | false => exact (marked.own mark member column id numbered).2.1

/-- The first field is numbered, with a number that none of the others has. -/
theorem take (marked : Marked start now (mark :: marks)) (own : mark.isColumn = false) :
    Marked start now.take ({ mark with id := some now.next } :: marks) where
  grows := marked.grows.trans (.take marked.grows.sound)
  columns := by
    rw [List.forall_mem_cons]
    refine ⟨fun column => by simp [own] at column, fun other member => ?_⟩
    exact marked.columns other (List.mem_cons_of_mem _ member)
  own := by
    rw [List.forall_mem_cons]
    refine ⟨?_, fun other member column id numbered => ?_⟩
    · rintro _ id ⟨⟩
      refine ⟨marked.grows.next, Nat.lt_succ_self _, fun key found => ?_⟩
      exact Nat.lt_irrefl _ (marked.grows.sound.given key _ found).2
    · obtain ⟨least, below, free⟩ :=
        marked.own other (List.mem_cons_of_mem _ member) column id numbered
      exact ⟨least, Nat.lt_succ_of_lt below, free⟩
  apart := by
    refine .cons ?_ (List.pairwise_cons.1 marked.apart).2
    rintro other member id ⟨⟩ numbered
    exact absurd (marked.lt_next (List.mem_cons_of_mem _ member) numbered) (Nat.lt_irrefl _)

/-- The first field is a column, which gets the number that its key has by now. -/
theorem column {later : Ledger} (marked : Marked start now (mark :: marks))
    (column : mark.isColumn = true) (grows : now.Grows later) {id : Nat}
    (found : later.ids.find? mark.key = some id) :
    Marked start later ({ mark with id := some id } :: marks) := by
  have own : ∀ other ∈ marks, other.isColumn = false → ∀ id, other.id = some id →
      start.next ≤ id ∧ id < later.next ∧ ∀ key, later.ids.find? key ≠ some id := by
    intro other member own id numbered
    obtain ⟨least, below, free⟩ :=
      marked.own other (List.mem_cons_of_mem _ member) own id numbered
    exact ⟨least, Nat.lt_of_lt_of_le below grows.next, grows.not_given below free⟩
  refine ⟨marked.grows.trans grows, ?_, ?_, .cons ?_ (List.pairwise_cons.1 marked.apart).2⟩
  · rw [List.forall_mem_cons]
    refine ⟨?_, fun other member column id numbered => grows.keeps _ _ ?_⟩
    · rintro _ _ ⟨⟩
      exact found
    · exact marked.columns other (List.mem_cons_of_mem _ member) column id numbered
  · rw [List.forall_mem_cons]
    exact ⟨fun own => by simp [column] at own, own⟩
  · rintro other member _ ⟨⟩ numbered
    refine ⟨column, ?_⟩
    cases kind : other.isColumn with
    | true => rfl
    | false => exact absurd found ((own other member kind id numbered).2.2 _)

end Marked

/--
Fields of any queries that are numbered between two ledgers. The numbers of
columns may be those of keys that the first one knows.
-/
structure Draws (before after : Ledger) (marks : List Mark) : Prop where
  grows : before.Grows after
  columns : ∀ mark ∈ marks, mark.isColumn = true → ∃ id, mark.id = some id ∧
    ((∃ key, before.ids.find? key = some id) ∨ before.next ≤ id) ∧ id < after.next
  own : ∀ mark ∈ marks, mark.isColumn = false → ∀ id, mark.id = some id →
    before.next ≤ id ∧ id < after.next ∧ ∀ key, after.ids.find? key ≠ some id
  apart : marks.Pairwise Mark.Apart

/-- The marks of columns have the numbers of their keys. -/
def Consistent (ledger : Ledger) (marks : List Mark) : Prop :=
  ∀ mark ∈ marks, mark.isColumn = true → ∃ id, mark.id = some id ∧
    ledger.ids.find? mark.key = some id

theorem Consistent.mono {before after : Ledger} {marks : List Mark}
    (consistent : before.Consistent marks) (grows : before.Grows after) :
    after.Consistent marks := by
  intro mark member column
  obtain ⟨id, numbered, found⟩ := consistent mark member column
  exact ⟨id, numbered, grows.keeps _ _ found⟩

/-- Columns have the same number if they have the same key. -/
theorem Sound.id_eq_iff {ledger : Ledger} (sound : ledger.Sound) {marks others : List Mark}
    (consistent : ledger.Consistent marks) (consistentToo : ledger.Consistent others)
    {mark other : Mark} (member : mark ∈ marks) (memberToo : other ∈ others)
    (column : mark.isColumn = true) (columnToo : other.isColumn = true) :
    mark.id = other.id ↔ mark.key = other.key := by
  obtain ⟨id, numbered, found⟩ := consistent mark member column
  obtain ⟨otherId, numberedToo, foundToo⟩ := consistentToo other memberToo columnToo
  rw [numbered, numberedToo, Option.some_inj]
  constructor
  · rintro rfl
    exact sound.injective _ _ id found foundToo
  · intro same
    rw [same, foundToo] at found
    exact (Option.some_inj.1 found).symm

theorem Marked.consistent {start now : Ledger} {marks : List Mark}
    (marked : Marked start now marks) (complete : Mark.Complete marks) :
    now.Consistent marks := by
  intro mark member column
  obtain ⟨id, numbered⟩ := complete mark member column
  exact ⟨id, numbered, marked.columns mark member column id numbered⟩

namespace Draws

variable {before middle after : Ledger} {marks more : List Mark}

theorem refl (sound : before.Sound) : Draws before before [] :=
  ⟨.refl sound, by simp, by simp, .nil⟩

theorem perm (draws : Draws before after marks) (same : marks.Perm more) :
    Draws before after more where
  grows := draws.grows
  columns mark member := draws.columns mark (same.mem_iff.2 member)
  own mark member := draws.own mark (same.mem_iff.2 member)
  apart := (same.pairwise_iff Mark.Apart.symm).1 draws.apart

theorem of_marked (marked : Marked before after marks) (complete : Mark.Complete marks) :
    Draws before after marks where
  grows := marked.grows
  columns mark member column := by
    obtain ⟨id, numbered, found⟩ := marked.consistent complete mark member column
    exact ⟨id, numbered, (marked.grows.fresh _ _ found).imp_left fun known => ⟨_, known⟩,
      (marked.grows.sound.given _ _ found).2⟩
  own := marked.own
  apart := marked.apart

theorem lt_next (draws : Draws before after marks) {mark : Mark} (member : mark ∈ marks) {id : Nat}
    (numbered : mark.id = some id) : id < after.next := by
  cases column : mark.isColumn with
  | true =>
      obtain ⟨own, same, _, below⟩ := draws.columns mark member column
      rw [numbered] at same
      cases same
      exact below
  | false => exact (draws.own mark member column id numbered).2.1

/-- Where no key had a number before, the numbers are those that were given since. -/
theorem bounds (draws : Draws before after marks) (new : ∀ key, before.ids.find? key = none) :
    ∀ mark ∈ marks, (∀ id, mark.id = some id → before.next ≤ id ∧ id < after.next) ∧
      (mark.isColumn = true → ∃ id, mark.id = some id) := by
  intro mark member
  constructor
  · intro id numbered
    refine ⟨?_, draws.lt_next member numbered⟩
    cases column : mark.isColumn with
    | true =>
        obtain ⟨own, same, source, _⟩ := draws.columns mark member column
        rw [numbered] at same
        cases same
        rcases source with ⟨key, known⟩ | later
        · simp [new key] at known
        · exact later
    | false => exact (draws.own mark member column id numbered).1
  · intro column
    obtain ⟨id, numbered, _⟩ := draws.columns mark member column
    exact ⟨id, numbered⟩

/-- Numbers that are given later are given to other fields. -/
theorem trans (first : Draws before middle marks) (second : Draws middle after more) :
    Draws before after (marks ++ more) where
  grows := first.grows.trans second.grows
  columns := by
    refine List.forall_mem_append.2 ⟨fun mark member column => ?_, fun mark member column => ?_⟩
    · obtain ⟨id, numbered, source, below⟩ := first.columns mark member column
      exact ⟨id, numbered, source, Nat.lt_of_lt_of_le below second.grows.next⟩
    · obtain ⟨id, numbered, source, below⟩ := second.columns mark member column
      refine ⟨id, numbered, ?_, below⟩
      rcases source with ⟨key, known⟩ | later
      · exact (first.grows.fresh key id known).imp_left fun found => ⟨key, found⟩
      · exact .inr (Nat.le_trans first.grows.next later)
  own := by
    refine List.forall_mem_append.2 ⟨fun mark member column id numbered => ?_,
      fun mark member column id numbered => ?_⟩
    · obtain ⟨least, below, free⟩ := first.own mark member column id numbered
      exact ⟨least, Nat.lt_of_lt_of_le below second.grows.next,
        second.grows.not_given below free⟩
    · obtain ⟨least, rest⟩ := second.own mark member column id numbered
      exact ⟨Nat.le_trans first.grows.next least, rest⟩
  apart := by
    refine List.pairwise_append.2 ⟨first.apart, second.apart, ?_⟩
    intro left leftMember right rightMember id leftNumbered rightNumbered
    have below := first.lt_next leftMember leftNumbered
    -- A number from before is that of a key, and only columns have numbers of keys.
    have rightColumn : right.isColumn = true := by
      cases column : right.isColumn with
      | true => rfl
      | false =>
          have least := (second.own right rightMember column id rightNumbered).1
          omega
    refine ⟨?_, rightColumn⟩
    cases column : left.isColumn with
    | true => rfl
    | false =>
        obtain ⟨own, same, source, _⟩ := second.columns right rightMember rightColumn
        rw [rightNumbered] at same
        cases same
        rcases source with ⟨key, known⟩ | later
        · exact absurd known ((first.own left leftMember column id leftNumbered).2.2 key)
        · omega

/-- More columns are numbered by keys that are known in the end. -/
theorem columnsToo (draws : Draws before after marks)
    (columns : ∀ mark ∈ more, mark.isColumn = true) (consistent : after.Consistent more) :
    Draws before after (marks ++ more) where
  grows := draws.grows
  columns := by
    refine List.forall_mem_append.2 ⟨draws.columns, fun mark member column => ?_⟩
    obtain ⟨id, numbered, found⟩ := consistent mark member column
    exact ⟨id, numbered, (draws.grows.fresh _ _ found).imp_left fun known => ⟨_, known⟩,
      (draws.grows.sound.given _ _ found).2⟩
  own := by
    refine List.forall_mem_append.2 ⟨draws.own, fun mark member own => ?_⟩
    simp [columns mark member] at own
  apart := by
    refine List.pairwise_append.2 ⟨draws.apart, ?_, ?_⟩
    · exact List.pairwise_iff_getElem.2 fun _ _ _ _ _ _ _ _ =>
        ⟨columns _ (List.getElem_mem _), columns _ (List.getElem_mem _)⟩
    · intro left leftMember right rightMember id leftNumbered rightNumbered
      refine ⟨?_, columns right rightMember⟩
      cases column : left.isColumn with
      | true => rfl
      | false =>
          obtain ⟨own, same, found⟩ := consistent right rightMember (columns right rightMember)
          rw [rightNumbered] at same
          cases same
          exact absurd found ((draws.own left leftMember column id leftNumbered).2.2 _)

/-- Fields that are numbered apart, after which the numbers of keys from before are back. -/
theorem of_apart (draws : Draws before.apart after marks) (sound : before.Sound) :
    Draws before { before with next := after.next } marks where
  grows := draws.grows.of_apart sound
  columns mark member column := by
    obtain ⟨id, numbered, source, below⟩ := draws.columns mark member column
    refine ⟨id, numbered, source.imp_left ?_, below⟩
    rintro ⟨key, impossible⟩
    cases impossible
  own mark member column id numbered := by
    obtain ⟨least, below, _⟩ := draws.own mark member column id numbered
    refine ⟨least, below, fun key found => ?_⟩
    exact absurd (sound.given key id found).2 (Nat.not_lt_of_le least)
  apart := draws.apart

end Draws

end Ledger

end ObjectQuery
