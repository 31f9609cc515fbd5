import Mathlib.Data.List.Pairwise
import ObjectQuery.Proofs.Compiler.Query
import ObjectQuery.Proofs.Numbering.Ledger

namespace ObjectQuery

/-!
Numbers in queries that are compiled one after the other. Queries share the
numbers of keys that are known to both, and no number of a query in a condition,
which has numbers of its own for keys, is found outside of the queries in the
conditions of the same query.
-/

namespace Ledger

/-- The mark is that of a column, and has the number of its key. -/
def Has (ledger : Ledger) (mark : Mark) (id : Nat) : Prop :=
  mark.isColumn = true ∧ ledger.ids.find? mark.key = some id

/-- The number was given since the start, and belongs to no key. -/
structure Private (start now : Ledger) (id : Nat) : Prop where
  least : start.next ≤ id
  below : id < now.next
  free : ∀ key, now.ids.find? key ≠ some id

variable {start before middle now after : Ledger} {mark : Mark} {id : Nat}

theorem Has.mono (has : before.Has mark id) (grows : before.Grows after) : after.Has mark id :=
  ⟨has.1, grows.keeps _ _ has.2⟩

theorem Has.below (has : now.Has mark id) (sound : now.Sound) : id < now.next :=
  (sound.given _ _ has.2).2

theorem Private.not_has (own : Private start now id) : ¬now.Has mark id :=
  fun has => own.free _ has.2

theorem Private.later (own : Private start middle id) (grows : middle.Grows now) :
    Private start now id :=
  ⟨own.least, Nat.lt_of_lt_of_le own.below grows.next, grows.not_given own.below own.free⟩

theorem Private.earlier (own : Private middle now id) (grows : start.Grows middle) :
    Private start now id :=
  ⟨Nat.le_trans grows.next own.least, own.below, own.free⟩

/-- A number that is given apart belongs to none of the keys that are back afterwards. -/
theorem private_of_apart (sound : before.Sound) (least : before.next ≤ id) (below : id < after.next) :
    Private before { before with next := after.next } id :=
  ⟨least, below, fun key found => Nat.not_lt_of_le least (sound.given key id found).2⟩

end Ledger

namespace Query

open Ledger (Has Private)

/-- The numbers in a statement, with the keys that they are given for. -/
abbrev Marking :=
  Statement Query → List Mark

variable {marking : Marking} {start before middle planned listing now ending after : Ledger}

/-- The queries and the lists in them share nothing but the numbers of keys. -/
def Foreign (marking : Marking) (now : Ledger) (query other : Query) : Prop :=
  ∀ left, query.Reaches left → ∀ right, other.Reaches right →
    ∀ mark ∈ marking left.body, ∀ also ∈ marking right.body,
      ∀ id, mark.id = some id → also.id = some id →
        (query.Spans left ∧ now.Has mark id) ∧ other.Spans right ∧ now.Has also id

theorem Foreign.mono {query other : Query} (foreign : Foreign marking before query other)
    (grows : before.Grows after) : Foreign marking after query other := by
  intro left reached right reachedToo mark member also memberToo id numbered numberedToo
  obtain ⟨⟨spans, has⟩, spansToo, hasToo⟩ :=
    foreign left reached right reachedToo mark member also memberToo id numbered numberedToo
  exact ⟨⟨spans, has.mono grows⟩, spansToo, hasToo.mono grows⟩

instance (marking : Marking) (now : Ledger) : Std.Symm (Foreign marking now) where
  symm _ _ foreign left reached right reachedToo mark member also memberToo id numbered
      numberedToo :=
    (foreign right reachedToo left reached also memberToo mark member id numberedToo numbered).symm

/--
The marks of two queries are for one key. The first is the query `head` in a
condition of `outer` or a list in it, and so is the second of another query
there.
-/
structure Beside (outer head inner other : Query) (mark also : Mark) : Prop where
  inside : head.Spans inner
  sibling : ∃ sibling ∈ outer.body.conditional, sibling ≠ head ∧ sibling.Spans other
  columns : mark.isColumn = true ∧ also.isColumn = true
  key : mark.key = also.key

/--
What a query in a condition and all within it have for numbers is found outside
of it only in other queries in conditions of the same query, for the same keys.
-/
def Isolated (marking : Marking) (query : Query) : Prop :=
  ∀ outer, query.Reaches outer → ∀ head ∈ outer.body.conditional, ∀ inner, head.Reaches inner →
    ∀ other, query.Reaches other → ¬head.Reaches other →
      ∀ mark ∈ marking inner.body, ∀ also ∈ marking other.body,
        ∀ id, mark.id = some id → also.id = some id → Beside outer head inner other mark also

/-- Queries that are compiled one after the other. -/
structure Cohort (marking : Marking) (start now : Ledger) (queries : List Query) : Prop where
  grows : start.Grows now
  held : ∀ query ∈ queries, ∀ inner, query.Spans inner → ∀ mark ∈ marking inner.body,
    ∀ id, mark.id = some id → now.Has mark id ∨ Private start now id
  closed : ∀ query ∈ queries, ∀ outer, query.Reaches outer → ∀ head ∈ outer.body.conditional,
    ∀ inner, head.Reaches inner → ∀ mark ∈ marking inner.body,
      ∀ id, mark.id = some id → Private start now id
  foreign : queries.Pairwise (Foreign marking now)
  isolated : ∀ query ∈ queries, query.Isolated marking

namespace Cohort

variable {queries more : List Query} {query inner : Query} {mark also : Mark} {id : Nat}

theorem nil (sound : start.Sound) : Cohort marking start start [] :=
  ⟨.refl sound, by simp, by simp, .nil, by simp⟩

theorem held_or_private (cohort : Cohort marking start now queries) (member : query ∈ queries)
    (reaches : query.Reaches inner) (own : mark ∈ marking inner.body) (numbered : mark.id = some id) :
    query.Spans inner ∧ now.Has mark id ∨ Private start now id := by
  rcases reaches.exists_spans with spans | ⟨outer, head, reached, given, spans⟩
  · exact (cohort.held query member inner spans mark own id numbered).imp_left fun has => ⟨spans, has⟩
  · exact .inr (cohort.closed query member outer reached head given inner spans.reaches mark own id
      numbered)

theorem below (cohort : Cohort marking start now queries) (member : query ∈ queries)
    (reaches : query.Reaches inner) (own : mark ∈ marking inner.body) (numbered : mark.id = some id) :
    id < now.next := by
  rcases cohort.held_or_private member reaches own numbered with ⟨_, has⟩ | own
  · exact has.below cohort.grows.sound
  · exact own.below

theorem later (cohort : Cohort marking start middle queries) (grows : middle.Grows now) :
    Cohort marking start now queries where
  grows := cohort.grows.trans grows
  held query member inner spans mark own id numbered :=
    (cohort.held query member inner spans mark own id numbered).imp (·.mono grows) (·.later grows)
  closed query member outer reaches head given inner inside mark own id numbered :=
    (cohort.closed query member outer reaches head given inner inside mark own id numbered).later grows
  foreign := cohort.foreign.imp fun foreign => foreign.mono grows
  isolated := cohort.isolated

theorem earlier (cohort : Cohort marking middle now queries) (grows : start.Grows middle) :
    Cohort marking start now queries where
  grows := grows.trans cohort.grows
  held query member inner spans mark own id numbered :=
    (cohort.held query member inner spans mark own id numbered).imp_right (·.earlier grows)
  closed query member outer reaches head given inner inside mark own id numbered :=
    (cohort.closed query member outer reaches head given inner inside mark own id numbered).earlier
      grows
  foreign := cohort.foreign
  isolated := cohort.isolated

/-- Queries that are compiled later share the numbers of keys with those before. -/
theorem append (first : Cohort marking start middle queries) (second : Cohort marking middle now more) :
    Cohort marking start now (queries ++ more) := by
  have firstLater := first.later second.grows
  have secondEarlier := second.earlier first.grows
  refine ⟨firstLater.grows, List.forall_mem_append.2 ⟨firstLater.held, secondEarlier.held⟩,
    List.forall_mem_append.2 ⟨firstLater.closed, secondEarlier.closed⟩,
    List.pairwise_append.2 ⟨firstLater.foreign, second.foreign, ?_⟩,
    List.forall_mem_append.2 ⟨first.isolated, second.isolated⟩⟩
  intro query member other memberToo left reached right reachedToo mark own also ownToo id numbered
    numberedToo
  have below := first.below member reached own numbered
  rcases second.held_or_private memberToo reachedToo ownToo numberedToo with ⟨spansToo, hasToo⟩ | new
  · rcases first.held_or_private member reached own numbered with ⟨spans, has⟩ | new
    · exact ⟨⟨spans, has.mono second.grows⟩, spansToo, hasToo⟩
    · exact absurd hasToo (new.later second.grows).not_has
  · exact absurd below (Nat.not_lt_of_le new.least)

/-- Where no key had a number before, all numbers were given since, and none belongs to a key then. -/
theorem private_of_apart (cohort : Cohort marking listing.apart ending queries)
    (sound : listing.Sound) (member : query ∈ queries) (reaches : query.Reaches inner)
    (own : mark ∈ marking inner.body) (numbered : mark.id = some id) :
    Private listing { listing with next := ending.next } id := by
  have below := cohort.below member reaches own numbered
  refine Ledger.private_of_apart sound ?_ below
  rcases cohort.held_or_private member reaches own numbered with ⟨_, has⟩ | own
  · rcases cohort.grows.fresh _ _ has.2 with impossible | least
    · cases impossible
    · exact least
  · exact own.least

/-- Within the cohort, queries in conditions share numbers but with others of the same query. -/
theorem beside {next outer head other : Query} (cohort : Cohort marking start now queries)
    (member : query ∈ queries) (reached : query.Reaches outer)
    (given : head ∈ outer.body.conditional) (inside : head.Reaches inner) (memberToo : next ∈ queries)
    (reachedToo : next.Reaches other) (outside : ¬head.Reaches other) (own : mark ∈ marking inner.body)
    (ownToo : also ∈ marking other.body) (numbered : mark.id = some id)
    (numberedToo : also.id = some id) : Beside outer head inner other mark also := by
  by_cases same : next = query
  · subst same
    exact cohort.isolated next member outer reached head given inner inside other reachedToo outside
      mark own also ownToo id numbered numberedToo
  · have new := cohort.closed query member outer reached head given inner inside mark own id numbered
    have innerReached := reached.trans (.nested (Statement.mem_nested_iff.2 (.inr given)) inside)
    obtain ⟨⟨_, has⟩, _⟩ := cohort.foreign.forall member memberToo (Ne.symm same) inner innerReached
      other reachedToo mark own also ownToo id numbered numberedToo
    exact absurd has new.not_has

end Cohort

/-- A statement with the lists in it, which have numbers of keys in common, and queries apart. -/
structure Parted (marking : Marking) (before planned listing ending : Ledger)
    (statement : Statement Query) : Prop where
  first : before.Grows planned
  own : ∀ mark ∈ marking statement, ∀ id, mark.id = some id →
    listing.Has mark id ∨ (Private before listing id ∧ id < planned.next)
  lists : Cohort marking planned listing statement.listed
  conditional : Cohort marking listing.apart ending statement.conditional

namespace Parted

variable {statement : Statement Query} {outer head inner other next : Query} {mark also : Mark}
  {id : Nat} (parted : Parted marking before planned listing ending statement)

include parted

theorem sound : listing.Sound :=
  parted.lists.grows.sound

/-- The statement and its lists have none of the numbers from then on. -/
theorem below (reaches : Reaches ⟨statement⟩ other)
    (outside : ∀ next ∈ statement.conditional, ¬next.Reaches other)
    (member : mark ∈ marking other.body) (numbered : mark.id = some id) : id < listing.next := by
  cases reaches with
  | self =>
      rcases parted.own mark member id numbered with has | ⟨own, _⟩
      · exact has.below parted.sound
      · exact own.below
  | nested given reaches =>
      rcases Statement.mem_nested_iff.1 given with listed | conditional
      · exact parted.lists.below listed reaches member numbered
      · exact absurd reaches (outside _ conditional)

/-- No query in a condition of the statement shares numbers but with others there. -/
theorem beside (given : head ∈ statement.conditional) (inside : head.Reaches inner)
    (reached : Reaches ⟨statement⟩ other) (outside : ¬head.Reaches other)
    (member : mark ∈ marking inner.body) (memberToo : also ∈ marking other.body)
    (numbered : mark.id = some id) (numberedToo : also.id = some id) :
    Beside ⟨statement⟩ head inner other mark also := by
  have new := parted.conditional.private_of_apart parted.sound given inside member numbered
  by_cases apart : ∃ next ∈ statement.conditional, next.Reaches other
  · obtain ⟨next, nextGiven, reaches⟩ := apart
    have different : next ≠ head := by
      rintro rfl
      exact outside reaches
    obtain ⟨⟨spans, column, found⟩, spansToo, columnToo, foundToo⟩ :=
      parted.conditional.foreign.forall given nextGiven different.symm inner inside other reaches
        mark member also memberToo id numbered numberedToo
    exact ⟨spans, ⟨next, nextGiven, different, spansToo⟩, ⟨column, columnToo⟩,
      parted.conditional.grows.sound.injective _ _ _ found foundToo⟩
  · have below := parted.below reached (fun next given reaches => apart ⟨next, given, reaches⟩)
      memberToo numberedToo
    exact absurd below (Nat.not_lt_of_le new.least)

/-- The numbers of keys from before the conditions are back after them. -/
theorem growth : listing.Grows { listing with next := ending.next } :=
  parted.conditional.grows.of_apart parted.sound

theorem held (spans : Spans ⟨statement⟩ inner) (member : mark ∈ marking inner.body)
    (numbered : mark.id = some id) :
    Ledger.Has { listing with next := ending.next } mark id ∨
      Private before { listing with next := ending.next } id := by
  cases spans with
  | self =>
      exact (parted.own mark member id numbered).imp (·.mono parted.growth) fun own =>
        own.1.later parted.growth
  | listed given spans =>
      exact (parted.lists.held _ given inner spans mark member id numbered).imp
        (·.mono parted.growth) fun own => (own.earlier parted.first).later parted.growth

theorem closed (reached : Reaches ⟨statement⟩ outer) (given : head ∈ outer.body.conditional)
    (inside : head.Reaches inner) (member : mark ∈ marking inner.body)
    (numbered : mark.id = some id) : Private before { listing with next := ending.next } id := by
  have grows := parted.first.trans parted.lists.grows
  cases reached with
  | self =>
      exact (parted.conditional.private_of_apart parted.sound given inside member numbered).earlier
        grows
  | nested present reached =>
      rcases Statement.mem_nested_iff.1 present with listed | conditional
      · have own := parted.lists.closed _ listed outer reached head given inner inside mark member id
          numbered
        exact (own.earlier parted.first).later parted.growth
      · have reaches := reached.trans (.nested (Statement.mem_nested_iff.2 (.inr given)) inside)
        exact (parted.conditional.private_of_apart parted.sound conditional reaches member
          numbered).earlier grows

/-- The queries in conditions of a list share numbers with nothing outside of the lists. -/
theorem beside_of_listed (present : next ∈ statement.listed) (reached : next.Reaches outer)
    (given : head ∈ outer.body.conditional) (inside : head.Reaches inner)
    (reaches : Reaches ⟨statement⟩ other) (outside : ¬head.Reaches other)
    (member : mark ∈ marking inner.body) (memberToo : also ∈ marking other.body)
    (numbered : mark.id = some id) (numberedToo : also.id = some id) :
    Beside outer head inner other mark also := by
  have new := parted.lists.closed next present outer reached head given inner inside mark member id
    numbered
  cases reaches with
  | self =>
      rcases parted.own also memberToo id numberedToo with has | ⟨_, below⟩
      · exact absurd has new.not_has
      · exact absurd below (Nat.not_lt_of_le new.least)
  | nested presentToo reachedToo =>
      rcases Statement.mem_nested_iff.1 presentToo with listed | conditional
      · exact parted.lists.beside present reached given inside listed reachedToo outside member
          memberToo numbered numberedToo
      · have later := parted.conditional.private_of_apart parted.sound conditional reachedToo
          memberToo numberedToo
        exact absurd new.below (Nat.not_lt_of_le later.least)

/-- The queries in conditions of a query in a condition share numbers with nothing outside of it. -/
theorem beside_of_conditional (present : next ∈ statement.conditional) (reached : next.Reaches outer)
    (given : head ∈ outer.body.conditional) (inside : head.Reaches inner)
    (reaches : Reaches ⟨statement⟩ other) (outside : ¬head.Reaches other)
    (member : mark ∈ marking inner.body) (memberToo : also ∈ marking other.body)
    (numbered : mark.id = some id) (numberedToo : also.id = some id) :
    Beside outer head inner other mark also := by
  by_cases apart : ∃ query ∈ statement.conditional, query.Reaches other
  · obtain ⟨query, conditional, reachedToo⟩ := apart
    exact parted.conditional.beside present reached given inside conditional reachedToo outside
      member memberToo numbered numberedToo
  · have new := parted.conditional.closed next present outer reached head given inner inside mark
      member id numbered
    have below := parted.below reaches (fun query given reaches => apart ⟨query, given, reaches⟩)
      memberToo numberedToo
    exact absurd below (Nat.not_lt_of_le new.least)

theorem isolated : Isolated marking ⟨statement⟩ := by
  intro outer reached head given inner inside other reaches outside mark member also memberToo id
    numbered numberedToo
  cases reached with
  | self => exact parted.beside given inside reaches outside member memberToo numbered numberedToo
  | nested present reached =>
      rcases Statement.mem_nested_iff.1 present with listed | conditional
      · exact parted.beside_of_listed listed reached given inside reaches outside member memberToo
          numbered numberedToo
      · exact parted.beside_of_conditional conditional reached given inside reaches outside member
          memberToo numbered numberedToo

theorem cohort : Cohort marking before { listing with next := ending.next } [⟨statement⟩] where
  grows := (parted.first.trans parted.lists.grows).trans parted.growth
  held := List.forall_mem_singleton.2 fun _ spans _ member _ numbered =>
    parted.held spans member numbered
  closed := List.forall_mem_singleton.2 fun _ reached _ given _ inside _ member _ numbered =>
    parted.closed reached given inside member numbered
  foreign := List.pairwise_singleton ..
  isolated := List.forall_mem_singleton.2 parted.isolated

end Parted

/-- A query that compiles is a cohort by itself, whatever is recorded of it as a whole. -/
def isolates (marking : Marking) (ledger : Session → Ledger) : Outcome :=
  fun _ _ before result _ after => (ledger before).Sound →
    ∀ metadata, Cohort marking (ledger before) (ledger after) [⟨{ result with metadata }⟩]

variable {ledger : Session → Ledger} {depth : Nat}

theorem Lists.cohort {done : Nat} {aliases : AliasMap} {own statement : Statement Query}
    {first state : Session} (sound : (ledger first).Sound)
    (lists : Lists (isolates marking ledger) depth aliases own first done statement state) :
    Cohort marking (ledger first) (ledger state) (listedBefore statement done) := by
  induction lists with
  | start => exact .nil sound
  | skip lists plain induction => rwa [listedBefore_skip plain]
  | nested lists found grows compiled induction =>
      rw [listedBefore_replaceNested grows found]
      exact induction.append (compiled induction.grows.sound _)

theorem Operands.cohort {around : Statement Query} {conditions results : List (Condition (Field Query))}
    {first last : Session} (sound : (ledger first).Sound)
    (operands : Operands (isolates marking ledger) depth around conditions first results last) :
    Cohort marking (ledger first) (ledger last) (results.filterMap Condition.query?) := by
  induction operands with
  | nil => exact .nil sound
  | plain plain later induction =>
      rw [List.filterMap_cons_none plain]
      exact induction sound
  | @nested _ _ body _ _ _ _ _ _ kind compiled later induction =>
      have own := compiled sound body.metadata
      exact own.append (induction own.grows.sound)

end Query

end ObjectQuery
