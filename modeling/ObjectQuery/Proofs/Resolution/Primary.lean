import ObjectQuery.Proofs.Resolution.Source
import ObjectQuery.Proofs.Resolution.Statement

namespace ObjectQuery

/-!
Queries that stand alone, or in a condition. All their objects and all names for
these begin at the primary object, which stays the first.
-/

namespace Scope

variable {Q : Type} {start path : Path} {scope before after : Scope Q}

/-- The objects and the paths that names stand for begin with the path, which has a name. -/
structure Under (start : Path) (scope : Scope Q) : Prop where
  objects : ∀ object ∈ scope.objects, start <+: object.path
  aliases : ∀ name path, scope.aliases.find? name = some path → start <+: path
  named : ∃ path, scope.aliases.find? start.key = some path

namespace Under

theorem name (under : scope.Under start) (key : String) (begins : start <+: path) :
    (scope.name key path).Under start := by
  refine ⟨under.objects, fun other value found => ?_, ?_⟩
  · by_cases same : key = other
    · subst same
      rw [Scope.name, SortedMap.find?_insert_self] at found
      cases found
      exact begins
    · rw [Scope.name, SortedMap.find?_insert_of_ne _ _ same] at found
      exact under.aliases other value found
  · by_cases same : key = start.key
    · subst same
      exact ⟨path, SortedMap.find?_insert_self ..⟩
    · obtain ⟨value, found⟩ := under.named
      exact ⟨value, by rwa [Scope.name, SortedMap.find?_insert_of_ne _ _ same]⟩

theorem register (under : scope.Under start) (begins : start <+: path) :
    (scope.register path).Under start :=
  { under.name path.key begins with
    objects := List.forall_mem_append.2 ⟨under.objects, by simpa using begins⟩ }

theorem nameObject (under : scope.Under start) (begins : start <+: path)
    (aliasName : Option String) : (scope.nameObject path aliasName).Under start := by
  have own := under.name path.key begins
  cases aliasName with
  | none => exact own
  | some segment => exact (own.name _ begins).name _ begins

theorem walkWithin (single : start.length = 1) {registers : Bool} {steps index : Nat}
    {reached : Path} (under : scope.Under start) (begins : start <+: path)
    (arrives : walkWithin registers steps index path scope = .arrived reached after) :
    after.Under start ∧ start <+: reached := by
  induction steps generalizing index path scope with
  | zero => cases arrives
  | succ steps induction =>
      unfold Scope.walkWithin at arrives
      split at arrives
      · dsimp only at arrives
        split at arrives
        · rename_i qualified found
          exact induction under ((under.aliases _ _ found).trans (List.prefix_append ..)) arrives
        · split at arrives
          · have beginning : start <+: path.take (index + 1) :=
              List.prefix_take_iff.2 ⟨begins, by omega⟩
            exact induction (under.register beginning) begins arrives
          · cases arrives
      · cases arrives
        exact ⟨under, begins⟩

theorem walk (single : start.length = 1) {registers : Bool} {reached : Path}
    (under : scope.Under start) (begins : start <+: path)
    (walked : scope.walk registers path = some (reached, after)) :
    after.Under start ∧ start <+: reached := by
  unfold Scope.walk at walked
  split at walked
  · cases walked
    exact under.walkWithin single begins ‹_›
  · cases walked
  · cases walked
    exact ⟨under, begins⟩

/-- A walk that sets out from a name goes on from what the name stands for. -/
theorem walk_of_contains (single : start.length = 1) {registers : Bool} {reached : Path}
    (under : scope.Under start) (known : scope.aliases.contains (path.leadingKey 1) = true)
    (walked : scope.walk registers path = some (reached, after)) : after.Under start := by
  obtain ⟨qualified, found⟩ := Option.isSome_iff_exists.1 known
  unfold Scope.walk at walked
  split at walked
  · rename_i arrives
    cases walked
    cases steps : walkBound scope.aliases path with
    | zero =>
        rw [steps] at arrives
        cases arrives
    | succ steps =>
        rw [steps] at arrives
        unfold Scope.walkWithin at arrives
        split at arrives
        · dsimp only at arrives
          rw [Path.leadingKey] at found
          rw [show Path.key (path.take (0 + 1)) = Path.key (path.take 1) from rfl, found] at arrives
          exact (under.walkWithin single
            ((under.aliases _ _ found).trans (List.prefix_append ..)) arrives).1
        · cases arrives
          exact under
  · cases walked
  · cases walked
    exact under

theorem primary (under : scope.Under start) (nonempty : scope.objects ≠ []) :
    start <+: scope.primary := by
  unfold Scope.primary
  split
  · exact absurd ‹_› nonempty
  · rename_i object rest objects
    exact under.objects object (by simp [objects])

end Under

/-- The first object of the scope has the path. -/
def StartsAt (start : Path) (scope : Scope Q) : Prop :=
  ∃ object rest, scope.objects = object :: rest ∧ object.path = start

theorem StartsAt.register (starts : scope.StartsAt start) (path : Path) :
    (scope.register path).StartsAt start := by
  obtain ⟨object, rest, objects, same⟩ := starts
  exact ⟨object, rest ++ [_], by rw [Scope.register, objects]; rfl, same⟩

/-- The scope has a first object, with the path that all objects and names begin with. -/
structure Rooted (start : Path) (scope : Scope Q) : Prop where
  under : scope.Under start
  starts : scope.StartsAt start

theorem lasting_rooted (single : start.length = 1) :
    Lasting fun scope : Scope Q => scope.Rooted start where
  qualify registers path := by
    refine Step.Yields.get.bind fun scope rooted => ?_
    obtain ⟨object, rest, objects, _⟩ := rooted.starts
    have primary := rooted.under.primary (by simp [objects])
    dsimp only
    generalize (if path.length = 1 then scope.primary ++ path else path) = started
    split
    · exact .pure trivial
    · split
      · exact .throw
      · rename_i reached after walked
        have under : after.Under start := by
          by_cases known : scope.aliases.contains (started.leadingKey 1) = true
          · rw [if_pos known] at walked
            exact rooted.under.walk_of_contains single known walked
          · rw [if_neg known] at walked
            exact (rooted.under.walk single (primary.trans (List.prefix_append ..)) walked).1
        have starts : after.StartsAt start :=
          walk_keeps (fun scope path _ starts => starts.register path) rooted.starts walked
        exact (Step.Yields.set ⟨under, starts⟩).bind fun _ _ => .pure trivial
  mention scope _ _ rooted :=
    ⟨⟨rooted.under.objects, rooted.under.aliases, rooted.under.named⟩, rooted.starts⟩

theorem expandFirst_under (under : scope.Under start)
    (known : scope.aliases.contains (path.leadingKey 1) = true) :
    start <+: scope.expandFirst path := by
  obtain ⟨qualified, found⟩ := Option.isSome_iff_exists.1 known
  rw [expandFirst, found]
  exact (under.aliases _ _ found).trans (List.prefix_append ..)

/-- An object that is resolved from the primary object on begins with its path. -/
theorem resolveObject_under (single : start.length = 1) (under : scope.Under start)
    {object : SourceObject Q} (begins : start <+: scope.expandFirst object.path) :
    start <+: (scope.resolveObject object).1.path ∧ (scope.resolveObject object).2.Under start := by
  obtain ⟨reached, after, arrives⟩ := exists_walk_eq scope (scope.expandFirst object.path)
  rw [resolveObject_eq arrives]
  obtain ⟨later, reaches⟩ := under.walk single begins arrives
  exact ⟨reaches, later.nameObject reaches object.aliasName⟩

/-- A walk along a single segment has nothing to look at. -/
theorem walk_of_single (registers : Bool) (scope : Scope Q) (single : path.length = 1) :
    scope.walk registers path = some (path, scope) := by
  unfold walk
  cases walkBound scope.aliases path with
  | zero => rfl
  | succ steps =>
      unfold walkWithin
      rw [if_neg (by omega)]

theorem resolveObject_first {object : SourceObject Q} (single : object.path.length = 1)
    (objects : scope.objects = []) (unnamed : scope.aliases = .empty) :
    (scope.resolveObject object).1.path = object.path ∧
      (scope.resolveObject object).2.Under object.path := by
  have expanded : scope.expandFirst object.path = object.path := by
    rw [expandFirst, unnamed]
    rfl
  have arrives : scope.walk true (scope.expandFirst object.path) = some (object.path, scope) := by
    rw [expanded, walk_of_single true scope single]
  rw [resolveObject_eq arrives]
  have own : (scope.name object.path.key object.path).Under object.path := by
    refine ⟨by simp [Scope.name, objects], fun name path found => ?_,
      _, SortedMap.find?_insert_self ..⟩
    by_cases same : object.path.key = name
    · subst same
      rw [Scope.name, SortedMap.find?_insert_self] at found
      cases found
      exact List.prefix_rfl
    · rw [Scope.name, SortedMap.find?_insert_of_ne _ _ same, unnamed] at found
      cases found
  refine ⟨rfl, ?_⟩
  cases aliasName : object.aliasName with
  | none => exact own
  | some segment => exact (own.name _ List.prefix_rfl).name _ List.prefix_rfl

end Scope

namespace SourceObject

open Scope (Under)

variable {Q : Type} {start : Path}

/-- An object that is not the first is looked for from a known name, or from the primary object. -/
theorem contains_qualify {aliases : AliasMap} (single : start.length = 1)
    (named : ∃ path, aliases.find? start.key = some path) (object : SourceObject Q) :
    aliases.contains ((object.qualify aliases start).path.leadingKey 1) = true := by
  unfold qualify
  split
  · assumption
  · obtain ⟨path, found⟩ := named
    rw [Path.leadingKey, List.take_append_of_le_length (by omega), List.take_of_length_le (by omega),
      SortedMap.contains, found]
    rfl

theorem resolveAll_under (single : start.length = 1) (used : SortedSet String)
    (objects : List (SourceObject Q)) {before : Scope Q} (under : before.Under start) :
    Step.Meets (resolveAll start false used objects) before fun resolved after =>
      (∀ object ∈ resolved, start <+: object.path) ∧ after.Under start := by
  induction objects generalizing used before with
  | nil => exact .pure ⟨by simp, under⟩
  | cons object rest induction =>
      refine .get_bind ?_
      dsimp only
      rw [if_neg (by decide)]
      have known := contains_qualify single under.named object
      obtain ⟨begins, later⟩ := Scope.resolveObject_under single under
        (Scope.expandFirst_under under known)
      refine .set_bind ?_
      refine (addAlias_meets used _ _).bind fun used _ same => ?_
      subst same
      refine (induction used later).bind ?_
      rintro resolved after ⟨begin, under⟩
      exact .pure ⟨List.forall_mem_cons.2 ⟨begins, begin⟩, under⟩

end SourceObject

namespace Scope

variable {Q : Type} {start : Path}

/-- Where nothing is known before, the first object keeps its path, and the others begin with it. -/
theorem resolveObjects_rooted {place : QueryPlace} (alone : place ≠ .select)
    (single : start.length = 1) {before : Scope Q} (starts : before.StartsAt start)
    (unnamed : before.aliases = .empty) :
    Step.Meets (resolveObjects place start) before fun _ after => after.Rooted start := by
  obtain ⟨primary, rest, objects, rfl⟩ := starts
  obtain ⟨_, aliases, isAggregation, mentions⟩ := before
  cases objects
  cases unnamed
  have own : (place != .select) = true := by simpa using alone
  refine .get_bind (.modify_bind ?_)
  dsimp only
  rw [own]
  have all : Step.Meets (SourceObject.resolveAll primary.path true .empty (primary :: rest))
      ⟨[], .empty, isAggregation, mentions⟩ fun resolved after =>
        after.Under primary.path ∧ (∀ object ∈ resolved, primary.path <+: object.path) ∧
          ∃ object others, resolved = object :: others ∧ object.path = primary.path := by
    refine .get_bind ?_
    dsimp only
    rw [if_pos rfl]
    let scope : Scope Q := ⟨[], .empty, isAggregation, mentions⟩
    obtain ⟨path, under⟩ : (scope.resolveObject primary).1.path = primary.path ∧
      (scope.resolveObject primary).2.Under primary.path := resolveObject_first single rfl rfl
    refine .set_bind ?_
    refine (SourceObject.addAlias_meets .empty _ _).bind fun used _ same => ?_
    subst same
    refine (SourceObject.resolveAll_under single used rest under).bind ?_
    rintro resolved after ⟨begin, under⟩
    exact .pure ⟨under, List.forall_mem_cons.2 ⟨path ▸ List.prefix_rfl, begin⟩, _, resolved, rfl, path⟩
  refine all.bind ?_
  rintro resolved after ⟨under, begin, object, others, rfl, same⟩
  refine ⟨⟨List.forall_mem_append.2 ⟨begin, under.objects⟩, under.aliases, under.named⟩, ?_⟩
  exact ⟨object, others ++ after.objects, rfl, same⟩

end Scope

namespace SourceObject

variable {Q : Type}

theorem pairwise_inOrder (objects : List (SourceObject Q)) :
    (inOrder objects).tail.Pairwise fun left right => left.path.length ≤ right.path.length := by
  cases objects with
  | nil => exact .nil
  | cons primary rest =>
      let le (left right : SourceObject Q) : Bool := left.path.length ≤ right.path.length
      have trans : ∀ first second third : SourceObject Q,
          le first second = true → le second third = true → le first third = true := by
        intro first second third
        simpa [le] using Nat.le_trans
      have total : ∀ left right : SourceObject Q, (le left right || le right left) = true := by
        intro left right
        simpa [le] using Nat.le_total ..
      simpa [inOrder, le] using List.pairwise_mergeSort trans total rest

end SourceObject

namespace Statement

variable {Q : Type} {start : Path} {statement : Statement Q}

/-- The first path is the given one, which all others begin with, the shorter ones before. -/
structure Arranged (start : Path) (paths : List Path) : Prop where
  first : ∃ rest, paths = start :: rest ∧
    rest.Pairwise fun left right => left.length ≤ right.length
  begins : ∀ path ∈ paths, start <+: path

theorem arranged_inOrder {scope : Scope Q} (rooted : scope.Rooted start) :
    Arranged start ((SourceObject.inOrder scope.objects).map (·.path)) where
  first := by
    have ascending := SourceObject.pairwise_inOrder scope.objects
    obtain ⟨primary, rest, objects, path⟩ := rooted.starts
    rw [objects] at ascending ⊢
    refine ⟨_, by rw [SourceObject.inOrder, List.map_cons, path], ?_⟩
    rw [List.pairwise_map]
    exact ascending
  begins := by
    rw [List.forall_mem_map]
    exact fun object member => rooted.under.objects object (SourceObject.mem_inOrder.1 member)

/--
What lasts from the resolved objects on holds of the scope whose objects the
statement has in the end.
-/
theorem resolve_keeps {invariant : Scope Q → Prop} (lasting : Scope.Lasting invariant)
    {place : QueryPlace} {primary : Path} (filtered : Condition.IsFilter statement.filter)
    (grouped : Condition.IsFilter statement.having) {before : Scope Q}
    (begins : Step.Meets (Scope.resolveObjects place primary) before fun _ after =>
      invariant after) :
    Step.Meets (statement.resolve place primary) before
      (fun result _ => ∃ scope, invariant scope ∧
        result.1.objects = SourceObject.inOrder scope.objects) CompileError.IsSemantic := by
  refine (resolve_course place primary filtered grouped before).mono ?_
  rintro _ _ ⟨course, rfl, rfl⟩
  exact ⟨course.ordering, (course.keeps lasting (begins.of_ok course.sources)).ordering, rfl⟩

theorem resolve_arranged {place : QueryPlace} (alone : place ≠ .select)
    (single : start.length = 1) (filtered : Condition.IsFilter statement.filter)
    (grouped : Condition.IsFilter statement.having) {before : Scope Q}
    (starts : before.StartsAt start) (unnamed : before.aliases = .empty) :
    Step.Meets (statement.resolve place start) before
      (fun result _ => Arranged start (result.1.objects.map (·.path))) CompileError.IsSemantic := by
  have lasting : Scope.Lasting fun scope : Scope Q => scope.Rooted start :=
    Scope.lasting_rooted single
  refine (resolve_keeps lasting filtered grouped
    (Scope.resolveObjects_rooted alone single starts unnamed)).mono ?_
  rintro result _ ⟨scope, rooted, objects⟩
  rw [objects]
  exact arranged_inOrder rooted

end Statement

end ObjectQuery
