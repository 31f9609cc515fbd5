import ObjectQuery.Proofs.Resolution.Primary

namespace ObjectQuery

/-!
What names stand for once the objects of a query are resolved. Each name stands
for a path that has it as its key, or for that of an object whose alias spells it.
-/

namespace Path

/-- Nothing follows a single segment in a path with the same key. -/
theorem eq_of_key_eq {start path : Path} (single : start.length = 1) (begins : start <+: path)
    (keys : path.key = start.key) : path = start := by
  obtain ⟨segment, rfl⟩ := List.length_eq_one_iff.1 single
  obtain ⟨rest, rfl⟩ := begins
  cases rest with
  | nil => rfl
  | cons next others =>
      have lengths := congrArg (fun key => key.toList.length) keys
      simp [toList_key, List.intercalate_cons_cons] at lengths

end Path

namespace SourceObject

variable {Q : Type}

/-- The name is the alias of the object, by itself or after the path of the object's parent. -/
def Spells (name : String) (object : SourceObject Q) : Prop :=
  ∃ aliasName, object.aliasName = some aliasName ∧
    (name = lowerText aliasName ∨ name = Path.key (object.path.withLast aliasName))

end SourceObject

namespace Scope

variable {Q : Type} {scope after : Scope Q} {objects : List (SourceObject Q)} {path : Path}

theorem find?_name (scope : Scope Q) (key other : String) (path : Path) :
    (scope.name key path).aliases.find? other =
      if key = other then some path else scope.aliases.find? other := by
  split
  · rename_i same
    exact same ▸ SortedMap.find?_insert_self ..
  · exact SortedMap.find?_insert_of_ne _ _ ‹_›

/-- One of the objects has the path and an alias that spells the name. -/
def Captures (objects : List (SourceObject Q)) (name : String) (path : Path) : Prop :=
  ∃ object ∈ objects, object.path = path ∧ object.Spells name

/--
The keys of the objects of the scope and of more objects are names, and names
stand for paths with these keys unless an alias spells them.
-/
structure Standing (objects : List (SourceObject Q)) (scope : Scope Q) : Prop where
  spelled : ∀ name path, scope.aliases.find? name = some path →
    path.key = name ∨ Captures objects name path
  listed : ∀ object ∈ objects, ∃ path, scope.aliases.find? object.key = some path
  registered : ∀ object ∈ scope.objects, ∃ path, scope.aliases.find? object.key = some path

namespace Standing

theorem name (standing : scope.Standing objects) {key : String}
    (stands : path.key = key ∨ Captures objects key path) :
    (scope.name key path).Standing objects := by
  have named {object : SourceObject Q}
      (known : ∃ value, scope.aliases.find? object.key = some value) :
      ∃ value, (scope.name key path).aliases.find? object.key = some value := by
    rw [find?_name]
    split
    · exact ⟨path, rfl⟩
    · exact known
  refine ⟨fun other value found => ?_, fun object member => named (standing.listed object member),
    fun object member => named (standing.registered object member)⟩
  rw [find?_name] at found
  split at found
  · rename_i same
    cases found
    exact same ▸ stands
  · exact standing.spelled other value found

theorem register (standing : scope.Standing objects) (path : Path) :
    (scope.register path).Standing objects := by
  have named : (scope.name path.key path).Standing objects := standing.name (.inl rfl)
  refine ⟨named.spelled, named.listed, List.forall_mem_append.2 ⟨named.registered, ?_⟩⟩
  simp

/-- An object joins the others where its key is a name. -/
theorem join (standing : scope.Standing objects) {object : SourceObject Q}
    (known : ∃ path, scope.aliases.find? object.key = some path) :
    scope.Standing (objects ++ [object]) where
  spelled name path found := by
    refine (standing.spelled name path found).imp_right ?_
    rintro ⟨other, member, captures⟩
    exact ⟨other, List.mem_append_left _ member, captures⟩
  listed := List.forall_mem_append.2 ⟨standing.listed, by simpa using known⟩
  registered := standing.registered

theorem nameObject (standing : scope.Standing objects) {object : SourceObject Q}
    (key : object.key = object.path.key) :
    (scope.nameObject object.path object.aliasName).Standing (objects ++ [object]) := by
  have known : ∃ value,
      (scope.name object.path.key object.path).aliases.find? object.key = some value :=
    ⟨object.path, by rw [find?_name, if_pos key.symm]⟩
  have own := (standing.name (.inl rfl)).join known
  unfold Scope.nameObject
  cases aliasName : object.aliasName with
  | none => exact own
  | some segment =>
      have captures {name : String} (spells : name = lowerText segment ∨
          name = Path.key (object.path.withLast segment)) :
          Captures (objects ++ [object]) name object.path :=
        ⟨object, List.mem_append_right _ (List.mem_singleton_self _), rfl, segment, aliasName, spells⟩
      exact (own.name (.inr (captures (.inl rfl)))).name (.inr (captures (.inr rfl)))

theorem resolveObject (standing : scope.Standing objects) (object : SourceObject Q) :
    (scope.resolveObject object).2.Standing (objects ++ [(scope.resolveObject object).1]) := by
  obtain ⟨reached, after, arrives⟩ := exists_walk_eq scope (scope.expandFirst object.path)
  rw [resolveObject_eq arrives]
  have walked : after.Standing objects :=
    walk_keeps (fun scope path _ standing => standing.register path) standing arrives
  have key : ({ object with path := reached, key := reached.key } : SourceObject Q).key =
      reached.key := rfl
  exact walked.nameObject key

end Standing

end Scope

namespace SourceObject

open Scope (Standing)

variable {Q : Type}

theorem resolveAll_standing (primary : Path) (ownPrimary : Bool) (used : SortedSet String)
    (objects : List (SourceObject Q)) {earlier : List (SourceObject Q)} {before : Scope Q}
    (standing : before.Standing earlier) :
    Step.Meets (resolveAll primary ownPrimary used objects) before fun resolved after =>
      after.Standing (earlier ++ resolved) := by
  induction objects generalizing ownPrimary used earlier before with
  | nil => exact .pure (by simpa using standing)
  | cons object rest induction =>
      refine .get_bind ?_
      dsimp only
      generalize (if ownPrimary = true then object
        else object.qualify before.aliases primary) = given
      have later := standing.resolveObject given
      refine .set_bind ?_
      refine (addAlias_meets used _ _).bind fun used _ same => ?_
      subst same
      refine (induction false used later).bind fun resolved after standing => .pure ?_
      simpa using standing

end SourceObject

namespace Scope

variable {Q : Type}

theorem standing_empty (isAggregation : Bool) (mentions : Mentions) :
    Standing [] (⟨[], .empty, isAggregation, mentions⟩ : Scope Q) where
  spelled _ _ impossible := by cases impossible
  listed := by simp
  registered := by simp

/-- Where nothing is known before, the keys of all objects are names. -/
theorem resolveObjects_standing (place : QueryPlace) (primary : Path) {before : Scope Q}
    (unnamed : before.aliases = .empty) :
    Step.Meets (resolveObjects place primary) before fun _ after =>
      after.Standing after.objects := by
  obtain ⟨objects, _, isAggregation, mentions⟩ := before
  cases unnamed
  refine .get_bind (.modify_bind ?_)
  have empty := standing_empty (Q := Q) isAggregation mentions
  refine (SourceObject.resolveAll_standing primary _ .empty objects empty).bind ?_
  intro resolved after standing
  change Standing (resolved ++ after.objects) { after with objects := resolved ++ after.objects }
  have all := List.forall_mem_append.2 ⟨standing.listed, standing.registered⟩
  refine ⟨fun name path found => (standing.spelled name path found).imp_right ?_, all, all⟩
  rintro ⟨object, member, captures⟩
  exact ⟨object, List.mem_append_left _ member, captures⟩

end Scope

end ObjectQuery
