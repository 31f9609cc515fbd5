import ObjectQuery.Proofs.Resolution.Primary

namespace ObjectQuery

/-!
What resolving gives to each object of a statement: all have the keys of their
paths, and none is linked unless it was before. Those after the first come in
the order of the lengths of their paths.
-/

namespace SourceObject

variable {Q : Type}

/-- What holds of declared objects, and of all objects once their paths are resolved. -/
structure Settling (given holds : SourceObject Q → Prop) : Prop where
  qualified : ∀ object path, given object → given { object with path }
  resolved : ∀ object path, given object → holds { object with path, key := path.key }
  registered : ∀ path : Path, holds { path, key := path.key }

theorem settling_keyed :
    Settling (fun _ : SourceObject Q => True) fun object => object.key = object.path.key :=
  ⟨fun _ _ _ => trivial, fun _ _ _ => rfl, fun _ => rfl⟩

theorem settling_unlinked :
    Settling (fun object : SourceObject Q => object.parentViewId = none)
      fun object => object.parentViewId = none :=
  ⟨fun _ _ unlinked => unlinked, fun _ _ unlinked => unlinked, fun _ => rfl⟩

end SourceObject

namespace Scope

open SourceObject (Settling)

variable {Q : Type} {given holds : SourceObject Q → Prop} {scope : Scope Q}

/-- The property holds of the objects of the scope. -/
def All (holds : SourceObject Q → Prop) (scope : Scope Q) : Prop :=
  ∀ object ∈ scope.objects, holds object

theorem All.register (settling : Settling given holds) (all : scope.All holds) (path : Path) :
    (scope.register path).All holds :=
  List.forall_mem_append.2 ⟨all, List.forall_mem_singleton.2 (settling.registered path)⟩

theorem lasting_all (settling : Settling given holds) :
    Lasting fun scope : Scope Q => scope.All holds where
  qualify := qualify_yields fun _ path _ all => all.register settling path
  mention _ _ _ all := all

theorem All.resolveObject (settling : Settling given holds) (all : scope.All holds)
    {object : SourceObject Q} (own : given object) :
    holds (scope.resolveObject object).1 ∧ (scope.resolveObject object).2.All holds := by
  obtain ⟨reached, after, arrives⟩ := exists_walk_eq scope (scope.expandFirst object.path)
  rw [resolveObject_eq arrives]
  have walked : after.All holds :=
    walk_keeps (fun _ path _ all => all.register settling path) all arrives
  refine ⟨settling.resolved object reached own, ?_⟩
  rw [All, objects_nameObject]
  exact walked

end Scope

namespace SourceObject

variable {Q : Type} {given holds : SourceObject Q → Prop}

theorem resolveAll_forall (settling : Settling given holds) (primary : Path) (ownPrimary : Bool)
    (used : SortedSet String) {objects : List (SourceObject Q)}
    (declared : ∀ object ∈ objects, given object) {before : Scope Q}
    (all : before.All holds) :
    Step.Meets (resolveAll primary ownPrimary used objects) before fun resolved after =>
      (∀ object ∈ resolved, holds object) ∧ after.All holds := by
  induction objects generalizing ownPrimary used before with
  | nil => exact .pure ⟨by simp, all⟩
  | cons object rest induction =>
      obtain ⟨first, later⟩ := List.forall_mem_cons.1 declared
      refine .get_bind ?_
      dsimp only
      have started : given (if ownPrimary = true then object
          else object.qualify before.aliases primary) := by
        unfold qualify
        split
        · exact first
        · split
          · exact first
          · exact settling.qualified _ _ first
      generalize (if ownPrimary = true then object
        else object.qualify before.aliases primary) = started at started ⊢
      obtain ⟨own, all⟩ := all.resolveObject settling started
      refine .set_bind ?_
      refine (addAlias_meets used _ _).bind fun used _ same => ?_
      subst same
      refine (induction false used later all).bind ?_
      rintro resolved after ⟨others, all⟩
      exact .pure ⟨List.forall_mem_cons.2 ⟨own, others⟩, all⟩

end SourceObject

namespace Statement

open SourceObject (Settling)

variable {Q : Type} {given holds : SourceObject Q → Prop} {statement : Statement Q}

theorem resolveObjects_forall (settling : Settling given holds) (place : QueryPlace)
    (primary : Path) {before : Scope Q} (declared : ∀ object ∈ before.objects, given object) :
    Step.Meets (Scope.resolveObjects place primary) before fun _ after => after.All holds := by
  refine .get_bind (.modify_bind ?_)
  have none : ({ before with objects := [] } : Scope Q).All holds := by simp [Scope.All]
  refine (SourceObject.resolveAll_forall settling primary _ .empty declared none).bind ?_
  rintro resolved after ⟨own, all⟩
  exact List.forall_mem_append.2 ⟨own, all⟩

/-- What resolving gives to objects holds of those of the resolved statement, which are in order. -/
theorem resolve_forall (settling : Settling given holds) (place : QueryPlace) (primary : Path)
    (filtered : Condition.IsFilter statement.filter) (grouped : Condition.IsFilter statement.having)
    {before : Scope Q} (declared : ∀ object ∈ before.objects, given object) :
    Step.Meets (statement.resolve place primary) before
      (fun result _ => (∀ object ∈ result.1.objects, holds object) ∧
        result.1.objects.tail.Pairwise fun left right => left.path.length ≤ right.path.length)
      CompileError.IsSemantic := by
  have lasting : Scope.Lasting fun scope : Scope Q => scope.All holds :=
    Scope.lasting_all settling
  refine (resolve_keeps lasting filtered grouped
    (resolveObjects_forall settling place primary declared)).mono ?_
  rintro result _ ⟨scope, all, objects⟩
  rw [objects]
  exact ⟨fun object member => all object (SourceObject.mem_inOrder.1 member),
    SourceObject.pairwise_inOrder scope.objects⟩

/-- The objects have the keys of their paths, and nearer ones come before those after the first. -/
structure Ordered (statement : Statement Q) : Prop where
  keyed : ∀ object ∈ statement.objects, object.key = object.path.key
  ascending : statement.objects.tail.Pairwise fun left right =>
    left.path.length ≤ right.path.length

theorem resolve_ordered (place : QueryPlace) (primary : Path)
    (filtered : Condition.IsFilter statement.filter) (grouped : Condition.IsFilter statement.having)
    (before : Scope Q) :
    Step.Meets (statement.resolve place primary) before (fun result _ => Ordered result.1)
      CompileError.IsSemantic :=
  (resolve_forall SourceObject.settling_keyed place primary filtered grouped
    fun _ _ => trivial).mono fun _ _ held => ⟨held.1, held.2⟩

/-- Only the paths and keys of the objects matter. -/
theorem Ordered.of_bare {other : Statement Q} (ordered : statement.Ordered)
    (same : other.objects.map SourceObject.bare = statement.objects.map SourceObject.bare) :
    other.Ordered where
  keyed object member := by
    obtain ⟨own, given, alike⟩ := List.mem_map.1 (same ▸ List.mem_map_of_mem member)
    have path : own.path = object.path := congrArg (fun bare => bare.path) alike
    have key : own.key = object.key := congrArg (fun bare => bare.key) alike
    rw [← key, ← path]
    exact ordered.keyed own given
  ascending := by
    have paths (objects : List (SourceObject Q)) :
        (objects.tail.Pairwise fun left right => left.path.length ≤ right.path.length) ↔
          (objects.map SourceObject.bare).tail.Pairwise fun left right =>
            left.path.length ≤ right.path.length := by
      rw [← List.map_tail, List.pairwise_map]
      rfl
    rw [paths, same, ← paths]
    exact ordered.ascending

end Statement

end ObjectQuery
