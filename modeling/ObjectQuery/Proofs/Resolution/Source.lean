import ObjectQuery.Proofs.Query.Parsed
import ObjectQuery.Proofs.Resolution.Walk
import ObjectQuery.Proofs.Step
import ObjectQuery.Resolution.Source

namespace ObjectQuery

/-!
Resolving the objects that a query reads from. Their names stand for their paths,
and the objects that these pass through are registered.
-/

namespace Path

theorem plain_withLast {path : Path} {segment : String} (plain : path.Plain)
    (undotted : Undotted segment) :
    Path.Plain (path.withLast segment) ∧ (path.withLast segment).length = path.length := by
  have nonempty := List.length_pos_iff.2 plain.1
  have shape : path.withLast segment = path.dropLast ++ [segment] :=
    if_neg (by simpa using plain.1)
  rw [shape, List.length_append, List.length_dropLast, List.length_singleton]
  refine ⟨⟨by simp, List.forall_mem_append.2 ⟨fun other member => ?_, by simpa using undotted⟩⟩,
    by omega⟩
  exact plain.2 other (List.dropLast_subset path member)

/-- Only the last segment is replaced. -/
theorem take_withLast {path : Path} (segment : String) {length : Nat}
    (shorter : length < path.length) : (path.withLast segment).take length = path.take length := by
  have nonempty : path ≠ [] := List.length_pos_iff.1 (Nat.lt_of_le_of_lt (Nat.zero_le _) shorter)
  rw [withLast, if_neg (by simpa using nonempty), List.take_append_of_le_length
    (by rw [parent, List.length_dropLast]; omega), parent, List.dropLast_eq_take, List.take_take,
    Nat.min_eq_left (by omega)]

theorem named_lowerText {path : Path} {segment : String} (undotted : Undotted segment) :
    path.Named (lowerText segment) :=
  .inl (List.count_eq_zero.2 undotted.lowerText)

end Path

namespace Scope

variable {Q : Type} {known : Path → Prop} {scope : Scope Q} {path : Path}

theorem nameObject_sound (sound : scope.Sound known) (located : path.LocatedIn known scope.objects)
    {aliasName : Option String}
    (undotted : ∀ segment, aliasName = some segment → Undotted segment) :
    (scope.nameObject path aliasName).Sound known := by
  have own := sound.name located.plain.named_key located
  unfold nameObject
  cases aliasName with
  | none => exact own
  | some segment =>
      have single := undotted segment rfl
      obtain ⟨last, length⟩ := Path.plain_withLast located.plain single
      have named : path.Named (Path.key (path.withLast segment)) := by
        rw [Path.Named, ← length]
        exact last.named_key
      have later := own.name (Path.named_lowerText single) located
      exact later.name named located

theorem expandFirst_plain (sound : scope.Sound known) (plain : path.Plain) :
    Path.Plain (scope.expandFirst path) := by
  unfold expandFirst
  split
  · rename_i qualified found
    exact (sound.aliases _ _ found).2.plain.append (plain.undotted_of_mem_drop 1)
  · exact plain

/-- A walk that may register objects is not stopped. -/
theorem exists_walk_eq (scope : Scope Q) (path : Path) :
    ∃ reached after, scope.walk true path = some (reached, after) := by
  have registers (steps index : Nat) (path : Path) (scope : Scope Q) :
      walkWithin true steps index path scope ≠ .unregistered := by
    induction steps generalizing index path scope with
    | zero => exact fun impossible => by cases impossible
    | succ steps induction =>
        unfold walkWithin
        split
        · dsimp only
          split
          · exact induction _ _ _
          · rw [if_pos rfl]
            exact induction _ _ _
        · exact fun impossible => by cases impossible
  unfold walk
  split
  · exact ⟨_, _, rfl⟩
  · rename_i stopped
    exact absurd stopped (registers _ _ _ _)
  · exact ⟨_, _, rfl⟩

theorem resolveObject_eq {object : SourceObject Q} {reached : Path} {after : Scope Q}
    (arrives : scope.walk true (scope.expandFirst object.path) = some (reached, after)) :
    scope.resolveObject object =
      ({ object with path := reached, key := reached.key },
        after.nameObject reached object.aliasName) := by
  unfold resolveObject
  dsimp only
  rw [arrives]
  rfl

theorem objects_nameObject (scope : Scope Q) (path : Path) (aliasName : Option String) :
    (scope.nameObject path aliasName).objects = scope.objects := by
  cases aliasName <;> rfl

/-- An object that is resolved is known from then on. -/
theorem resolveObject_sound (sound : scope.Sound known) {object : SourceObject Q}
    (plain : object.path.Plain)
    (undotted : ∀ segment, object.aliasName = some segment → Undotted segment) :
    scope.objects <+: (scope.resolveObject object).2.objects ∧
      (scope.resolveObject object).1.key = (scope.resolveObject object).1.path.key ∧
      (scope.resolveObject object).1.path.LocatedIn
        (fun path => known path ∨ path = (scope.resolveObject object).1.path)
        (scope.resolveObject object).2.objects ∧
      (scope.resolveObject object).2.Sound
        fun path => known path ∨ path = (scope.resolveObject object).1.path := by
  have expanded := expandFirst_plain sound plain
  obtain ⟨reached, after, arrives⟩ := exists_walk_eq scope (scope.expandFirst object.path)
  obtain ⟨leads, reachedPlain, _, within⟩ := walk_arrives sound expanded arrives
  have located : reached.LocatedIn (fun path => known path ∨ path = reached) after.objects :=
    .of_shorter reachedPlain
      (fun length positive less => (within length positive less).mono .inl (List.Subset.refl _))
      (.inl (.inr rfl))
  rw [resolveObject_eq arrives, objects_nameObject]
  exact ⟨leads.objects, rfl, located, nameObject_sound (leads.sound.mono fun _ => .inl) located undotted⟩

end Scope

namespace SourceObject

open Scope (Sound)

variable {Q : Type} {known : Path → Prop}

theorem qualify_plain {aliases : AliasMap} {primary : Path} {object : SourceObject Q}
    (primaryPlain : primary.Plain) (plain : object.path.Plain) :
    (object.qualify aliases primary).path.Plain := by
  unfold qualify
  split
  · exact plain
  · exact primaryPlain.append plain.2

theorem aliasName_qualify (aliases : AliasMap) (primary : Path) (object : SourceObject Q) :
    (object.qualify aliases primary).aliasName = object.aliasName := by
  unfold qualify
  split <;> rfl

theorem addAlias_meets (used : SortedSet String) (aliasName : Option String) (before : Scope Q) :
    Step.Meets (addAlias used aliasName) before fun _ after => after = before := by
  cases aliasName with
  | none => exact .pure rfl
  | some name => exact .ite (fun _ => .throw trivial) fun _ => .pure rfl

theorem resolveAll_meets {primary : Path} (primaryPlain : primary.Plain) (ownPrimary : Bool)
    (used : SortedSet String) {objects : List (SourceObject Q)}
    (declared : ∀ object ∈ objects, Statement.Declared object)
    (plain : ∀ object ∈ objects, object.path.Plain) {before : Scope Q}
    (sound : before.Sound known) :
    Step.Meets (resolveAll primary ownPrimary used objects) before fun resolved after =>
      before.objects <+: after.objects ∧ (∀ object ∈ resolved, object.path.LocatedIn
          (fun path => known path ∨ ∃ object ∈ resolved, object.path = path) after.objects ∧
        object.key = object.path.key) ∧
        after.Sound fun path => known path ∨ ∃ object ∈ resolved, object.path = path := by
  induction objects generalizing known ownPrimary used before with
  | nil => exact .pure ⟨List.prefix_rfl, by simp, sound.mono fun _ => .inl⟩
  | cons object rest induction =>
      obtain ⟨firstDeclared, laterDeclared⟩ := List.forall_mem_cons.1 declared
      obtain ⟨first, later⟩ := List.forall_mem_cons.1 plain
      refine .get_bind ?_
      dsimp only
      have given : (if ownPrimary = true then object
            else object.qualify before.aliases primary).path.Plain ∧
          (if ownPrimary = true then object
            else object.qualify before.aliases primary).aliasName = object.aliasName := by
        split
        · exact ⟨first, rfl⟩
        · exact ⟨qualify_plain primaryPlain first, aliasName_qualify ..⟩
      generalize (if ownPrimary = true then object
        else object.qualify before.aliases primary) = given at given ⊢
      obtain ⟨begins, key, located, knows⟩ := Scope.resolveObject_sound sound given.1
        fun segment own => firstDeclared.2 segment (given.2 ▸ own)
      refine .set_bind ?_
      refine (addAlias_meets used _ _).bind fun used _ same => ?_
      subst same
      refine (induction false used laterDeclared later knows).bind ?_
      rintro resolved after ⟨more, locatedToo, sound⟩
      have knowsAll {first : SourceObject Q} (path : Path)
          (knows : (known path ∨ path = first.path) ∨ ∃ object ∈ resolved, object.path = path) :
          known path ∨ ∃ object ∈ first :: resolved, object.path = path := by
        rcases knows with (knows | rfl) | ⟨object, member, same⟩
        · exact .inl knows
        · exact .inr ⟨first, List.mem_cons_self, rfl⟩
        · exact .inr ⟨object, List.mem_cons_of_mem _ member, same⟩
      refine .pure ⟨begins.trans more, List.forall_mem_cons.2 ⟨⟨?_, key⟩, fun object member => ?_⟩,
        sound.mono knowsAll⟩
      · exact located.weaken (fun path knows => knowsAll path (.inl knows)) more.subset
      · obtain ⟨located, key⟩ := locatedToo object member
        exact ⟨located.weaken knowsAll (List.Subset.refl _), key⟩

end SourceObject

namespace Scope

variable {Q : Type} {known : Path → Prop}

/-- The objects that a query reads from are resolved over names that are known around it. -/
theorem resolveObjects_sound (place : QueryPlace) {primary : Path} (primaryPlain : primary.Plain)
    {before : Scope Q} (declared : ∀ object ∈ before.objects, Statement.Declared object)
    (plain : ∀ object ∈ before.objects, object.path.Plain)
    (inherits : Inherits known before.aliases) :
    Step.Meets (resolveObjects place primary) before fun _ after => after.Sound known := by
  refine .get_bind (.modify_bind ?_)
  have empty : ({ before with objects := [] } : Scope Q).Sound known := by
    refine ⟨by simp, fun name path found => ?_⟩
    obtain ⟨named, plain, knows⟩ := inherits name path found
    exact ⟨named, plain, fun length _ => .inl (knows length)⟩
  refine (SourceObject.resolveAll_meets primaryPlain _ .empty declared plain empty).bind ?_
  rintro resolved after ⟨_, keyed, sound⟩
  change Scope.Sound known { after with objects := resolved ++ after.objects }
  -- What was known among the resolved objects is now known among those of the scope.
  have joins {path : Path} (located : path.LocatedIn
      (fun path => known path ∨ ∃ object ∈ resolved, object.path = path) after.objects) :
      path.LocatedIn known (resolved ++ after.objects) := by
    refine ⟨located.plain, fun length positive => ?_⟩
    rcases located.beginnings length positive with
      (knows | ⟨object, member, same⟩) | ⟨object, member, same⟩
    · exact .inl knows
    · exact .inr ⟨object, List.mem_append_left _ member, same⟩
    · exact .inr ⟨object, List.mem_append_right _ member, same⟩
  refine ⟨List.forall_mem_append.2 ⟨fun object member => ?_, fun object member => ?_⟩,
    fun name path found => (sound.aliases name path found).imp_right joins⟩
  · exact (keyed object member).imp_left joins
  · exact (sound.objects object member).imp_left joins

end Scope

end ObjectQuery
