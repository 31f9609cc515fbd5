import ObjectQuery.Proofs.Query.Named
import ObjectQuery.Proofs.Resolution.Standing

namespace ObjectQuery

/-!
Columns under a single name. Wherever they stand, they belong to the object that
the key of the primary object stands for.
-/

namespace Scope

variable {Q : Type} {start path : Path} {scope : Scope Q}

/-- The first object has the path `start`, the key of which stands for the other path. -/
structure Anchored (start path : Path) (scope : Scope Q) : Prop where
  starts : scope.StartsAt start
  stands : scope.aliases.find? start.key = some path

theorem Anchored.register (anchored : scope.Anchored start path) {other : Path}
    (unknown : scope.aliases.find? other.key = none) :
    (scope.register other).Anchored start path := by
  refine ⟨anchored.starts.register other, ?_⟩
  have different : other.key ≠ start.key := by
    intro same
    rw [same, anchored.stands] at unknown
    cases unknown
  rw [Scope.register, Scope.name, SortedMap.find?_insert_of_ne _ _ different]
  exact anchored.stands

theorem lasting_anchored : Lasting fun scope : Scope Q => scope.Anchored start path where
  qualify := qualify_yields fun _ _ unknown anchored => anchored.register unknown
  mention _ _ _ anchored := ⟨anchored.starts, anchored.stands⟩

theorem primary_of_startsAt (starts : scope.StartsAt start) : scope.primary = start := by
  obtain ⟨object, rest, objects, same⟩ := starts
  rw [primary, objects]
  exact same

theorem qualify_single (anchored : scope.Anchored start path) (registers : Bool)
    (segment : String) :
    Step.Meets (qualify registers [segment]) scope fun qualified _ =>
      qualified = path ++ [segment] := by
  refine .get_bind ?_
  have parent : Path.parent (start ++ [segment]) = start := List.dropLast_concat
  dsimp only
  rw [primary_of_startsAt anchored.starts, if_pos List.length_singleton, parent, anchored.stands]
  refine .pure ?_
  simp

theorem qualify_settles (registers : Bool) (name : Path) :
    Step.Yields (Anchored (Q := Q) start path) (qualify registers name) fun qualified =>
      ∀ segment, name = [segment] → qualified = path ++ [segment] := by
  intro before qualified after anchored run
  refine ⟨?_, (lasting_anchored.qualify registers name anchored run).2⟩
  rintro segment rfl
  exact (qualify_single anchored registers segment).of_ok run

end Scope

namespace Field

open Scope (Anchored)

variable {Q : Type} {start path : Path}

/-- A column under a single name has become one under the path. -/
def SettlesIn (path : Path) (before after : Field Q) : Prop :=
  ∀ segment, before.kind = .column [segment] → after.kind.path? = some (path ++ [segment])

/-- The field has become one under the path, as have the columns in arguments. -/
structure Settles (path : Path) (before after : Field Q) : Prop where
  own : SettlesIn path before after
  inner : List.Forall₂ (SettlesIn path) before.named after.named

theorem forall₂_allNamed {before after : List (Field Q)}
    (settle : List.Forall₂ (Settles path) before after) :
    List.Forall₂ (SettlesIn path) (allNamed before) (allNamed after) := by
  induction settle with
  | nil => exact .nil
  | cons first _ others => exact List.rel_append first.inner others

theorem settles_of_path? {before after : Field Q} {name other : Path}
    (namesBefore : before.kind.path? = some name) (namesAfter : after.kind.path? = some other)
    (own : SettlesIn path before after) : Settles path before after := by
  refine ⟨own, ?_⟩
  rw [named_of_path? namesBefore, named_of_path? namesAfter]
  exact .cons own .nil

/-- Nothing is asked of a field that reads no columns. -/
theorem settles_self {field : Field Q} (column : field.kind.isColumn = false)
    (call : field.kind.isCall = false) : Settles path field field := by
  have own : SettlesIn path field field := by
    intro segment kind
    rw [kind] at column
    cases column
  refine ⟨own, ?_⟩
  rw [named_eq]
  cases kind : field.kind with
  | fieldSet name => exact .cons own .nil
  | column name => simp [kind, FieldKind.isColumn] at column
  | call name arguments => simp [kind, FieldKind.isCall] at call
  | subquery _ | literal _ | parameter _ | relativeDate _ => exact .nil

theorem settles_of_call {before after : Field Q} {name : String} {arguments : List (Field Q)}
    (kind : before.kind = .call name arguments)
    (inner : List.Forall₂ (SettlesIn path) (allNamed arguments) after.named) :
    Settles path before after := by
  refine ⟨fun segment single => ?_, ?_⟩
  · rw [kind] at single
    cases single
  · rw [named_eq, kind]
    exact inner

theorem resolveColumn_settles (use : FieldUse) {name : Path} {field : Field Q}
    (kind : field.kind = .column name) :
    Step.Yields (Anchored start path) (field.resolveColumn use name) (Settles path field) := by
  have names : field.kind.path? = some name := by
    rw [kind]
    rfl
  refine resolveColumn_yields (Scope.qualify_settles use.registers name) (fun empty => ?_)
    fun scope qualified _ settles _ => ?_
  · refine settles_of_path? names names fun segment single => ?_
    rw [kind, empty] at single
    cases single
  · refine settles_of_path? names rfl fun segment single => ?_
    rw [kind] at single
    cases single
    rw [settles segment rfl]
    rfl

theorem resolveFieldSet_settles (name : String) (arguments : List (Field Q)) (field : Field Q) :
    Step.Yields (Anchored start path) (field.resolveFieldSet name arguments) fun resolved =>
      List.Forall₂ (SettlesIn path) (allNamed arguments) resolved.named := by
  unfold resolveFieldSet
  split
  · rename_i argument
    split
    · rename_i first rest kind
      refine Step.Yields.get.bind fun scope anchored => ?_
      dsimp only
      split
      · exact .throw
      · rename_i object found
        refine .pure ?_
        have names : argument.kind.path? = some (first :: rest) := by
          rw [kind]
          rfl
        rw [allNamed, allNamed, List.append_nil]
        refine (settles_of_path? names rfl fun segment single => ?_).inner
        rw [kind] at single
        cases single
        have parent : Path.parent (start ++ [first]) = start := List.dropLast_concat
        rw [Scope.primary_of_startsAt anchored.starts, if_pos List.length_singleton, parent,
          anchored.stands] at found
        cases found
        simp [Scope.primary_of_startsAt anchored.starts, FieldKind.path?]
    · exact .throw
  · exact .throw

theorem resolving_settles :
    Resolving (Anchored (Q := Q) start path) (fun _ _ => True) fun _ => Settles path where
  mention scope := Scope.lasting_anchored.mention scope scope.isAggregation
  count _ _ _ _ scope := Scope.lasting_anchored.mention scope true scope.mentions
  arguments _ _ _ _ := trivial
  column _ kind := resolveColumn_settles _ kind
  fieldSet _ kind := (resolveFieldSet_settles _ _ _).mono fun _ => settles_of_call kind
  call _ kind settle :=
    resolveCall_yields fun _ => settles_of_call kind (forall₂_allNamed settle)
  unchanged _ := settles_self

/-- The field is a single name, which is an alias of one of the selected fields. -/
def IsAlias (selected : SelectAliases Q) (field : Field Q) : Prop :=
  ∃ name, field.kind = .column [name] ∧ ∃ other, selected.find? (lowerText name) = some other

theorem replaceKeys_settles (selected : SelectAliases Q) (depth : Nat) (keys : SortedSet String)
    {before after : List (Field Q)} (settle : List.Forall₂ (Settles path) before after) :
    List.Forall₂ (fun key resolved => ¬key.IsAlias selected → SettlesIn path key resolved) before
      (replaceKeys selected depth keys after).1 := by
  induction settle generalizing keys with
  | nil => exact .nil
  | @cons key resolved _ _ first _ induction =>
      unfold replaceKeys
      split
      · exact .cons (fun _ => first.own) (induction keys)
      · rename_i field found
        refine .cons (fun named segment kind => absurd ?_ named) (induction _)
        obtain ⟨other, namesKey, rest⟩ := Option.bind_eq_some_iff.1 found
        rw [first.own segment kind] at namesKey
        cases namesKey
        split at rest
        · rename_i length
          rw [List.length_append, List.length_singleton, Nat.add_right_cancel_iff] at length
          subst length
          rw [List.getElem?_concat_length] at rest
          exact ⟨segment, kind, field, rest⟩
        · cases rest

end Field

namespace OrderKey

theorem resolve_settles {Q : Type} {start path : Path} (use : FieldUse)
    (selected : SelectAliases Q) (order : OrderKey Q) :
    Step.Yields (Scope.Anchored start path) (order.resolve use selected) fun resolved =>
      ¬order.field.IsAlias selected → order.field.SettlesIn path resolved.field := by
  refine resolve_yields
    (fun resolved => ¬order.field.IsAlias selected → order.field.SettlesIn path resolved)
    (fun name field names found other segment kind => absurd ?_ other)
    fun _ => (Field.resolving_settles.resolve use order.field trivial).mono fun _ settles _ =>
      settles.own
  rw [kind] at names
  cases names
  exact ⟨name, kind, field, found⟩

end OrderKey

namespace Statement

open Scope (Anchored)

variable {Q : Type} {start path : Path} {statement : Statement Q}

/-- Columns under single names that are no aliases of selected fields are found under the path. -/
structure SettlesIn (path : Path) (selected : SelectAliases Q) (before after : Statement Q) :
    Prop where
  fields : List.Forall₂ (Field.Settles path) before.fields
    (after.fields.take before.fields.length)
  filter : List.Forall₂ (Field.Settles path) (before.filter.filterMap Condition.operand?)
    (after.filter.filterMap Condition.operand?)
  groupBy : List.Forall₂
    (fun key resolved => ¬key.IsAlias selected → key.SettlesIn path resolved)
    before.groupBy after.groupBy
  having : List.Forall₂ (Field.Settles path) (before.having.filterMap Condition.operand?)
    (after.having.filterMap Condition.operand?)
  orderBy : List.Forall₂
    (fun order resolved => ¬order.field.IsAlias selected →
      order.field.SettlesIn path resolved.field)
    before.orderBy after.orderBy

/-- Once objects are resolved, single names are found under what the key of the first stands for. -/
theorem resolve_settles (place : QueryPlace) (primary : Path)
    (filtered : Condition.IsFilter statement.filter) (grouped : Condition.IsFilter statement.having)
    {before : Scope Q}
    (anchors : Step.Meets (Scope.resolveObjects place primary) before
      fun _ scope => ∃ path, scope.Anchored start path) :
    Step.Meets (statement.resolve place primary) before
      (fun result _ => ∃ scope path, Scope.resolveObjects place primary before = .ok ⟨⟩ scope ∧
        scope.Anchored start path ∧ statement.SettlesIn path result.2 result.1)
      CompileError.IsSemantic := by
  refine (resolve_course place primary filtered grouped before).mono ?_
  rintro _ _ ⟨course, rfl, rfl⟩
  obtain ⟨path, anchored⟩ := anchors.of_ok course.sources
  have keeps := course.keeps Scope.lasting_anchored anchored
  obtain ⟨groups, _⟩ := Field.resolving_settles.resolveAll _ statement.groupBy
    (fun _ _ => trivial) anchored course.groups
  obtain ⟨selects, _⟩ := course.forall₂_fields
    (fun field _ => Field.resolving_settles.resolveUnlessNested _ field trivial) keeps.counting
  have keyed := Field.replaceKeys_settles course.selected course.selecting.primary.length
    (SortedSet.ofList (course.written.map (·.key))) groups
  rw [course.replaces] at keyed
  obtain ⟨filters, _⟩ := course.forall₂_filter
    (fun field _ => Field.resolving_settles.resolveUnlessNested _ field trivial) keeps.selecting
  obtain ⟨havings, _⟩ := course.forall₂_having
    (fun field _ => Field.resolving_settles.resolveUnlessNested _ field trivial) keeps.filtering
  have inFilter := Condition.forall₂_operands filters
  have inHaving := Condition.forall₂_operands havings
  rw [course.distributes.operands] at inFilter
  rw [course.parts.operands] at inHaving
  obtain ⟨orders, _⟩ := course.forall₂_orderBy
    (fun order _ => OrderKey.resolve_settles _ course.selected order) keeps.restricting
  refine ⟨course.sourced, path, course.sources, anchored, ?_, inFilter, keyed, inHaving, orders⟩
  have length : course.resolved.fields.length = statement.fields.length := selects.length_eq.symm
  rw [fields_selectRead, List.take_left' length]
  exact selects

end Statement

end ObjectQuery
