import ObjectQuery.Proofs.Condition.Related
import ObjectQuery.Resolution.Statement

namespace ObjectQuery

/-!
Resolving the fields of a clause. What is to be shown of a column, a call and a field
set one by one holds of all the fields of the clause, however they are nested.
-/

namespace Field

variable {Q : Type} {invariant : Scope Q → Prop}

/-- A field among others, of which those that stand for queries are left as they are. -/
def resolveUnlessNested (use : FieldUse) (field : Field Q) : Resolver Q (Field Q) :=
  if field.kind.isSubquery then pure field else field.resolve use

theorem resolveSelected_cons (use : FieldUse) (selected : SelectAliases Q) (field : Field Q)
    (rest : List (Field Q)) :
    resolveSelected use selected (field :: rest) = (do
      let field ← resolveUnlessNested use field
      let selected ← addAlias selected field
      let (rest, selected) ← resolveSelected use selected rest
      return (field :: rest, selected)) := by
  rw [resolveSelected, resolveUnlessNested]
  split <;> rfl

theorem resolveConditions_cons (use : FieldUse) (field : Field Q)
    (rest : List (Condition (Field Q))) :
    resolveConditions use (.operand field :: rest) = (do
      let field ← resolveUnlessNested use field
      return .operand field :: (← resolveConditions use rest)) := by
  rw [resolveConditions, resolveUnlessNested]
  split <;> rfl

theorem addAlias_yields (selected : SelectAliases Q) (field : Field Q) :
    Step.Yields invariant (addAlias selected field) fun _ => True := by
  unfold addAlias
  split
  · exact .pure trivial
  · exact .ite (fun _ => .throw) fun _ => .pure trivial

/-- What is checked of a column that is found under the path. -/
structure Admitted (use : FieldUse) (scope : Scope Q) (path : Path) (column : Field Q) : Prop where
  longer : use.place = .select → use.isArgument = false → scope.primary.length < path.length
  within : use.place = .select → path.startsWith scope.primary = true
  grouped : use.isArgument = false → use.isGrouped scope.isAggregation = true →
    Grouping.isKey use.groupKeys scope.primary column = true

theorem resolveColumn_yields {use : FieldUse} {path : Path} {field : Field Q}
    {reached : Path → Prop} {property : Field Q → Prop}
    (qualify : Step.Yields invariant (Scope.qualify use.registers path) reached)
    (unnamed : path = [] → property field)
    (found : ∀ scope qualified, invariant scope → reached qualified →
      Admitted use scope qualified { field with kind := .column qualified, key := qualified.key } →
        property { field with kind := .column qualified, key := qualified.key }) :
    Step.Yields invariant (field.resolveColumn use path) property := by
  refine .ite (fun empty => .pure (unnamed (List.isEmpty_iff.1 empty))) fun _ => ?_
  refine qualify.bind fun qualified arrives => Step.Yields.get.bind fun scope held => ?_
  dsimp only
  refine .ite (fun select => .ite (fun _ => .throw_bind) fun long => ?_) fun elsewhere => ?_
  · refine .ite (fun _ => .throw_bind) fun within => .ite (fun _ => .throw_bind) fun isKey => ?_
    refine .pure (found scope qualified held arrives ⟨fun _ own => ?_, fun _ => ?_, ?_⟩)
    · simpa [own] using long
    · simpa using within
    · intro own groups
      simpa [own, groups] using isKey
  · refine .ite (fun _ => .throw_bind) fun isKey => .pure (found scope qualified held arrives ?_)
    refine ⟨fun select => absurd select elsewhere, fun select => absurd select elsewhere, ?_⟩
    intro own groups
    simpa [own, groups] using isKey

theorem resolveFieldSet_yields {name : String} {arguments : List (Field Q)} {field : Field Q}
    {property : Field Q → Prop}
    (found : ∀ path : Path,
      property { field with kind := .fieldSet path, key := path.key, aliasName := none }) :
    Step.Yields invariant (field.resolveFieldSet name arguments) property := by
  unfold resolveFieldSet
  split
  · split
    · refine Step.Yields.get.bind fun scope _ => ?_
      dsimp only
      split
      · exact .throw
      · exact .pure (found _)
    · exact .throw
  · exact .throw

theorem resolveCall_yields {use : FieldUse} {function name : String} {arguments : List (Field Q)}
    {field : Field Q} {property : Field Q → Prop}
    (called : ∀ aggregated, property { field with kind := .call name arguments, aggregated }) :
    Step.Yields invariant (field.resolveCall use function name arguments) property := by
  refine Step.Yields.get.bind fun scope _ => .ite (fun _ => ?_) fun _ => .pure (called _)
  dsimp only
  split
  · exact .guarded (.pure (called _))
  · exact .pure (called _)

/-- A function that counts is not misplaced only where fields are selected, or rows restricted. -/
theorem place_of_misplaced?_eq_none {use : FieldUse} {isAggregation : Bool} {function : String}
    (placed : misplaced? use isAggregation function = none) (other : function ≠ "fields")
    (count : Grouping.isCount function = true) : use.place = .select ∨ use.place = .having := by
  unfold misplaced? at placed
  rw [if_neg other, if_pos count] at placed
  by_contra elsewhere
  rw [if_neg elsewhere] at placed
  cases placed

/--
What is to be shown of each kind of field, so that it holds of all fields: those that are
as asked lead to related ones, and what is known keeps the invariant.
-/
structure Resolving (invariant : Scope Q → Prop) (asked : FieldUse → Field Q → Prop)
    (related : FieldUse → Field Q → Field Q → Prop) : Prop where
  mention : ∀ scope mentions, invariant scope → invariant { scope with mentions }
  /-- A call that counts stands among selected fields, or in conditions on grouped rows. -/
  count : ∀ {use : FieldUse} {field : Field Q} {name : String} {arguments : List (Field Q)},
    asked use field → field.kind = .call name arguments →
      Grouping.isCount (lowerText name) = true → use.place = .select ∨ use.place = .having →
      ∀ scope, invariant scope → invariant { scope with isAggregation := true }
  arguments : ∀ {use : FieldUse} {field : Field Q} {name : String} {arguments : List (Field Q)},
    asked use field → field.kind = .call name arguments →
      ∀ argument ∈ arguments, asked use.ofArguments argument
  column : ∀ {use : FieldUse} {field : Field Q} {path : Path}, asked use field →
    field.kind = .column path →
      Step.Yields invariant (field.resolveColumn use path) (related use field)
  fieldSet : ∀ {use : FieldUse} {field : Field Q} {name : String} {arguments : List (Field Q)},
    asked use field → field.kind = .call name arguments →
      Step.Yields invariant (field.resolveFieldSet name arguments) (related use field)
  call : ∀ {use : FieldUse} {field : Field Q} {name : String}
    {arguments resolved : List (Field Q)}, asked use field → field.kind = .call name arguments →
      List.Forall₂ (related use.ofArguments) arguments resolved →
      Step.Yields invariant (field.resolveCall use (lowerText name) name resolved)
        (related use field)
  unchanged : ∀ {use : FieldUse} {field : Field Q}, asked use field →
    field.kind.isColumn = false → field.kind.isCall = false → related use field field

namespace Resolving

variable {asked : FieldUse → Field Q → Prop} {related : FieldUse → Field Q → Field Q → Prop}

theorem mention_yields (resolving : Resolving invariant asked related)
    {change : Scope Q → Scope Q}
    (mentions : ∀ scope, ∃ mentions, change scope = { scope with mentions }) :
    Step.Yields invariant (modify change : Resolver Q PUnit) fun _ => True := by
  refine .modify fun scope held => ?_
  obtain ⟨mentions, changed⟩ := mentions scope
  rw [changed]
  exact resolving.mention scope mentions held

mutual

theorem resolve (resolving : Resolving invariant asked related) (use : FieldUse) :
    (field : Field Q) → asked use field →
    Step.Yields invariant (field.resolve use) (related use field)
  | ⟨kind, _, _, _, _, _, _⟩, given => by
      unfold Field.resolve
      exact resolveKind resolving use kind _ rfl given

theorem resolveKind (resolving : Resolving invariant asked related) (use : FieldUse) :
    (kind : FieldKind Q) → (field : Field Q) → field.kind = kind → asked use field →
    Step.Yields invariant (Field.resolveKind use kind field) (related use field)
  | .column path, field, same, given => resolving.column given same
  | .call name arguments, field, same, given => by
      have called : Step.Yields invariant (do
          let arguments ← Field.resolveAll use.ofArguments arguments
          field.resolveCall use (lowerText name) name arguments) (related use field) :=
        (resolveAll resolving use.ofArguments arguments (resolving.arguments given same)).bind
          fun _ relations => resolving.call given same relations
      unfold Field.resolveKind
      refine (resolving.mention_yields fun scope => ⟨_, rfl⟩).bind fun _ _ => ?_
      refine Step.Yields.get.bind fun scope _ => ?_
      dsimp only
      split
      · exact .throw_bind
      · rename_i placed
        refine .ite (fun _ => resolving.fieldSet given same) fun other => ?_
        split
        · exact .throw_bind
        · refine .ite (fun count => ?_) fun _ => called
          have place := place_of_misplaced?_eq_none
            (Option.eq_none_iff_forall_ne_some.2 placed) other count
          exact (Step.Yields.modify (resolving.count given same count place)).bind
            fun _ _ => called
  | .fieldSet _, field, same, given => by
      unfold Field.resolveKind
      refine .ite (fun _ => .throw) fun _ => .ite (fun _ => .pure ?_) fun _ => .throw
      exact resolving.unchanged given (by rw [same]; rfl) (by rw [same]; rfl)
  | .parameter _, field, same, given | .relativeDate _, field, same, given => by
      unfold Field.resolveKind
      refine (resolving.mention_yields fun scope => ⟨_, rfl⟩).bind fun _ _ => .pure ?_
      exact resolving.unchanged given (by rw [same]; rfl) (by rw [same]; rfl)
  | .literal value, field, same, given => by
      have unchanged : related use field field :=
        resolving.unchanged given (by rw [same]; rfl) (by rw [same]; rfl)
      cases value with
      | list items =>
          unfold Field.resolveKind
          exact (resolving.mention_yields fun scope => ⟨_, rfl⟩).bind fun _ _ => .pure unchanged
      | _ =>
          unfold Field.resolveKind
          exact .pure unchanged
  | .subquery _, field, same, given => by
      unfold Field.resolveKind
      exact .pure (resolving.unchanged given (by rw [same]; rfl) (by rw [same]; rfl))

theorem resolveAll (resolving : Resolving invariant asked related) (use : FieldUse) :
    (fields : List (Field Q)) → (∀ field ∈ fields, asked use field) →
    Step.Yields invariant (Field.resolveAll use fields) (List.Forall₂ (related use) fields)
  | [], _ => .pure .nil
  | field :: rest, given => by
      obtain ⟨first, later⟩ := List.forall_mem_cons.1 given
      unfold Field.resolveAll
      exact (resolve resolving use field first).bind fun _ relation =>
        (resolveAll resolving use rest later).bind fun _ relations =>
          .pure (.cons relation relations)

end

theorem resolveUnlessNested (resolving : Resolving invariant asked related) (use : FieldUse)
    (field : Field Q) (given : asked use field) :
    Step.Yields invariant (field.resolveUnlessNested use) (related use field) := by
  refine .ite (fun nested => .pure ?_) fun _ => resolving.resolve use field given
  cases kind : field.kind <;> rw [kind] at nested <;> cases nested
  exact resolving.unchanged given (by rw [kind]; rfl) (by rw [kind]; rfl)

end Resolving

/-- What each selected field leads to, where the ones before it keep the invariant. -/
theorem resolveSelected_forall₂ {related : Field Q → Field Q → Prop} {use : FieldUse}
    {fields : List (Field Q)}
    (each : ∀ field ∈ fields, Step.Yields invariant (resolveUnlessNested use field) (related field))
    (selected : SelectAliases Q) :
    Step.Yields invariant (resolveSelected use selected fields) fun result =>
      List.Forall₂ related fields result.1 := by
  induction fields generalizing selected with
  | nil => exact .pure .nil
  | cons field rest induction =>
      obtain ⟨first, later⟩ := List.forall_mem_cons.1 each
      rw [resolveSelected_cons]
      refine first.bind fun resolved relation => ?_
      refine (addAlias_yields selected resolved).bind fun selected _ => ?_
      exact (induction later selected).bind fun _ relations => .pure (.cons relation relations)

/-- What each operand leads to, where the ones before it keep the invariant. -/
theorem resolveConditions_forall₂ {related : Field Q → Field Q → Prop} {use : FieldUse}
    {conditions : List (Condition (Field Q))}
    (each : ∀ field ∈ conditions.filterMap Condition.operand?,
      Step.Yields invariant (resolveUnlessNested use field) (related field)) :
    Step.Yields invariant (resolveConditions use conditions)
      (List.Forall₂ (Condition.Related related) conditions) := by
  induction conditions with
  | nil => exact .pure .nil
  | cons entry rest induction =>
      cases entry with
      | operand field =>
          obtain ⟨first, later⟩ := List.forall_mem_cons.1 each
          rw [resolveConditions_cons]
          exact first.bind fun _ relation =>
            (induction later).bind fun _ relations => .pure (.cons (.operand relation) relations)
      | noop => exact (induction each).bind fun _ relations => .pure (.cons .noop relations)
      | unknown => exact (induction each).bind fun _ relations => .pure (.cons .unknown relations)
      | operator op =>
          exact (induction each).bind fun _ relations => .pure (.cons (.operator op) relations)

/-- The fields are the ones under their aliases, and no others are. -/
structure Labels (fields : List (Field Q)) (selected : SelectAliases Q) : Prop where
  named : ∀ key field, selected.find? key = some field →
    field ∈ fields ∧ ∃ aliasName, field.aliasName = some aliasName ∧ lowerText aliasName = key
  listed : ∀ field ∈ fields, ∀ aliasName, field.aliasName = some aliasName →
    selected.find? (lowerText aliasName) = some field

theorem addAlias_labels {earlier : List (Field Q)} {selected : SelectAliases Q} {field : Field Q}
    (labels : Labels earlier selected) :
    Step.Yields (fun _ => True) (addAlias selected field) (Labels (earlier ++ [field])) := by
  unfold addAlias
  split
  · rename_i unnamed
    refine .pure ⟨fun key other found => ?_, ?_⟩
    · exact (labels.named key other found).imp_left (List.mem_append_left _)
    · refine List.forall_mem_append.2 ⟨labels.listed, ?_⟩
      simp [unnamed]
  · rename_i name own
    refine .ite (fun _ => .throw) fun fresh => .pure ⟨fun key other found => ?_, ?_⟩
    · by_cases same : lowerText name = key
      · rw [same, SortedMap.find?_insert_self] at found
        cases found
        exact ⟨List.mem_append_right _ (List.mem_singleton_self _), name, own, same⟩
      · rw [SortedMap.find?_insert_of_ne _ _ same] at found
        exact (labels.named key other found).imp_left (List.mem_append_left _)
    · refine List.forall_mem_append.2 ⟨fun other member aliasName given => ?_, ?_⟩
      · have found := labels.listed other member aliasName given
        have different : lowerText name ≠ lowerText aliasName := by
          intro same
          rw [← same] at found
          exact fresh (by simp [SortedMap.contains, found])
        rw [SortedMap.find?_insert_of_ne _ _ different, found]
      · rintro other member aliasName given
        cases List.mem_singleton.1 member
        cases own.symm.trans given
        exact SortedMap.find?_insert_self ..

theorem resolveSelected_labels (use : FieldUse) {earlier : List (Field Q)}
    {selected : SelectAliases Q} (fields : List (Field Q)) (labels : Labels earlier selected) :
    Step.Yields (fun _ => True) (resolveSelected use selected fields) fun result =>
      Labels (earlier ++ result.1) result.2 := by
  induction fields generalizing earlier selected with
  | nil => exact .pure (by simpa using labels)
  | cons field rest induction =>
      rw [resolveSelected_cons]
      refine .after fun resolved => (addAlias_labels labels).bind fun selected more => ?_
      refine (induction more).bind fun result whole => .pure ?_
      simpa using whole

theorem labels_empty : Labels [] (.empty : SelectAliases Q) where
  named _ _ impossible := by cases impossible
  listed := by simp

end Field

/-- A sort key leads to the selected field whose alias it names, or else to its own field. -/
theorem OrderKey.resolve_yields {Q : Type} {invariant : Scope Q → Prop} {use : FieldUse}
    {selected : SelectAliases Q} {order : OrderKey Q} (property : Field Q → Prop)
    (named : ∀ name field, order.field.kind.path? = some [name] →
      selected.find? (lowerText name) = some field → property field)
    (own : (∀ name, order.field.kind.path? = some [name] →
        selected.find? (lowerText name) = none) →
      Step.Yields invariant (order.field.resolve use) property) :
    Step.Yields invariant (order.resolve use selected) fun resolved => property resolved.field := by
  unfold resolve
  dsimp only
  split
  · rename_i field found
    split at found
    · exact .pure (named _ field ‹_› found)
    · cases found
  · rename_i unnamed
    refine (own fun name path => ?_).bind fun field held => .pure held
    simpa only [path] using unnamed

end ObjectQuery
