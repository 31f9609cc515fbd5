import ObjectQuery.Proofs.Compiler.Step
import ObjectQuery.Proofs.Query.Alike

namespace ObjectQuery

/-!
Numbering the objects and columns of a statement numbers no queries and gives no
places to columns, and it leaves all else of the statement as it is.
-/

namespace Session

/-- A session without the numbers of columns. -/
def uncounted (session : Session) : Session :=
  { session with
    nextColumnId := 0
    registry := { session.registry with columnIds := .empty } }

/-- A session without the numbers of columns and of objects. -/
def unnumbered (session : Session) : Session :=
  { session.uncounted with
    nextViewId := 0
    maxViewDepth := 0
    viewGraph := .empty
    registry := { session.uncounted.registry with viewIds := .empty } }

theorem kept_of_unnumbered {before after : Session} (same : after.unnumbered = before.unnumbered) :
    before.Kept after where
  tally := (show after.unnumbered.tally = before.unnumbered.tally by rw [same])
  indexes := (show after.unnumbered.registry.columnIndexes =
    before.unnumbered.registry.columnIndexes by rw [same])

theorem unnumbered_of_uncounted {before after : Session} (same : after.uncounted = before.uncounted) :
    after.unnumbered = before.unnumbered :=
  show after.uncounted.unnumbered = before.uncounted.unnumbered by rw [same]

/-- The step leaves what `view` shows of a session, and returns values with the property. -/
def Numbers (view : Session → Session) (step : StateM Session α) (property : α → Prop) : Prop :=
  ∀ session, property (step session).1 ∧ view (step session).2 = view session

namespace Numbers

variable {α β : Type} {view : Session → Session} {property : α → Prop} {result : β → Prop}

theorem pure {value : α} (holds : property value) : Numbers view (Pure.pure value) property :=
  fun _ => ⟨holds, rfl⟩

theorem bind {step : StateM Session α} {next : α → StateM Session β}
    (first : Numbers view step property)
    (later : ∀ value, property value → Numbers view (next value) result) :
    Numbers view (step >>= next) result := by
  intro session
  obtain ⟨holds, kept⟩ := first session
  obtain ⟨resulting, keptToo⟩ := later _ holds (step session).2
  exact ⟨resulting, keptToo.trans kept⟩

theorem mono {weaker : α → Prop} {step : StateM Session α} (numbers : Numbers view step property)
    (weaken : ∀ value, property value → weaker value) : Numbers view step weaker :=
  fun session => (numbers session).imp_left (weaken _)

theorem and {step : StateM Session α} {also : α → Prop} (numbers : Numbers view step property)
    (numbersToo : Numbers view step also) :
    Numbers view step fun value => property value ∧ also value :=
  fun session => ⟨⟨(numbers session).1, (numbersToo session).1⟩, (numbers session).2⟩

/-- A traversal with a step that changes nothing of what `shown` shows. -/
theorem mapM {γ : Type} (shown : α → γ) (after : β → γ) {step : α → StateM Session β}
    {list : List α}
    (each : ∀ value ∈ list, Numbers view (step value) fun result => after result = shown value) :
    Numbers view (list.mapM step) fun results => results.map after = list.map shown := by
  induction list with
  | nil => exact pure rfl
  | cons value rest induction =>
      rw [List.mapM_cons]
      refine (each value (by simp)).bind fun first same => ?_
      refine (induction fun other member => each other (by simp [member])).bind
        fun others alike => ?_
      apply pure
      rw [List.map_cons, List.map_cons, same, alike]

theorem meets {step : StateM Session α} (numbers : Numbers view step property)
    (before : Session) {allowed : CompileError → Prop} :
    Step.Meets (Compilation.ofState step) before
      (fun value after => property value ∧ view after = view before) allowed :=
  numbers before

end Numbers

theorem takeColumnId_numbers : Numbers uncounted takeColumnId fun _ => True :=
  fun _ => ⟨trivial, rfl⟩

theorem viewId_numbers (key : String) : Numbers unnumbered (viewId key) fun _ => True := by
  have get : Numbers unnumbered get fun _ => True := fun _ => ⟨trivial, rfl⟩
  refine get.bind fun session _ => ?_
  split
  · exact .pure trivial
  · exact fun _ => ⟨trivial, rfl⟩

theorem columnId_numbers (key : String) : Numbers uncounted (columnId key) fun _ => True := by
  have get : Numbers uncounted get fun _ => True := fun _ => ⟨trivial, rfl⟩
  refine get.bind fun session _ => ?_
  split
  · exact .pure trivial
  · exact fun _ => ⟨trivial, rfl⟩

end Session

namespace SourceObject

open Session

theorem assignId_numbers (queryId queryDepth : Nat) (object : SourceObject Q) :
    Numbers unnumbered (object.assignId queryId queryDepth) fun numbered => numbered.bare = object.bare :=
  (viewId_numbers object.key).bind fun _ _ => fun _ => ⟨rfl, rfl⟩

end SourceObject

namespace Field

open Session

variable {Q : Type}

theorem newId_numbers (pass : CallPass) (isArgument : Bool) (field : Field Q) :
    Numbers uncounted (field.newId pass isArgument) fun _ => True := by
  unfold newId
  split
  · exact (columnId_numbers field.key).bind fun id _ => .pure trivial
  · split
    · exact takeColumnId_numbers.bind fun id _ => .pure trivial
    · exact .pure trivial
  · exact takeColumnId_numbers.bind fun id _ => .pure trivial
  · exact takeColumnId_numbers.bind fun id _ => .pure trivial
  · exact .pure trivial

theorem numbered_numbers (pass : CallPass) (isArgument : Bool) (field : Field Q) :
    Numbers uncounted (field.numbered pass isArgument) fun numbered =>
      ∃ columnId, numbered = { field with columnId } := by
  unfold numbered
  split
  · cases field
    exact .pure ⟨_, rfl⟩
  · exact (newId_numbers pass isArgument field).bind fun id _ => .pure ⟨id, rfl⟩

mutual

theorem assignId_numbers (pass : CallPass) (isArgument : Bool) : (field : Field Q) →
    Numbers uncounted (field.assignId pass isArgument) fun assigned => assigned.bare = field.bare
  | ⟨kind, _, _, _, _, _, _⟩ => by
      unfold assignId
      refine (numbered_numbers pass isArgument _).bind ?_
      rintro numbered ⟨id, given⟩
      refine (assignKind_numbers pass kind).bind fun assigned same => .pure ?_
      simp only [given, bare_eq, same]

theorem assignKind_numbers (pass : CallPass) : (kind : FieldKind Q) →
    Numbers uncounted (assignKind pass kind) fun assigned => assigned.bare = kind.bare
  | .call name arguments => by
      unfold assignKind
      refine (assignAll_numbers pass true arguments).bind fun assigned same => .pure ?_
      simp only [FieldKind.bare, allBare_eq_map, same]
  | .column _ | .fieldSet _ | .subquery _ | .literal _ | .parameter _ | .relativeDate _ =>
      .pure rfl

theorem assignAll_numbers (pass : CallPass) (isArgument : Bool) : (fields : List (Field Q)) →
    Numbers uncounted (assignAll pass isArgument fields) fun assigned =>
      assigned.map bare = fields.map bare
  | [] => .pure rfl
  | field :: rest => by
      unfold assignAll
      refine (assignId_numbers pass isArgument field).bind fun first same => ?_
      refine (assignAll_numbers pass isArgument rest).bind fun others alike => .pure ?_
      rw [List.map_cons, List.map_cons, same, alike]

end

theorem assignId_keeps_alias (pass : CallPass) (isArgument : Bool) (field : Field Q) :
    Numbers uncounted (field.assignId pass isArgument) fun assigned =>
      assigned.aliasName = field.aliasName := by
  obtain ⟨kind, aliasName, notSelected, aggregated, key, columnId, columnIndex⟩ := field
  unfold assignId
  refine (numbered_numbers pass isArgument _).bind ?_
  rintro _ ⟨id, rfl⟩
  exact (assignKind_numbers pass kind).bind fun _ _ => .pure rfl

theorem assignAll_keeps_aliases (pass : CallPass) (isArgument : Bool) (fields : List (Field Q)) :
    Numbers uncounted (assignAll pass isArgument fields) fun assigned =>
      assigned.map (·.aliasName) = fields.map (·.aliasName) := by
  induction fields with
  | nil => exact .pure rfl
  | cons field rest induction =>
      exact (assignId_keeps_alias pass isArgument field).bind fun _ same =>
        induction.bind fun _ alike => .pure (congrArg₂ List.cons same alike)

theorem assignConditions_numbers (pass : CallPass) (conditions : List (Condition (Field Q))) :
    Numbers uncounted (assignConditions pass conditions) fun assigned =>
      assigned.map (Condition.map bare) = conditions.map (Condition.map bare) := by
  refine .mapM _ _ fun entry member => ?_
  cases entry with
  | operand field =>
      exact (assignId_numbers pass false field).bind fun assigned same =>
        .pure (congrArg Condition.operand same)
  | noop | unknown | operator op => exact .pure rfl

theorem map_bare_nameAll (taken : List String) (named : List (Option Nat)) (counter : Nat)
    (fields : List (Field Q)) :
    (nameAll taken named counter fields).map bare = fields.map bare := by
  induction fields generalizing named counter with
  | nil => rfl
  | cons field rest induction =>
      unfold nameAll
      dsimp only
      split
      · rw [List.map_cons, List.map_cons, induction, bare_eq, bare_eq]
      · rw [List.map_cons, List.map_cons, induction]

end Field

namespace Statement

open Session

variable {statement : Statement Query}

theorem assignViewIds_numbers (depth : Nat) (statement : Statement Query) :
    Numbers unnumbered (statement.assignViewIds depth) statement.Alike := by
  have objects := Numbers.mapM SourceObject.bare SourceObject.bare
    fun object (_ : object ∈ statement.objects) =>
      SourceObject.assignId_numbers statement.id depth object
  refine objects.bind fun objects same => .pure ?_
  exact { Alike.refl statement with objects := same }

theorem assignColumnIds_numbers (statement : Statement Query) :
    Numbers uncounted statement.assignColumnIds fun numbered =>
      statement.Alike numbered ∧ numbered.objects = statement.objects := by
  refine (Field.assignAll_numbers .outermost false statement.fields).bind fun fields first => ?_
  have orderBy : Numbers uncounted (statement.orderBy.mapM fun order => do
      return { order with field := ← order.field.assignId .outermost false })
      fun assigned => assigned.map (·.field.bare) = statement.orderBy.map (·.field.bare) :=
    .mapM _ _ fun order _ =>
      (Field.assignId_numbers .outermost false order.field).bind fun _ same => .pure same
  refine orderBy.bind fun orderBy orders => ?_
  refine ((Field.assignAll_numbers .outermost false statement.groupBy).and
    (Field.assignAll_keeps_aliases .outermost false statement.groupBy)).bind fun groupBy keys => ?_
  refine (Field.assignConditions_numbers .outermost statement.filter).bind
    fun filter filtered => ?_
  refine (Field.assignConditions_numbers .aggregated statement.having).bind
    fun calls aggregated => ?_
  refine (Field.assignConditions_numbers .outermost calls).bind fun having grouped => ?_
  have again : Numbers uncounted (fields.mapM fun field =>
      if field.kind.isCall then field.assignId .aggregated false else pure field)
      fun assigned => assigned.map Field.bare = fields.map Field.bare := by
    refine .mapM _ _ fun field _ => ?_
    split
    · exact Field.assignId_numbers .aggregated false field
    · exact .pure rfl
  refine again.bind fun fields second => .pure ?_
  refine ⟨?_, rfl⟩
  exact {
    id := rfl
    parentId := rfl
    fields := second.trans first
    objects := rfl
    filter := filtered
    groupBy := keys.1
    groupAliases := keys.2
    isAggregation := rfl
    having := grouped.trans aggregated
    orderBy := orders
    bounds := rfl }

theorem alike_nameFields (taken : List String) (statement : Statement Query) :
    statement.Alike (statement.nameFields taken) :=
  { Alike.refl statement with fields := Field.map_bare_nameAll taken [] 0 statement.fields }

theorem assignIds_meets (depth : Nat) (selected : SelectAliases Query)
    (statement : Statement Query) (before : Session) :
    Step.Meets (statement.assignIds depth selected) before
      (fun numbered after =>
        statement.Alike numbered ∧ before.Kept after ∧ after.mentions = before.mentions)
      CompileError.IsSemantic := by
  refine ((assignViewIds_numbers depth statement).meets before).bind ?_
  rintro viewed middle ⟨viewing, kept⟩
  refine ((assignColumnIds_numbers viewed).meets middle).bind ?_
  rintro numbered after ⟨⟨numbering, _⟩, keptToo⟩
  dsimp only
  split
  · exact .throw ⟨_, rfl⟩
  · have alike := (viewing.trans numbering).trans (alike_nameFields selected.keys numbered)
    have same := (unnumbered_of_uncounted keptToo).trans kept
    exact .pure ⟨alike, kept_of_unnumbered same,
      show after.unnumbered.mentions = before.unnumbered.mentions by rw [same]⟩

end Statement

end ObjectQuery
