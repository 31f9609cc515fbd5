import ObjectQuery.Proofs.Numbering.Ledger
import ObjectQuery.Proofs.Numbering.Nested
import ObjectQuery.Proofs.Resolution.Kept

namespace ObjectQuery

/-!
Numbering the columns of a statement. Clause by clause, columns get the numbers
of their keys, and the other fields numbers of their own.
-/

namespace Session

def columns (session : Session) : Ledger :=
  ⟨session.nextColumnId, session.registry.columnIds⟩

/-- From the session, the step leads to a value and a session with the property. -/
def Leads (step : StateM Session α) (before : Session) (property : α → Session → Prop) : Prop :=
  property (step before).1 (step before).2

namespace Leads

variable {α β : Type} {before : Session} {property : α → Session → Prop}
  {result : β → Session → Prop}

theorem bind {step : StateM Session α} {next : α → StateM Session β}
    (first : Leads step before property)
    (later : ∀ value after, property value after → Leads (next value) after result) :
    Leads (step >>= next) before result :=
  later _ _ first

theorem mono {weaker : α → Session → Prop} {step : StateM Session α}
    (leads : Leads step before property)
    (weaken : ∀ value after, property value after → weaker value after) :
    Leads step before weaker :=
  weaken _ _ leads

theorem and {other : α → Session → Prop} {step : StateM Session α}
    (first : Leads step before property) (second : Leads step before other) :
    Leads step before fun value after => property value after ∧ other value after :=
  ⟨first, second⟩

end Leads

end Session

open Ledger (Marked)

/--
Wherever the marks stand among others, the step numbers what they are of, and
the columns among it have numbers in the end.
-/
def Assigns (start : Ledger) (marks : List Mark) (step : StateM Session α)
    (result : α → List Mark) : Prop :=
  ∀ earlier later before, Marked start before.columns (earlier ++ marks ++ later) →
    Session.Leads step before fun value after =>
      Marked start after.columns (earlier ++ result value ++ later) ∧ Mark.Complete (result value)

namespace Assigns

variable {α β : Type} {start : Ledger} {marks : List Mark} {step : StateM Session α}
  {result : α → List Mark}

/-- It is enough to number marks that come first. -/
theorem of_first (first : ∀ others before, Marked start before.columns (marks ++ others) →
    Session.Leads step before fun value after =>
      Marked start after.columns (result value ++ others) ∧ Mark.Complete (result value)) :
    Assigns start marks step result := by
  intro earlier later before marked
  have turn (list : List Mark) : (earlier ++ list ++ later).Perm (list ++ (earlier ++ later)) := by
    rw [List.append_assoc]
    exact List.perm_append_comm_assoc earlier list later
  refine (first (earlier ++ later) before (marked.perm (turn marks))).mono fun value after held => ?_
  exact ⟨held.1.perm (turn _).symm, held.2⟩

theorem pure {value : α} (complete : Mark.Complete (result value)) :
    Assigns start (result value) (Pure.pure value) result :=
  fun _ _ _ marked => ⟨marked, complete⟩

theorem map {change : α → β} {after : β → List Mark} (assigns : Assigns start marks step result)
    (same : ∀ value, after (change value) = result value) :
    Assigns start marks (step >>= fun value => Pure.pure (change value)) after := by
  intro earlier later before marked
  refine (assigns earlier later before marked).bind fun value after held => ?_
  rwa [← same] at held

theorem mapM {view : α → List Mark} {result : β → List Mark} {step : α → StateM Session β}
    {list : List α} (each : ∀ value ∈ list, Assigns start (view value) (step value) result) :
    Assigns start (list.flatMap view) (list.mapM step) (·.flatMap result) := by
  induction list with
  | nil =>
      have none : Mark.Complete (List.flatMap result []) := by simp [Mark.Complete]
      exact pure none
  | cons value rest induction =>
      obtain ⟨first, later⟩ := List.forall_mem_cons.1 each
      refine of_first fun others before marked => ?_
      rw [List.flatMap_cons, List.append_assoc] at marked
      rw [List.mapM_cons]
      refine (first [] _ before marked).bind ?_
      rintro value middle ⟨marked, complete⟩
      rw [List.nil_append, ← List.append_assoc] at marked
      refine (induction later _ others middle marked).bind ?_
      rintro results after ⟨marked, completeToo⟩
      exact ⟨marked, List.forall_mem_append.2 ⟨complete, completeToo⟩⟩

end Assigns

namespace Session

variable {start : Ledger} {mark : Mark} {others : List Mark} {before : Session}

theorem takeColumnId_leads (marked : Marked start before.columns (mark :: others))
    (own : mark.isColumn = false) :
    Leads takeColumnId before fun id after =>
      Marked start after.columns ({ mark with id := some id } :: others) :=
  marked.take own

theorem columnId_leads (marked : Marked start before.columns (mark :: others))
    (column : mark.isColumn = true) :
    Leads (columnId mark.key) before fun id after =>
      Marked start after.columns ({ mark with id := some id } :: others) := by
  have sound := marked.grows.sound
  have get : Leads get before fun session after => session = before ∧ after = before := ⟨rfl, rfl⟩
  refine get.bind ?_
  rintro _ _ ⟨rfl, rfl⟩
  split
  · rename_i id found
    exact marked.column column (.refl sound) found
  · rename_i absent
    have grows : Ledger.Grows _ _ := .give sound absent
    exact marked.column column grows (Ledger.find?_give.2 (.inl ⟨rfl, rfl⟩))

end Session

namespace Field

open Session (Leads)

variable {Q : Type} {start : Ledger} {others : List Mark} {before : Session}

theorem newId_leads (pass : CallPass) (isArgument : Bool) (field : Field Q)
    (marked : Marked start before.columns (field.mark :: others))
    (unnumbered : field.columnId = none) :
    Leads (field.newId pass isArgument) before fun id after =>
      Marked start after.columns ({ field.mark with id } :: others) ∧
        (field.kind.isColumn = true → ∃ number, id = some number) := by
  have own (plain : field.kind.isColumn = false) :
      Leads (do return some (← Session.takeColumnId)) before fun id after =>
        Marked start after.columns ({ field.mark with id } :: others) ∧
          (field.kind.isColumn = true → ∃ number, id = some number) :=
    (Session.takeColumnId_leads marked plain).bind fun id after held =>
      ⟨held, by simp [plain]⟩
  have free (plain : field.kind.isColumn = false) :
      Leads (pure none) before fun id after =>
        Marked start after.columns ({ field.mark with id } :: others) ∧
          (field.kind.isColumn = true → ∃ number, id = some number) := by
    rw [mark, unnumbered] at marked
    exact ⟨marked, by simp [plain]⟩
  unfold newId
  split
  · rename_i path kind
    exact (Session.columnId_leads marked (by rw [mark, kind]; rfl)).bind fun id after held =>
      ⟨held, fun _ => ⟨id, rfl⟩⟩
  · rename_i name arguments kind
    have plain : field.kind.isColumn = false := by rw [kind]; rfl
    split
    · exact own plain
    · exact free plain
  · exact own (by simp [*, FieldKind.isColumn])
  · exact own (by simp [*, FieldKind.isColumn])
  · rename_i notColumn _ _ _
    refine free (Bool.eq_false_iff.2 fun column => ?_)
    obtain ⟨path, kind⟩ := exists_eq_column column
    exact notColumn path kind

theorem numbered_leads (pass : CallPass) (isArgument : Bool) (field : Field Q)
    (marked : Marked start before.columns (field.mark :: others)) :
    Leads (field.numbered pass isArgument) before fun numbered after =>
      ∃ columnId, numbered = { field with columnId } ∧
        Marked start after.columns ({ field.mark with id := columnId } :: others) ∧
        (field.kind.isColumn = true → ∃ id, columnId = some id) := by
  unfold numbered
  split
  · rename_i id given
    rw [mark, given] at marked
    refine ⟨some id, ?_, marked, fun _ => ⟨id, rfl⟩⟩
    cases field
    cases given
    rfl
  · rename_i unnumbered
    exact (newId_leads pass isArgument field marked unnumbered).bind fun id after held =>
      ⟨id, rfl, held⟩

theorem isColumn_assignKind (pass : CallPass) (kind : FieldKind Q) (before : Session) :
    Leads (assignKind pass kind) before fun assigned _ => assigned.isColumn = kind.isColumn := by
  obtain ⟨same, _⟩ := assignKind_numbers pass kind before
  have isColumn := congrArg FieldKind.isColumn same
  rwa [isColumn_bare, isColumn_bare] at isColumn

mutual

theorem assignId_assigns (pass : CallPass) (isArgument : Bool) : (field : Field Q) →
    Assigns start field.marks (field.assignId pass isArgument) marks
  | ⟨kind, aliasName, notSelected, aggregated, key, columnId, columnIndex⟩ => by
      refine .of_first fun others before marked => ?_
      unfold assignId
      rw [marks_eq] at marked
      refine (numbered_leads pass isArgument _ marked).bind ?_
      rintro _ middle ⟨id, rfl, marked, complete⟩
      refine ((assignKind_assigns pass kind [_] others middle marked).and
        (isColumn_assignKind pass kind middle)).bind ?_
      rintro assigned after ⟨⟨marked, inner⟩, same⟩
      simp only [mark, ← same] at marked complete
      exact ⟨marked, List.forall_mem_cons.2 ⟨complete, inner⟩⟩

theorem assignKind_assigns (pass : CallPass) : (kind : FieldKind Q) →
    Assigns start kind.marks (assignKind pass kind) FieldKind.marks
  | .call name arguments => by
      unfold assignKind FieldKind.marks
      exact (assignAll_assigns pass true arguments).map fun _ => by rw [FieldKind.marks]
  | .column _ | .fieldSet _ | .subquery _ | .literal _ | .parameter _ | .relativeDate _ =>
      .pure (by simp [FieldKind.marks, Mark.Complete])

theorem assignAll_assigns (pass : CallPass) (isArgument : Bool) : (fields : List (Field Q)) →
    Assigns start (allMarks fields) (assignAll pass isArgument fields) allMarks
  | [] => .pure (by simp [allMarks, Mark.Complete])
  | field :: rest => by
      refine .of_first fun others before marked => ?_
      unfold assignAll
      rw [allMarks, List.append_assoc] at marked
      refine (assignId_assigns pass isArgument field [] _ _ marked).bind ?_
      rintro field middle ⟨marked, complete⟩
      rw [List.nil_append, ← List.append_assoc] at marked
      refine (assignAll_assigns pass isArgument rest _ others _ marked).bind ?_
      rintro rest after ⟨marked, inner⟩
      exact ⟨marked, List.forall_mem_append.2 ⟨complete, inner⟩⟩

end

/-- The marks of an operand. -/
def operandMarks : Condition (Field Q) → List Mark
  | .operand field => field.marks
  | _ => []

theorem allMarks_operands (conditions : List (Condition (Field Q))) :
    allMarks (conditions.filterMap Condition.operand?) = conditions.flatMap operandMarks := by
  induction conditions with
  | nil => rfl
  | cons entry rest induction =>
      cases entry with
      | operand field => exact congrArg (field.marks ++ ·) induction
      | noop | unknown | operator op => exact induction

theorem assignConditions_assigns (pass : CallPass) (conditions : List (Condition (Field Q))) :
    Assigns start (allMarks (conditions.filterMap Condition.operand?))
      (assignConditions pass conditions)
      fun assigned => allMarks (assigned.filterMap Condition.operand?) := by
  simp only [allMarks_operands]
  refine .mapM fun entry _ => ?_
  cases entry with
  | operand field => exact (assignId_assigns pass false field).map fun _ => rfl
  | noop | unknown | operator op => exact .pure (by simp [operandMarks, Mark.Complete])

theorem allMarks_nameAll (taken : List String) (named : List (Option Nat)) (counter : Nat)
    (fields : List (Field Q)) :
    allMarks (nameAll taken named counter fields) = allMarks fields := by
  induction fields generalizing named counter with
  | nil => rfl
  | cons field rest induction =>
      unfold nameAll
      dsimp only
      split
      · rw [allMarks, allMarks, induction, marks_eq, marks_eq]
        rfl
      · rw [allMarks, allMarks, induction]

end Field

namespace Statement

open Session (Leads)

variable {Q : Type} {start : Ledger}

/-- The marks of the fields of a statement, clause by clause. -/
def marks (statement : Statement Q) : List Mark :=
  Field.allMarks statement.everyField

theorem marks_eq (statement : Statement Q) :
    statement.marks = Field.allMarks statement.fields ++
      Field.allMarks (statement.filter.filterMap Condition.operand?) ++
      Field.allMarks statement.groupBy ++
      Field.allMarks (statement.having.filterMap Condition.operand?) ++
      Field.allMarks (statement.orderBy.map (·.field)) := by
  simp only [marks, everyField, Field.allMarks_append]

theorem assignOrders_assigns (orders : List (OrderKey Q)) :
    Assigns start (Field.allMarks (orders.map (·.field)))
      (orders.mapM fun order => do
        return { order with field := ← order.field.assignId .outermost false })
      fun assigned => Field.allMarks (assigned.map (·.field)) := by
  simp only [Field.allMarks_eq_flatMap, List.flatMap_map]
  exact .mapM fun order _ => (Field.assignId_assigns .outermost false order.field).map fun _ => rfl

theorem assignCalls_assigns {fields : List (Field Q)}
    (complete : Mark.Complete (Field.allMarks fields)) :
    Assigns start (Field.allMarks fields)
      (fields.mapM fun field =>
        if field.kind.isCall then field.assignId .aggregated false else pure field)
      Field.allMarks := by
  have flat : (Field.allMarks : List (Field Q) → List Mark) = (·.flatMap Field.marks) :=
    funext Field.allMarks_eq_flatMap
  rw [flat] at complete ⊢
  refine .mapM fun field member => ?_
  split
  · exact Field.assignId_assigns .aggregated false field
  · exact .pure fun mark own => complete mark (List.mem_flatMap.2 ⟨field, member, own⟩)

theorem assignColumnIds_leads {statement : Statement Q} {before : Session}
    (marked : Marked start before.columns statement.marks) :
    Leads statement.assignColumnIds before fun numbered after =>
      Marked start after.columns numbered.marks ∧ Mark.Complete numbered.marks := by
  have fieldsAssign : Assigns start _ _ _ :=
    Field.assignAll_assigns .outermost false statement.fields
  have ordersAssign : Assigns start _ _ _ := assignOrders_assigns statement.orderBy
  have groupsAssign : Assigns start _ _ _ :=
    Field.assignAll_assigns .outermost false statement.groupBy
  have filterAssign : Assigns start _ _ _ :=
    Field.assignConditions_assigns .outermost statement.filter
  have callsAssign : Assigns start _ _ _ :=
    Field.assignConditions_assigns .aggregated statement.having
  rw [marks_eq] at marked
  generalize Field.allMarks statement.fields = inFields at *
  generalize Field.allMarks (statement.filter.filterMap Condition.operand?) = inFilter at *
  generalize Field.allMarks statement.groupBy = inGroups at *
  generalize Field.allMarks (statement.having.filterMap Condition.operand?) = inHaving at *
  generalize Field.allMarks (statement.orderBy.map (·.field)) = inOrders at *
  -- Each clause keeps its place among the marks, whenever it is numbered.
  refine (fieldsAssign [] (inFilter ++ inGroups ++ inHaving ++ inOrders) before
    (by simpa using marked)).bind ?_
  rintro fields state ⟨marked, fielded⟩
  refine (ordersAssign (Field.allMarks fields ++ inFilter ++ inGroups ++ inHaving) [] state
    (by simpa using marked)).bind ?_
  rintro orderBy state ⟨marked, ordered⟩
  refine (groupsAssign (Field.allMarks fields ++ inFilter) _ state
    (by simpa using marked)).bind ?_
  rintro groupBy state ⟨marked, grouped⟩
  refine (filterAssign (Field.allMarks fields) _ state (by simpa using marked)).bind ?_
  rintro filter state ⟨marked, filtered⟩
  refine (callsAssign (Field.allMarks fields ++ _ ++ Field.allMarks groupBy) _ state
    (by simpa using marked)).bind ?_
  rintro calls state ⟨marked, _⟩
  refine (Field.assignConditions_assigns .outermost calls _ _ state marked).bind ?_
  rintro having state ⟨marked, restricted⟩
  refine (assignCalls_assigns fielded [] _ state (by simpa using marked)).bind ?_
  rintro fields state ⟨marked, fielded⟩
  change Marked start state.columns (marks { statement with
      fields, orderBy, groupBy, filter, having }) ∧
    Mark.Complete (marks { statement with fields, orderBy, groupBy, filter, having })
  rw [marks_eq]
  refine ⟨by simpa using marked, ?_⟩
  simp only [Mark.Complete, List.forall_mem_append]
  exact ⟨⟨⟨⟨fielded, filtered⟩, grouped⟩, restricted⟩, ordered⟩

theorem assignColumnIds_marked {statement : Statement Q} (unnumbered : statement.Unnumbered)
    {before : Session} (sound : before.columns.Sound) :
    Leads statement.assignColumnIds before fun numbered after =>
      Marked before.columns after.columns numbered.marks ∧ Mark.Complete numbered.marks := by
  refine assignColumnIds_leads (.of_unnumbered sound ?_)
  rw [marks, Field.allMarks_eq_flatMap]
  intro mark member
  obtain ⟨field, given, own⟩ := List.mem_flatMap.1 member
  exact unnumbered field given mark own

theorem viewId_leads (key : String) (before : Session) :
    Leads (Session.viewId key) before fun _ after => after.columns = before.columns := by
  have get : Leads get before fun session after => session = before ∧ after = before := ⟨rfl, rfl⟩
  refine get.bind ?_
  rintro _ _ ⟨rfl, rfl⟩
  split
  · exact rfl
  · exact rfl

theorem assignViewIds_leads (depth : Nat) (statement : Statement Q) (before : Session) :
    Leads (statement.assignViewIds depth) before fun viewed after =>
      (∃ objects, viewed = { statement with objects }) ∧ after.columns = before.columns := by
  have objects (objects : List (SourceObject Q)) (before : Session) :
      Leads (objects.mapM (·.assignId statement.id depth)) before fun _ after =>
        after.columns = before.columns := by
    induction objects generalizing before with
    | nil => exact rfl
    | cons object rest induction =>
        rw [List.mapM_cons]
        have first : Leads (object.assignId statement.id depth) before fun _ after =>
            after.columns = before.columns :=
          (viewId_leads object.key before).bind fun _ _ same => same
        refine first.bind fun object viewing same => ?_
        exact (induction viewing).bind fun others after kept => kept.trans same
  exact (objects statement.objects before).bind fun objects after kept => ⟨⟨objects, rfl⟩, kept⟩

theorem marks_nameFields (taken : List String) (statement : Statement Q) :
    (statement.nameFields taken).marks = statement.marks := by
  simp only [marks_eq, nameFields, Field.allMarks_nameAll]

/-- Of a statement without numbers, the columns get those of their keys. -/
theorem assignIds_marked (depth : Nat) (selected : SelectAliases Query)
    {statement : Statement Query} (unnumbered : statement.Unnumbered) (before : Session)
    (sound : before.columns.Sound) :
    Step.Meets (statement.assignIds depth selected) before fun numbered after =>
      Marked before.columns after.columns numbered.marks ∧ Mark.Complete numbered.marks := by
  have views : Step.Meets (Compilation.ofState (statement.assignViewIds depth)) before
      fun viewed after => (∃ objects, viewed = { statement with objects }) ∧
        after.columns = before.columns :=
    assignViewIds_leads depth statement before
  refine views.bind ?_
  rintro _ middle ⟨⟨objects, rfl⟩, kept⟩
  have numbers : Step.Meets
      (Compilation.ofState (assignColumnIds { statement with objects })) middle
      fun numbered after => Marked middle.columns after.columns numbered.marks ∧
        Mark.Complete numbered.marks :=
    assignColumnIds_marked unnumbered (kept ▸ sound)
  rw [← kept]
  refine numbers.bind fun numbered after held => ?_
  dsimp only
  split
  · exact .throw trivial
  · exact .pure (by rwa [marks_nameFields])

/-- Neither two keys of groups have the same number, nor two sort keys. -/
structure KeysApart (statement : Statement Q) : Prop where
  groupBy : (statement.groupBy.map (·.columnId)).Nodup
  orderBy : (statement.orderBy.map (·.field.columnId)).Nodup

end Statement

theorem Field.repeated?_eq_none_iff {Q : Type} (used : List (Option Nat))
    (fields : List (Field Q)) :
    Field.repeated? used fields = none ↔
      (fields.map (·.columnId)).Nodup ∧ ∀ field ∈ fields, field.columnId ∉ used := by
  induction fields generalizing used with
  | nil => simp [Field.repeated?]
  | cons field rest induction =>
      rw [Field.repeated?, List.map_cons, List.nodup_cons, List.forall_mem_cons]
      by_cases seen : field.columnId ∈ used
      · simp [seen]
      · have apart : (∀ other ∈ rest, other.columnId ∉ field.columnId :: used) ↔
            field.columnId ∉ rest.map (·.columnId) ∧ ∀ other ∈ rest, other.columnId ∉ used := by
          grind
        rw [if_neg (by simpa using seen), induction, apart, and_left_comm, ← and_assoc,
          and_iff_right seen]

theorem Query.keysApart_of_repetition? {statement : Statement Query}
    (none : Query.repetition? statement = .none) : statement.KeysApart := by
  unfold Query.repetition? at none
  split at none
  · cases none
  · rename_i groups
    rw [Option.map_eq_none_iff] at none
    refine ⟨((Field.repeated?_eq_none_iff _ _).1 groups).1, ?_⟩
    simpa [Function.comp_def] using ((Field.repeated?_eq_none_iff _ _).1 none).1

theorem Statement.assignIds_keysApart (depth : Nat) (selected : SelectAliases Query)
    (statement : Statement Query) :
    Step.Yields (fun _ => True) (statement.assignIds depth selected) KeysApart := by
  refine .after fun viewed => .after fun numbered => ?_
  dsimp only
  split
  · exact .throw
  · exact .pure (Query.keysApart_of_repetition? ‹_›)

end ObjectQuery
