import ObjectQuery.Numbering.Column
import ObjectQuery.Numbering.View
import ObjectQuery.Proofs.Resolution.Spelling

namespace ObjectQuery

/-!
Numbers do not depend on spellings, nor on the limit of a session: fields and
objects are numbered by their keys, and names are made up by what is taken.
-/

/-- Sessions that differ in their limits at most. -/
structure Session.Alike (limit also : Option Nat) (session other : Session) : Prop where
  limit_eq : session.limit = limit
  other_eq : other = { session with limit := also }

namespace Session

variable {limit alsoLimit : Option Nat} {α β γ δ : Type}

/-- From sessions that are alike, the steps lead to related values and to such sessions. -/
def Aligned (limit also : Option Nat) (first : StateM Session α) (second : StateM Session β)
    (values : α → β → Prop) : Prop :=
  ∀ ⦃session other : Session⦄, session.Alike limit also other →
    values (first session).1 (second other).1 ∧ (first session).2.Alike limit also (second other).2

namespace Aligned

variable {first : StateM Session α} {second : StateM Session β} {values : α → β → Prop}
  {next : α → StateM Session γ} {later : β → StateM Session δ} {results : γ → δ → Prop}

theorem pure {value : α} {other : β} (same : values value other) :
    Aligned limit alsoLimit (Pure.pure value) (Pure.pure other) values :=
  fun _ _ sessions => ⟨same, sessions⟩

theorem bind (aligned : Aligned limit alsoLimit first second values)
    (rest : ∀ value other, values value other →
      Aligned limit alsoLimit (next value) (later other) results) :
    Aligned limit alsoLimit (first >>= next) (second >>= later) results :=
  fun _ _ sessions =>
    have ⟨same, sessions⟩ := aligned sessions
    rest _ _ same sessions

theorem get : Aligned limit alsoLimit MonadState.get MonadState.get (Session.Alike limit alsoLimit) :=
  fun _ _ sessions => ⟨sessions, sessions⟩

theorem modify {change alter : Session → Session}
    (keeps : ∀ session other, session.Alike limit alsoLimit other →
      (change session).Alike limit alsoLimit (alter other)) :
    Aligned limit alsoLimit (modify change) (modify alter) fun _ _ => True :=
  fun _ _ sessions => ⟨trivial, keeps _ _ sessions⟩

theorem mapM {related : α → β → Prop} {step : α → StateM Session γ} {also : β → StateM Session δ}
    {list : List α} {others : List β} (same : List.Forall₂ related list others)
    (each : ∀ value other, related value other →
      Aligned limit alsoLimit (step value) (also other) results) :
    Aligned limit alsoLimit (list.mapM step) (others.mapM also) (List.Forall₂ results) := by
  induction same with
  | nil => exact pure .nil
  | cons alike _ induction =>
      rw [List.mapM_cons, List.mapM_cons]
      exact (each _ _ alike).bind fun _ _ one => induction.bind fun _ _ more => pure (.cons one more)

end Aligned

theorem takeQueryId_aligned : Aligned limit alsoLimit takeQueryId takeQueryId Eq := by
  rintro session _ ⟨limit, rfl⟩
  exact ⟨rfl, limit, rfl⟩

theorem takeColumnId_aligned : Aligned limit alsoLimit takeColumnId takeColumnId Eq := by
  rintro session _ ⟨limit, rfl⟩
  exact ⟨rfl, limit, rfl⟩

theorem viewId_aligned (key : String) : Aligned limit alsoLimit (viewId key) (viewId key) Eq := by
  refine Aligned.get.bind ?_
  rintro session _ ⟨_, rfl⟩
  dsimp only
  split
  · exact .pure rfl
  · rintro session _ ⟨limit, rfl⟩
    exact ⟨rfl, limit, rfl⟩

theorem columnId_aligned (key : String) :
    Aligned limit alsoLimit (columnId key) (columnId key) Eq := by
  refine Aligned.get.bind ?_
  rintro session _ ⟨_, rfl⟩
  dsimp only
  split
  · exact .pure rfl
  · rintro session _ ⟨limit, rfl⟩
    exact ⟨rfl, limit, rfl⟩

end Session

open Session (Aligned)

variable {Q : Type} {spelling : Respelling} {queries : Q → Q → Prop} {limit alsoLimit : Option Nat}

namespace SourceObject

theorem assignId_aligned (queryId queryDepth : Nat) {object other : SourceObject Q}
    (same : object.Respelled spelling queries other) :
    Aligned limit alsoLimit (object.assignId queryId queryDepth) (other.assignId queryId queryDepth)
      (SourceObject.Respelled spelling queries) := by
  have parents : Path.Respelled spelling (Path.parent object.path) (Path.parent other.path) :=
    same.path.dropLast
  unfold assignId
  rw [same.key]
  refine (Session.viewId_aligned _).bind ?_
  rintro id _ rfl
  refine Aligned.get.bind ?_
  rintro session _ ⟨_, rfl⟩
  dsimp only
  rw [same.path.length_eq, parents.key_eq, same.parentViewId]
  refine (Aligned.modify ?_).bind fun _ _ _ =>
    .pure { same with key := rfl, viewId := rfl, parentViewId := rfl }
  rintro session _ ⟨limit, rfl⟩
  exact ⟨limit, rfl⟩

end SourceObject

namespace Field

theorem newId_aligned (pass : CallPass) (isArgument : Bool) {field other : Field Q}
    (same : field.Respelled spelling queries other) :
    Aligned limit alsoLimit (field.newId pass isArgument) (other.newId pass isArgument) Eq := by
  have kinds := same.kind
  have taken : Aligned limit alsoLimit
      (Session.takeColumnId >>= fun id => pure (some id))
      (Session.takeColumnId >>= fun id => pure (some id)) Eq :=
    Session.takeColumnId_aligned.bind fun _ _ ids => .pure (congrArg some ids)
  unfold newId
  rw [same.key_eq, same.aggregated_eq]
  generalize field.kind = kind at kinds ⊢
  generalize other.kind = also at kinds ⊢
  cases kinds with
  | column => exact (Session.columnId_aligned _).bind fun _ _ ids => .pure (congrArg some ids)
  | call =>
      dsimp only
      split
      · exact taken
      · exact .pure rfl
  | fieldSet => exact taken
  | subquery => exact taken
  | _ => exact .pure rfl

theorem numbered_aligned (pass : CallPass) (isArgument : Bool) {field other : Field Q}
    (same : field.Respelled spelling queries other) :
    Aligned limit alsoLimit (field.numbered pass isArgument) (other.numbered pass isArgument)
      (Field.Respelled spelling queries) := by
  unfold numbered
  rw [same.columnId_eq]
  split
  · exact .pure same
  · refine (newId_aligned pass isArgument same).bind ?_
    rintro id _ rfl
    exact .pure (.intro same.kind same.aliasName same.notSelected_eq same.aggregated_eq same.key_eq
      rfl same.columnIndex_eq)

mutual

theorem assignId_aligned (pass : CallPass) (isArgument : Bool) : (field other : Field Q) →
    field.Respelled spelling queries other →
    Aligned limit alsoLimit (field.assignId pass isArgument) (other.assignId pass isArgument)
      (Field.Respelled spelling queries)
  | ⟨kind, _, _, _, _, _, _⟩, ⟨also, _, _, _, _, _, _⟩, same => by
      unfold assignId
      refine (numbered_aligned pass isArgument same).bind fun _ _ numbered => ?_
      exact (assignKind_aligned pass kind also same.kind).bind fun _ _ kinds =>
        .pure (numbered.withKind kinds)

theorem assignKind_aligned (pass : CallPass) : (kind other : FieldKind Q) →
    kind.Respelled spelling queries other →
    Aligned limit alsoLimit (assignKind pass kind) (assignKind pass other)
      (FieldKind.Respelled spelling queries)
  | .call _ arguments, _, .call names alike => by
      unfold assignKind
      exact (assignAll_aligned pass true arguments _ alike).bind fun _ _ assigned =>
        .pure (.call names assigned)
  | .column _, _, .column paths => .pure (.column paths)
  | .fieldSet _, _, .fieldSet paths => .pure (.fieldSet paths)
  | .subquery _, _, .subquery same => .pure (.subquery same)
  | .literal _, _, .literal values => .pure (.literal values)
  | .parameter _, _, .parameter names => .pure (.parameter names)
  | .relativeDate _, _, .relativeDate date => .pure (.relativeDate date)

theorem assignAll_aligned (pass : CallPass) (isArgument : Bool) : (fields others : List (Field Q)) →
    List.Forall₂ (Field.Respelled spelling queries) fields others →
    Aligned limit alsoLimit (assignAll pass isArgument fields) (assignAll pass isArgument others)
      (List.Forall₂ (Field.Respelled spelling queries))
  | [], _, .nil => .pure .nil
  | field :: rest, _, .cons first later => by
      unfold assignAll
      exact (assignId_aligned pass isArgument field _ first).bind fun _ _ assigned =>
        (assignAll_aligned pass isArgument rest _ later).bind fun _ _ others =>
          .pure (.cons assigned others)

end

theorem assignConditions_aligned (pass : CallPass) {conditions others : List (Condition (Field Q))}
    (same : Condition.Respelled spelling queries conditions others) :
    Aligned limit alsoLimit (assignConditions pass conditions) (assignConditions pass others)
      (Condition.Respelled spelling queries) := by
  refine Aligned.mapM same fun entry other entries => ?_
  cases entries with
  | operand same =>
      exact (assignId_aligned pass false _ _ same).bind fun _ _ assigned =>
        .pure (.operand assigned)
  | noop => exact .pure .noop
  | unknown => exact .pure .unknown
  | operator op => exact .pure (.operator op)

theorem nameAll_respelled (taken : List String) (named : List (Option Nat)) (counter : Nat)
    {fields others : List (Field Q)}
    (same : List.Forall₂ (Field.Respelled spelling queries) fields others) :
    List.Forall₂ (Field.Respelled spelling queries) (nameAll taken named counter fields)
      (nameAll taken named counter others) := by
  induction same generalizing named counter with
  | nil => exact .nil
  | @cons field other _ _ first _ induction =>
      have unnamed : field.aliasName.isNone = other.aliasName.isNone := by
        rw [← Option.not_isSome, ← Option.not_isSome, first.aliasName.isSome_eq]
      unfold nameAll
      rw [unnamed, first.kind.isColumn_eq, first.kind.isCall_eq, first.columnId_eq]
      dsimp only
      split
      · refine .cons ?_ (induction _ _)
        exact .intro first.kind (.some (spelling.refl _)) first.notSelected_eq first.aggregated_eq
          first.key_eq rfl first.columnIndex_eq
      · exact .cons first (induction _ _)

theorem repeated?_related (used : List (Option Nat)) {fields others : List (Field Q)}
    (same : List.Forall₂ (Field.Respelled spelling queries) fields others) :
    Option.Rel (Field.Respelled spelling queries) (repeated? used fields)
      (repeated? used others) := by
  induction same generalizing used with
  | nil => exact .none
  | cons first _ induction =>
      unfold repeated?
      rw [first.columnId_eq]
      split
      · exact .some first
      · exact induction _

end Field

namespace Statement

variable {statement other : Statement Q}

theorem assignViewIds_aligned (depth : Nat) (same : statement.Respelled spelling queries other) :
    Aligned limit alsoLimit (statement.assignViewIds depth) (other.assignViewIds depth)
      (Statement.Respelled spelling queries) := by
  unfold assignViewIds
  rw [same.id]
  exact (Aligned.mapM same.objects fun _ _ objects =>
    SourceObject.assignId_aligned _ depth objects).bind fun _ _ objects =>
      .pure { same with id := rfl, objects }

theorem assignColumnIds_aligned (same : statement.Respelled spelling queries other) :
    Aligned limit alsoLimit statement.assignColumnIds other.assignColumnIds
      (Statement.Respelled spelling queries) := by
  refine (Field.assignAll_aligned _ _ _ _ same.fields).bind fun _ _ fields => ?_
  have orders : Aligned limit alsoLimit
      (statement.orderBy.mapM fun order => do
        return { order with field := ← order.field.assignId .outermost false })
      (other.orderBy.mapM fun order => do
        return { order with field := ← order.field.assignId .outermost false })
      (List.Forall₂ (OrderKey.Respelled spelling queries)) :=
    Aligned.mapM same.orderBy fun _ _ orders =>
      (Field.assignId_aligned _ _ _ _ orders.field).bind fun _ _ field => .pure { orders with field }
  refine orders.bind fun _ _ orderBy => ?_
  refine (Field.assignAll_aligned _ _ _ _ same.groupBy).bind fun _ _ groupBy => ?_
  refine (Field.assignConditions_aligned _ same.filter).bind fun _ _ filter => ?_
  refine (Field.assignConditions_aligned _ same.having).bind fun _ _ having => ?_
  refine (Field.assignConditions_aligned _ having).bind fun _ _ having => ?_
  refine (Aligned.mapM fields fun field other same => ?_).bind fun _ _ fields =>
    .pure { same with fields, orderBy, groupBy, filter, having }
  rw [same.kind.isCall_eq]
  split
  · exact Field.assignId_aligned _ _ _ _ same
  · exact .pure same

theorem nameFields_respelled (taken : List String)
    (same : statement.Respelled spelling queries other) :
    (statement.nameFields taken).Respelled spelling queries (other.nameFields taken) :=
  { same with fields := Field.nameAll_respelled taken [] 0 same.fields }

end Statement

end ObjectQuery
