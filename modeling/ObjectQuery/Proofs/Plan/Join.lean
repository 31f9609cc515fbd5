import ObjectQuery.Plan.Share
import ObjectQuery.Proofs.Compiler.Statement
import ObjectQuery.Proofs.Condition.Filter
import ObjectQuery.Proofs.Condition.Span
import ObjectQuery.Proofs.Query.Column

namespace ObjectQuery

/-!
What an object decides of any condition: a condition again, all of whose operands
the object can read, and which it therefore decides whole.
-/

namespace Condition

variable {α : Type}

/-- The entries are operands with the property, and operators. -/
def Over (property : α → Prop) (conditions : List (Condition α)) : Prop :=
  ∀ entry ∈ conditions,
    (∃ value, entry = .operand value ∧ property value) ∨ ∃ op, entry = .operator op

theorem over_nil (property : α → Prop) : Over property [] := by
  simp [Over]

theorem over_singleton {property : α → Prop} {value : α} (holds : property value) :
    Over property [.operand value] :=
  List.forall_mem_singleton.2 (.inl ⟨value, rfl, holds⟩)

theorem Over.mono {property weaker : α → Prop} {conditions : List (Condition α)}
    (within : Over property conditions) (weaken : ∀ value, property value → weaker value) :
    Over weaker conditions := by
  intro entry member
  refine (within entry member).imp_left ?_
  rintro ⟨value, rfl, holds⟩
  exact ⟨value, rfl, weaken value holds⟩

theorem Over.append_operator {property : α → Prop} {conditions : List (Condition α)}
    (within : Over property conditions) (op : Operator) :
    Over property (conditions ++ [.operator op]) :=
  List.forall_mem_append.2 ⟨within, List.forall_mem_singleton.2 (.inr ⟨op, rfl⟩)⟩

theorem Over.append {property : α → Prop} {first second : List (Condition α)}
    (within : Over property first) (withinToo : Over property second) :
    Over property (first ++ second) :=
  List.forall_mem_append.2 ⟨within, withinToo⟩

theorem IsPostfix.solid_eq {conditions : List (Condition α)} (given : IsPostfix conditions) :
    solid conditions = conditions := by
  induction given with
  | unknown | operand value => rfl
  | negated given induction => simp [induction]
  | joined leftGiven rightGiven two leftInduction rightInduction =>
      simp [leftInduction, rightInduction]

end Condition

namespace ConditionTree

open Condition

variable {α : Type}

def leaves : ConditionTree α → List (ConditionLeaf α)
  | leaf _ _ content => [content]
  | not _ _ inner => inner.leaves
  | binary _ _ _ left right => left.leaves ++ right.leaves

/-- Only an operator of two operands joins two. -/
def IsProper : ConditionTree α → Prop
  | leaf _ _ _ => True
  | not _ _ inner => inner.IsProper
  | binary _ _ op left right => op ≠ .not ∧ left.IsProper ∧ right.IsProper

theorem ReadFrom.isProper {start : Nat} {part : List (Condition α)} {tree : ConditionTree α}
    (read : ReadFrom start part tree) : tree.IsProper := by
  induction read with
  | leaf start content => trivial
  | not inner blank induction => exact induction
  | binary leftRead middleBlank rightRead blank two leftInduction rightInduction =>
      exact ⟨two, leftInduction, rightInduction⟩

theorem isProper_of_ofPostfix {conditions : List (Condition α)} {tree : ConditionTree α}
    (read : ofPostfix conditions = .ok (some tree)) : tree.IsProper := by
  obtain ⟨before, part, after, _, _, _, readFrom⟩ := exists_readFrom read
  exact readFrom.isProper

theorem entry_mem_toPostfix {tree : ConditionTree α} {content : ConditionLeaf α}
    (member : content ∈ tree.leaves) : content.entry ∈ tree.toPostfix := by
  induction tree with
  | leaf start stop own =>
      rw [List.mem_singleton.1 member]
      exact List.mem_singleton_self _
  | not start stop inner induction =>
      exact List.mem_append_left _ (induction member)
  | binary start stop operator left right leftInduction rightInduction =>
      refine List.mem_append_left _ (List.mem_append.2 ?_)
      exact (List.mem_append.1 member).imp leftInduction rightInduction

variable (reads : α → Bool)

/-- All leaves are operands whose values are at hand. -/
def Decides (tree : ConditionTree α) : Prop :=
  ∀ content ∈ tree.leaves, ∃ value, content = .operand value ∧ reads value = true

theorem reach_eq_known_iff (tree : ConditionTree α) :
    tree.reach reads = .known ↔ tree.Decides reads := by
  induction tree with
  | leaf start stop content =>
      cases content with
      | unknown => simp [reach, Decides, leaves]
      | operand value => cases read : reads value <;> simp [reach, Decides, leaves, read]
  | not start stop inner induction =>
      rw [reach, Reach.not_eq_known_iff, induction]
      rfl
  | binary start stop operator left right leftInduction rightInduction =>
      have both : (binary start stop operator left right).Decides reads ↔
          left.Decides reads ∧ right.Decides reads :=
        List.forall_mem_append
      rw [both, ← leftInduction, ← rightInduction, reach]
      split
      · exact Reach.and_eq_known_iff _ _
      · exact Reach.combine_eq_known_iff _ _

theorem share_not (start stop : Nat) (inner : ConditionTree α) :
    ((not start stop inner).reach reads = .unknown ∧
        ((not start stop inner).share reads).2 = []) ∨
      ((not start stop inner).reach reads = .known ∧ inner.reach reads = .known ∧
        ((not start stop inner).share reads).2 =
          (inner.share reads).2 ++ [.operator .not]) := by
  simp only [share, reach, ← fst_share]
  cases (inner.share reads).1 <;> simp [Reach.not]

/--
Nothing is decided of a condition with two sides, or one side of a conjunction,
or both.
-/
theorem share_binary (start stop : Nat) (operator : Operator) (left right : ConditionTree α) :
    let tree := binary start stop operator left right
    (tree.reach reads = .unknown ∧ (tree.share reads).2 = []) ∨
      (tree.reach reads = .partly ∧ left.reach reads = .unknown ∧ right.reach reads ≠ .unknown ∧
        (tree.share reads).2 = (right.share reads).2) ∨
      (tree.reach reads = .partly ∧ left.reach reads ≠ .unknown ∧ right.reach reads = .unknown ∧
        (tree.share reads).2 = (left.share reads).2) ∨
      (tree.reach reads ≠ .unknown ∧ left.reach reads ≠ .unknown ∧
        right.reach reads ≠ .unknown ∧ (tree.share reads).2 =
          (left.share reads).2 ++ (right.share reads).2 ++ [.operator operator]) := by
  simp only [share, reach, ← fst_share]
  by_cases conjunction : operator = .and <;>
    cases (left.share reads).1 <;> cases (right.share reads).1 <;>
      simp [conjunction, Reach.and, Reach.combine]

theorem share_eq_nil_iff (tree : ConditionTree α) :
    (tree.share reads).2 = [] ↔ tree.reach reads = .unknown := by
  induction tree with
  | leaf start stop content =>
      cases content with
      | unknown => simp [share, reach]
      | operand value => cases read : reads value <;> simp [share, reach, read]
  | not start stop inner induction =>
      rcases share_not reads start stop inner with ⟨reach, shared⟩ | ⟨reach, _, shared⟩
      · simp [reach, shared]
      · simp [reach, shared]
  | binary start stop operator left right leftInduction rightInduction =>
      rcases share_binary reads start stop operator left right with
        ⟨reach, shared⟩ | ⟨reach, _, right, shared⟩ | ⟨reach, left, _, shared⟩ |
          ⟨reach, _, _, shared⟩
      · simp [reach, shared]
      · simp [reach, shared, rightInduction, right]
      · simp [reach, shared, leftInduction, left]
      · simp [reach, shared]

theorem over_share (tree : ConditionTree α) :
    Over (reads · = true) (tree.share reads).2 := by
  induction tree with
  | leaf start stop content =>
      cases content with
      | unknown => exact over_nil _
      | operand value =>
          rw [share]
          split
          · exact over_singleton ‹_›
          · exact over_nil _
  | not start stop inner induction =>
      rcases share_not reads start stop inner with ⟨_, shared⟩ | ⟨_, _, shared⟩
      · exact shared ▸ over_nil _
      · exact shared ▸ induction.append_operator .not
  | binary start stop operator left right leftInduction rightInduction =>
      rcases share_binary reads start stop operator left right with
        ⟨_, shared⟩ | ⟨_, _, _, shared⟩ | ⟨_, _, _, shared⟩ | ⟨_, _, _, shared⟩
      · exact shared ▸ over_nil _
      · exact shared ▸ rightInduction
      · exact shared ▸ leftInduction
      · exact shared ▸ (leftInduction.append rightInduction).append_operator operator

variable {reads}

theorem share_eq_toPostfix {tree : ConditionTree α} (known : tree.reach reads = .known) :
    (tree.share reads).2 = tree.toPostfix := by
  induction tree with
  | leaf start stop content =>
      obtain ⟨value, rfl, read⟩ := (reach_eq_known_iff reads _).1 known content
        (List.mem_singleton_self _)
      rw [share, if_pos read]
      rfl
  | not start stop inner induction =>
      rcases share_not reads start stop inner with ⟨reach, _⟩ | ⟨_, decided, shared⟩
      · rw [known] at reach
        cases reach
      · rw [shared, induction decided, toPostfix]
  | binary start stop operator left right leftInduction rightInduction =>
      rw [reach_eq_known_iff] at known
      obtain ⟨leftKnown, rightKnown⟩ := List.forall_mem_append.1 known
      have leftReach := (reach_eq_known_iff reads left).2 leftKnown
      have rightReach := (reach_eq_known_iff reads right).2 rightKnown
      rcases share_binary reads start stop operator left right with
        ⟨reach, _⟩ | ⟨_, impossible, _⟩ | ⟨_, _, impossible, _⟩ | ⟨_, _, _, shared⟩
      · rw [(reach_eq_known_iff reads _).2 known] at reach
        cases reach
      · rw [leftReach] at impossible
        cases impossible
      · rw [rightReach] at impossible
        cases impossible
      · rw [shared, leftInduction leftReach, rightInduction rightReach, toPostfix]

theorem isPostfix_share {tree : ConditionTree α} (proper : tree.IsProper)
    (decided : tree.reach reads ≠ .unknown) : IsPostfix (tree.share reads).2 := by
  induction tree with
  | leaf start stop content =>
      cases content with
      | unknown => exact absurd rfl decided
      | operand value =>
          cases read : reads value with
          | true =>
              rw [share, if_pos read]
              exact .operand value
          | false => exact absurd (by simp [reach, read]) decided
  | not start stop inner induction =>
      rcases share_not reads start stop inner with ⟨reach, _⟩ | ⟨_, known, shared⟩
      · exact absurd reach decided
      · rw [shared]
        exact .negated (induction proper (by simp [known]))
  | binary start stop operator left right leftInduction rightInduction =>
      obtain ⟨two, leftProper, rightProper⟩ := proper
      rcases share_binary reads start stop operator left right with
        ⟨reach, _⟩ | ⟨_, _, rightDecided, shared⟩ | ⟨_, leftDecided, _, shared⟩ |
          ⟨_, leftDecided, rightDecided, shared⟩
      · exact absurd reach decided
      · exact shared ▸ rightInduction rightProper rightDecided
      · exact shared ▸ leftInduction leftProper leftDecided
      · rw [shared]
        exact .joined (leftInduction leftProper leftDecided)
          (rightInduction rightProper rightDecided) two

/-- An expression over operands that are at hand is read as a tree that is decided whole. -/
theorem exists_share_eq {conditions : List (Condition α)} (given : IsPostfix conditions)
    (within : Over (reads · = true) conditions) :
    ∃ tree, ofPostfix conditions = .ok (some tree) ∧
      tree.share reads = (.known, conditions) := by
  obtain ⟨tree, pushed⟩ := pushAll_of_isPostfix given given.solid_eq [] 0
  have read : ofPostfix conditions = .ok (some tree) := by rw [ofPostfix, pushed]
  have spelled := (solid_of_ofPostfix read).trans given.solid_eq
  have known : tree.reach reads = .known := by
    refine (reach_eq_known_iff reads tree).2 fun content member => ?_
    rcases within _ (spelled ▸ entry_mem_toPostfix member) with ⟨value, same, read⟩ | ⟨op, same⟩
    · cases content with
      | unknown => cases same
      | operand own =>
          cases same
          exact ⟨value, rfl, read⟩
    · cases content <;> cases same
  refine ⟨tree, read, Prod.ext ?_ ?_⟩
  · rw [fst_share, known]
  · rw [share_eq_toPostfix known, spelled]

end ConditionTree

/-- Where something of a formula is decided, the left side of a comparison is at hand. -/
theorem Formula.exists_left_of_reach {α : Type} {reads : α → Bool}
    {leftProperty rightProperty : α → Prop} {formula : Formula α}
    (within : formula.Over leftProperty rightProperty) {start : Nat}
    (decided : (formula.tree start).reach reads ≠ .unknown) :
    ∃ value ∈ formula.operands, leftProperty value ∧ reads value = true := by
  induction formula generalizing start with
  | compared left comparison right =>
      have apart := comparison.ne_of_isLogical .and rfl
      rw [tree, ConditionTree.reach, if_neg apart, Ne, Reach.combine_eq_unknown_iff, not_or]
        at decided
      refine ⟨left, List.mem_cons_self, within.1, ?_⟩
      by_contra unread
      exact decided.1 (by simp [ConditionTree.reach, unread])
  | not inner induction =>
      have inner : (inner.tree start).reach reads ≠ .unknown := by
        intro unknown
        rw [tree, ConditionTree.reach, unknown] at decided
        exact decided rfl
      exact induction within inner
  | both left right leftInduction rightInduction =>
      rw [tree, ConditionTree.reach, if_pos rfl, Ne, Reach.and_eq_unknown_iff, not_and_or]
        at decided
      rcases decided with first | second
      · obtain ⟨value, member, holds⟩ := leftInduction within.1 first
        exact ⟨value, List.mem_append_left _ member, holds⟩
      · obtain ⟨value, member, holds⟩ := rightInduction within.2 second
        exact ⟨value, List.mem_append_right _ member, holds⟩
  | either left right leftInduction rightInduction =>
      rw [tree, ConditionTree.reach, if_neg (by decide), Ne, Reach.combine_eq_unknown_iff, not_or]
        at decided
      obtain ⟨value, member, holds⟩ := leftInduction within.1 decided.1
      exact ⟨value, List.mem_append_left _ member, holds⟩

namespace Field

variable {Q : Type}

/-- An object reads its own columns and constants. -/
theorem isReadBy_iff (path : Path) (field : Field Q) :
    field.isReadBy path = true ↔ field.belongsTo path = true ∨ field.IsConstant := by
  unfold isReadBy IsConstant belongsTo
  cases field.kind <;> simp [FieldKind.isColumn]

theorem belongsTo_iff (path : Path) (field : Field Q) :
    field.belongsTo path = true ↔
      ∃ own, field.kind = .column own ∧ own.parent.same path = true := by
  unfold belongsTo objectPath?
  cases field.kind <;> simp [FieldKind.isColumn, FieldKind.path?]

end Field

/-- An object that decides some of a filter reads a column of its own in it, no mere constants. -/
theorem Condition.IsFilterOver.any_belongsTo {Q : Type} {conditions : List (Condition (Field Q))}
    (compares : IsFilterOver (fun field => ¬field.IsConstant) (fun _ => True) conditions)
    {tree : ConditionTree (Field Q)} (read : ConditionTree.ofPostfix conditions = .ok (some tree))
    {path : Path} (shared : (tree.shareOf path).2 ≠ []) :
    (conditions.filterMap operand?).any (·.belongsTo path) = true := by
  rcases compares with rfl | ⟨formula, rfl, within⟩
  · cases read
  · rw [formula.ofPostfix_postfixList] at read
    cases read
    rw [ConditionTree.shareOf, Ne, ConditionTree.share_eq_nil_iff] at shared
    obtain ⟨field, member, unsettled, reads⟩ := formula.exists_left_of_reach within shared
    rw [formula.filterMap_operand?_postfixList]
    refine List.any_eq_true.2 ⟨field, member, ?_⟩
    exact ((Field.isReadBy_iff path field).1 reads).resolve_right unsettled

/-!
What planning gives to objects, and keeps of keys: the rows of an object are
joined inside only where a condition reads a column of the object, and no key
gets another number.
-/

namespace Statement

variable {statement : Statement Query}

/-- Objects whose rows are joined inside have conditions of their own. -/
def JoinsFiltered (statement : Statement Query) : Prop :=
  ∀ object ∈ statement.objects, object.innerJoin = true → object.hasConditions = true

/-- The keys of groups and the sort keys have the numbers that they had. -/
structure KeepsKeys (before after : Statement Query) : Prop where
  groupBy : after.groupBy.map (·.columnId) = before.groupBy.map (·.columnId)
  orderBy : after.orderBy.map (·.field.columnId) = before.orderBy.map (·.field.columnId)

theorem joinsFiltered_shareAll (compares : statement.ComparesFields)
    {tree : Option (ConditionTree (Field Query))}
    (read : ConditionTree.ofPostfix statement.filter = .ok tree)
    (objects : List (SourceObject Query)) :
    ∀ object ∈ SourceObject.shareAll statement tree objects,
      object.innerJoin = true → object.hasConditions = true := by
  intro object member joined
  obtain ⟨own, _, isPrimary, rfl⟩ := SourceObject.mem_shareAll member
  obtain ⟨_, shared⟩ := (Bool.and_eq_true _ _).mp joined
  cases tree with
  | none => cases shared
  | some tree =>
      refine compares.any_belongsTo read fun empty => ?_
      simp [empty] at shared

end Statement

namespace Correlation

theorem indexField_columnId (depth : Nat) (field : Field Query) :
    Step.Yields (fun _ => True) (indexField depth field)
      fun indexed => indexed.columnId = field.columnId := by
  obtain ⟨kind, aliasName, notSelected, aggregated, key, columnId, columnIndex⟩ := field
  unfold indexField
  cases kind with
  | column path => exact .after fun _ => .pure rfl
  | call name arguments => exact .after fun _ => .pure rfl
  | fieldSet | subquery | literal | parameter | relativeDate => exact .pure rfl

theorem indexAll_columnId (depth : Nat) (fields : List (Field Query)) :
    Step.Yields (fun _ => True) (indexAll depth fields)
      fun indexed => indexed.map (·.columnId) = fields.map (·.columnId) := by
  induction fields with
  | nil => exact .pure rfl
  | cons field rest induction =>
      unfold indexAll
      refine (indexField_columnId depth field).bind fun first same => ?_
      refine induction.bind fun others alike => .pure ?_
      rw [List.map_cons, List.map_cons, same, alike]

theorem indexOrders_columnId (orders : List (OrderKey Query)) :
    Step.Yields (fun _ => True) (orders.mapM indexOrderKey)
      fun indexed => indexed.map (·.field.columnId) = orders.map (·.field.columnId) := by
  have each : ∀ order ∈ orders, Step.Yields (fun _ => True) (indexOrderKey order)
      fun indexed => indexed.field.columnId = order.field.columnId :=
    fun order _ => .after fun _ => .pure rfl
  exact (Step.Yields.mapM each).mono fun _ same => Step.map_eq_of_forall₂ same

theorem indexStatement_keepsKeys (statement : Statement Query) :
    Step.Yields (fun _ => True) (indexStatement statement) statement.KeepsKeys := by
  refine .after fun fields => ?_
  refine (indexOrders_columnId statement.orderBy).bind fun orderBy orders => ?_
  refine (indexAll_columnId _ statement.groupBy).bind fun groupBy groups => ?_
  exact .after fun filter => .after fun having => .after fun _ => .pure ⟨groups, orders⟩

end Correlation

namespace Statement

namespace PlanCourse

variable {statement : Statement Query} {parent : Option (Statement Query)} {before : Session}

theorem keepsKeys (course : PlanCourse statement parent before) :
    statement.KeepsKeys course.planned := by
  obtain ⟨keeps, _⟩ := Correlation.indexStatement_keepsKeys _ trivial course.indexes
  exact ⟨keeps.groupBy, keeps.orderBy⟩

theorem joinsFiltered (course : PlanCourse statement parent before)
    (compares : course.planned.ComparesFields) : course.planned.JoinsFiltered :=
  joinsFiltered_shareAll compares course.reads course.indexed.objects

end PlanCourse

end Statement

namespace Correlation

/-- What does not depend on the query of an object stays true when a column is fetched from it. -/
theorem Fetches.forall_objects {property : SourceObject Query → Prop}
    (unplanned : ∀ object plan, property object → property { object with plan })
    {objectKey : String} {column fetched : Field Query}
    {objects fetching : List (SourceObject Query)}
    (fetches : Fetches objectKey column objects fetching fetched)
    (holds : ∀ object ∈ objects, property object) : ∀ object ∈ fetching, property object := by
  induction fetches with
  | here rest key planned =>
      obtain ⟨first, later⟩ := List.forall_mem_cons.1 holds
      exact List.forall_mem_cons.2 ⟨unplanned _ _ first, later⟩
  | later fetches induction =>
      obtain ⟨first, later⟩ := List.forall_mem_cons.1 holds
      exact List.forall_mem_cons.2 ⟨first, induction later⟩

end Correlation

theorem Statement.Grown.joinsFiltered {reads : Path → String → Prop}
    {before after : Statement Query} (grown : before.Grown reads after)
    (joins : before.JoinsFiltered) : after.JoinsFiltered := by
  induction grown with
  | refl => exact joins
  | fetch _ _ _ fetches induction => exact fetches.forall_objects (fun _ _ holds => holds) induction

end ObjectQuery
