import ObjectQuery.Condition.Tree
import ObjectQuery.Query.Field

namespace ObjectQuery

/-!
The share of a condition that one object can decide from its own rows: all of
it, a weaker condition that it implies, or nothing.
-/

/-- How much of a condition an object can decide. -/
inductive Reach where
  | known
  | partly
  | unknown
  deriving DecidableEq, Repr

namespace Reach

def name : Reach → String
  | known => "Known"
  | partly => "Partial"
  | unknown => "Unknown"

def not : Reach → Reach
  | known => known
  | _ => unknown

def and : Reach → Reach → Reach
  | unknown, unknown => unknown
  | known, known => known
  | _, _ => partly

/-- The reach of a disjunction or a comparison, which one undecided side spoils. -/
def combine : Reach → Reach → Reach
  | unknown, _ => unknown
  | _, unknown => unknown
  | known, known => known
  | _, _ => partly

theorem not_eq_known_iff (reach : Reach) : reach.not = known ↔ reach = known := by
  cases reach <;> simp [not]

theorem and_eq_known_iff (left right : Reach) :
    left.and right = known ↔ left = known ∧ right = known := by
  cases left <;> cases right <;> simp [and]

theorem combine_eq_known_iff (left right : Reach) :
    left.combine right = known ↔ left = known ∧ right = known := by
  cases left <;> cases right <;> simp [combine]

/-- A conjunction is out of reach only where both sides are. -/
theorem and_eq_unknown_iff (left right : Reach) :
    left.and right = unknown ↔ left = unknown ∧ right = unknown := by
  cases left <;> cases right <;> simp [and]

/-- A disjunction or a comparison is out of reach where one side is. -/
theorem combine_eq_unknown_iff (left right : Reach) :
    left.combine right = unknown ↔ left = unknown ∨ right = unknown := by
  cases left <;> cases right <;> simp [combine]

end Reach

namespace ConditionTree

/--
The reach of a tree and the part of it that is decided, where `reads` tells the
operands whose values are at hand.
-/
def share (reads : α → Bool) : ConditionTree α → Reach × List (Condition α)
  | leaf _ _ (.operand value) => if reads value then (.known, [.operand value]) else (.unknown, [])
  | leaf _ _ .unknown => (.unknown, [])
  | not _ _ operand =>
      let (reach, conditions) := operand.share reads
      match reach.not with
      | .known => (.known, conditions ++ [.operator .not])
      | _ => (.unknown, [])
  | binary _ _ operator left right =>
      let (leftReach, leftConditions) := left.share reads
      let (rightReach, rightConditions) := right.share reads
      if operator = .and ∧ leftReach = .unknown ∧ rightReach ≠ .unknown then
        (.partly, rightConditions)
      else if operator = .and ∧ leftReach ≠ .unknown ∧ rightReach = .unknown then
        (.partly, leftConditions)
      else
        let reach :=
          if operator = .and then leftReach.and rightReach else leftReach.combine rightReach
        if reach = .unknown then
          (.unknown, [])
        else
          (reach, leftConditions ++ rightConditions ++ [.operator operator])

def reach (reads : α → Bool) : ConditionTree α → Reach
  | leaf _ _ (.operand value) => if reads value then .known else .unknown
  | leaf _ _ .unknown => .unknown
  | not _ _ operand => (operand.reach reads).not
  | binary _ _ operator left right =>
      if operator = .and then
        (left.reach reads).and (right.reach reads)
      else
        (left.reach reads).combine (right.reach reads)

theorem fst_share (reads : α → Bool) (tree : ConditionTree α) :
    (tree.share reads).1 = tree.reach reads := by
  induction tree with
  | leaf _ _ content =>
      cases content with
      | unknown => rfl
      | operand value => by_cases known : reads value <;> simp [share, reach, known]
  | not _ _ operand induction =>
      simp only [share, reach, ← induction]
      cases (operand.share reads).1 <;> rfl
  | binary _ _ operator left right leftInduction rightInduction =>
      simp only [share, reach, ← leftInduction, ← rightInduction]
      by_cases conjunction : operator = .and <;>
        cases (left.share reads).1 <;> cases (right.share reads).1 <;>
          simp [conjunction, Reach.and, Reach.combine]

end ConditionTree

namespace Field

def belongsTo (field : Field Q) (path : Path) : Bool :=
  field.kind.isColumn && field.objectPath?.any (·.same path)

/-- Whether the object with the path knows the value of the field from its own rows. -/
def isReadBy (path : Path) (field : Field Q) : Bool :=
  match field.kind with
  | .column _ => field.belongsTo path
  | .literal _ | .parameter _ | .relativeDate _ => true
  | _ => false

end Field

namespace ConditionTree

def shareOf (path : Path) (tree : ConditionTree (Field Q)) : Reach × List (Condition (Field Q)) :=
  tree.share (Field.isReadBy path)

end ConditionTree

end ObjectQuery
