import ObjectQuery.Proofs.Alignment
import ObjectQuery.Proofs.Condition.Negation
import ObjectQuery.Proofs.Condition.Related

namespace ObjectQuery

/-! The condition lists of statements, which are empty or the lists of formulas. -/

namespace Condition

variable {α β γ : Type}

@[simp]
theorem map_operand (f : α → β) (value : α) : (operand value).map f = operand (f value) := rfl

@[simp]
theorem map_operator (f : α → β) (op : Operator) : (operator op).map f = operator op := rfl

theorem map_eq_operand_iff {f : α → β} {entry : Condition α} {value : β} :
    entry.map f = operand value ↔ ∃ inner, entry = operand inner ∧ f inner = value := by
  cases entry <;> simp [Condition.map]

theorem map_eq_operator_iff {f : α → β} {entry : Condition α} {op : Operator} :
    entry.map f = operator op ↔ entry = operator op := by
  cases entry <;> simp [Condition.map]

/-- Entries that look the same are of one kind, over operands that look the same. -/
theorem forall₂_related_of_map_eq {f : α → γ} {g : β → γ} {list : List (Condition α)}
    {others : List (Condition β)}
    (same : others.map (Condition.map g) = list.map (Condition.map f)) :
    List.Forall₂ (Related fun value other => g other = f value) list others := by
  induction list generalizing others with
  | nil =>
      cases List.map_eq_nil_iff.1 same
      exact .nil
  | cons entry rest induction =>
      obtain ⟨other, later, rfl, first, others⟩ := List.map_eq_cons_iff.1 same
      refine .cons ?_ (induction others)
      cases entry with
      | noop => cases other <;> cases first; exact .noop
      | unknown => cases other <;> cases first; exact .unknown
      | operand value =>
          obtain ⟨inner, rfl, alike⟩ := map_eq_operand_iff.1 first
          exact .operand alike
      | operator op =>
          cases map_eq_operator_iff.1 first
          exact .operator op

theorem map_eq_of_forall₂_related {f : α → γ} {g : β → γ} {list : List (Condition α)}
    {others : List (Condition β)}
    (entries : List.Forall₂ (Related fun value other => g other = f value) list others) :
    others.map (Condition.map g) = list.map (Condition.map f) := by
  refine Step.map_eq_of_forall₂ (entries.imp fun _ _ entry => ?_)
  cases entry with
  | operand same => rw [map_operand, map_operand, same]
  | _ => rfl

theorem forall₂_operands {values : α → β → Prop} {list : List (Condition α)}
    {others : List (Condition β)} (entries : List.Forall₂ (Related values) list others) :
    List.Forall₂ values (list.filterMap operand?) (others.filterMap operand?) := by
  refine entries.filterMap fun _ _ entry => ?_
  cases entry with
  | operand same => exact .some same
  | _ => exact .none

end Condition

namespace Formula

variable {α β γ : Type}

/-- A list that has the form of the list of a formula is that of a formula. -/
theorem exists_of_map_eq {f : α → γ} {g : β → γ} {formula : Formula α}
    {conditions : List (Condition β)}
    (same : conditions.map (Condition.map g) = formula.postfixList.map (Condition.map f)) :
    ∃ other : Formula β, conditions = other.postfixList := by
  induction formula generalizing conditions with
  | compared left comparison right =>
      simp only [postfixList, List.map_cons, List.map_nil, Condition.map_operand,
        Condition.map_operator, List.map_eq_cons_iff,
        List.map_eq_nil_iff, Condition.map_eq_operand_iff, Condition.map_eq_operator_iff] at same
      obtain ⟨_, _, rfl, ⟨first, rfl, _⟩, _, _, rfl, ⟨second, rfl, _⟩, _, _, rfl, rfl, rfl⟩ := same
      exact ⟨.compared first comparison second, rfl⟩
  | not inner induction =>
      simp only [postfixList, List.map_append, List.map_cons, List.map_nil,
        Condition.map_operator, List.map_eq_append_iff, List.map_eq_cons_iff, List.map_eq_nil_iff,
        Condition.map_eq_operator_iff] at same
      obtain ⟨_, _, rfl, kept, _, _, rfl, rfl, rfl⟩ := same
      obtain ⟨other, rfl⟩ := induction kept
      exact ⟨.not other, rfl⟩
  | both left right leftInduction rightInduction
  | either left right leftInduction rightInduction =>
      simp only [postfixList, List.map_append, List.map_cons, List.map_nil,
        Condition.map_operator, List.map_eq_append_iff, List.map_eq_cons_iff, List.map_eq_nil_iff,
        Condition.map_eq_operator_iff] at same
      obtain ⟨_, _, rfl, ⟨_, _, rfl, leftKept, rightKept⟩, _, _, rfl, rfl, rfl⟩ := same
      obtain ⟨first, rfl⟩ := leftInduction leftKept
      obtain ⟨second, rfl⟩ := rightInduction rightKept
      first
        | exact ⟨.both first second, rfl⟩
        | exact ⟨.either first second, rfl⟩

end Formula

namespace Condition

variable {α β γ : Type}

/-- The list is empty, or the list of a formula. -/
def IsFilter (conditions : List (Condition α)) : Prop :=
  conditions = [] ∨ ∃ formula : Formula α, conditions = formula.postfixList

namespace IsFilter

variable {conditions : List (Condition α)}

theorem of_map_eq {others : List (Condition β)} {f : α → γ} {g : β → γ}
    (filter : IsFilter conditions)
    (same : others.map (Condition.map g) = conditions.map (Condition.map f)) :
    IsFilter others := by
  rcases filter with rfl | ⟨formula, rfl⟩
  · exact .inl (List.map_eq_nil_iff.1 same)
  · exact .inr (Formula.exists_of_map_eq same)

/-- The negations of a filter can be moved inwards, which keeps its operands. -/
theorem distribute (filter : IsFilter conditions) :
    ∃ distributed, Condition.distribute conditions = .ok distributed ∧ IsFilter distributed ∧
      distributed.filterMap operand? = conditions.filterMap operand? := by
  rcases filter with rfl | ⟨formula, rfl⟩
  · exact ⟨[], rfl, .inl rfl, rfl⟩
  · refine ⟨_, formula.distribute_postfixList, .inr ⟨_, rfl⟩, ?_⟩
    simp only [Formula.filterMap_operand?_postfixList, Formula.operands_distributed]

end IsFilter

end Condition

namespace Formula

variable {α β : Type} {leftProperty rightProperty property : α → Prop}

theorem Over.imp {otherLeft otherRight : α → Prop} {formula : Formula α}
    (sides : formula.Over leftProperty rightProperty)
    (lefts : ∀ value, leftProperty value → otherLeft value)
    (rights : ∀ value, rightProperty value → otherRight value) :
    formula.Over otherLeft otherRight := by
  induction formula with
  | compared left comparison right => exact ⟨lefts left sides.1, rights right sides.2⟩
  | not inner induction => exact induction sides
  | both left right leftInduction rightInduction
  | either left right leftInduction rightInduction =>
      exact ⟨leftInduction sides.1, rightInduction sides.2⟩

theorem Over.operands {formula : Formula α}
    (sides : formula.Over leftProperty rightProperty)
    (lefts : ∀ value, leftProperty value → property value)
    (rights : ∀ value, rightProperty value → property value) :
    ∀ operand ∈ formula.operands, property operand := by
  induction formula with
  | compared left comparison right =>
      simpa [Formula.operands] using And.intro (lefts left sides.1) (rights right sides.2)
  | not inner induction => exact induction sides
  | both left right leftInduction rightInduction
  | either left right leftInduction rightInduction =>
      exact List.forall_mem_append.2 ⟨leftInduction sides.1, rightInduction sides.2⟩

theorem over_distributed (negate : Bool) {formula : Formula α}
    (sides : formula.Over leftProperty rightProperty) :
    (formula.distributed negate).Over leftProperty rightProperty := by
  induction formula generalizing negate with
  | compared left comparison right => exact sides
  | not inner induction => exact induction (!negate) sides
  | both left right leftInduction rightInduction
  | either left right leftInduction rightInduction =>
      cases negate <;>
        exact ⟨leftInduction _ sides.1, rightInduction _ sides.2⟩

namespace IsListOver

variable {conditions : List (Condition α)}

theorem isFilter (given : IsListOver leftProperty rightProperty conditions) :
    Condition.IsFilter conditions := by
  obtain ⟨formula, rfl, _⟩ := given
  exact .inr ⟨formula, rfl⟩

theorem holds (given : IsListOver leftProperty rightProperty conditions)
    (lefts : ∀ value, leftProperty value → property value)
    (rights : ∀ value, rightProperty value → property value) :
    ∀ operand ∈ conditions.filterMap Condition.operand?, property operand := by
  obtain ⟨formula, rfl, sides⟩ := given
  rw [formula.filterMap_operand?_postfixList]
  exact sides.operands lefts rights

/-- Moving negations inwards keeps the sides of comparisons. -/
theorem distribute (given : IsListOver leftProperty rightProperty conditions)
    {distributed : List (Condition α)}
    (settled : Condition.distribute conditions = .ok distributed) :
    IsListOver leftProperty rightProperty distributed := by
  obtain ⟨formula, rfl, sides⟩ := given
  rw [formula.distribute_postfixList] at settled
  cases settled
  exact ⟨_, rfl, over_distributed false sides⟩

/-- Lists of one shape over related operands compare related sides. -/
theorem of_related {values : α → β → Prop} {otherLeft otherRight : β → Prop}
    {others : List (Condition β)} (given : IsListOver leftProperty rightProperty conditions)
    (entries : List.Forall₂ (Condition.Related values) conditions others)
    (lefts : ∀ value other, values value other → leftProperty value → otherLeft other)
    (rights : ∀ value other, values value other → rightProperty value → otherRight other) :
    IsListOver otherLeft otherRight others := by
  obtain ⟨formula, rfl, sides⟩ := given
  induction formula generalizing others with
  | compared left comparison right =>
      rcases entries with _ | ⟨first, _ | ⟨second, _ | ⟨sign, _ | _⟩⟩⟩
      cases first with
      | operand first =>
          cases second with
          | operand second =>
              cases sign
              exact .compared comparison (lefts _ _ first sides.1) (rights _ _ second sides.2)
  | not inner induction =>
      obtain ⟨_, _, rfl, parts, sign⟩ := entries.exists_append
      rcases sign with _ | ⟨sign, _ | _⟩
      cases sign
      exact (induction sides parts).append_not
  | both left right leftInduction rightInduction
  | either left right leftInduction rightInduction =>
      obtain ⟨_, _, rfl, operands, sign⟩ := entries.exists_append
      obtain ⟨_, _, rfl, firsts, seconds⟩ := operands.exists_append
      rcases sign with _ | ⟨sign, _ | _⟩
      cases sign
      first
        | exact (leftInduction sides.1 firsts).append_and (rightInduction sides.2 seconds)
        | exact (leftInduction sides.1 firsts).append_or (rightInduction sides.2 seconds)

end IsListOver

end Formula

namespace Condition

variable {α β : Type} {leftProperty rightProperty : α → Prop}

/-- The list is empty, or that of a formula whose comparisons have sides with the properties. -/
def IsFilterOver (leftProperty rightProperty : α → Prop) (conditions : List (Condition α)) : Prop :=
  conditions = [] ∨ Formula.IsListOver leftProperty rightProperty conditions

namespace IsFilterOver

variable {conditions : List (Condition α)}

theorem isFilter (given : IsFilterOver leftProperty rightProperty conditions) :
    IsFilter conditions :=
  given.elim .inl fun list => list.isFilter

theorem holds {property : α → Prop} (given : IsFilterOver leftProperty rightProperty conditions)
    (lefts : ∀ value, leftProperty value → property value)
    (rights : ∀ value, rightProperty value → property value) :
    ∀ value ∈ conditions.filterMap operand?, property value := by
  rcases given with rfl | list
  · simp
  · exact list.holds lefts rights

theorem imp {otherLeft otherRight : α → Prop}
    (given : IsFilterOver leftProperty rightProperty conditions)
    (lefts : ∀ value, leftProperty value → otherLeft value)
    (rights : ∀ value, rightProperty value → otherRight value) :
    IsFilterOver otherLeft otherRight conditions :=
  given.imp_right fun ⟨formula, list, sides⟩ => ⟨formula, list, sides.imp lefts rights⟩

theorem distribute (given : IsFilterOver leftProperty rightProperty conditions)
    {distributed : List (Condition α)}
    (settled : Condition.distribute conditions = .ok distributed) :
    IsFilterOver leftProperty rightProperty distributed := by
  rcases given with rfl | list
  · cases settled
    exact .inl rfl
  · exact .inr (list.distribute settled)

theorem of_related {values : α → β → Prop} {otherLeft otherRight : β → Prop}
    {others : List (Condition β)} (given : IsFilterOver leftProperty rightProperty conditions)
    (entries : List.Forall₂ (Related values) conditions others)
    (lefts : ∀ value other, values value other → leftProperty value → otherLeft other)
    (rights : ∀ value other, values value other → rightProperty value → otherRight other) :
    IsFilterOver otherLeft otherRight others := by
  rcases given with rfl | list
  · cases entries
    exact .inl rfl
  · exact .inr (list.of_related entries lefts rights)

end IsFilterOver

end Condition

end ObjectQuery
