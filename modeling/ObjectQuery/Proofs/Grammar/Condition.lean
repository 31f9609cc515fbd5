import ObjectQuery.Grammar.Statement
import ObjectQuery.Proofs.Condition.Formula
import ObjectQuery.Proofs.Syntax.Keep

namespace ObjectQuery

/-! The condition lists of statements are the lists of formulas. -/

namespace Condition

variable {α : Type} {motive : List (Condition α) → Prop} {conditions : List (Condition α)}

/-- What a negation keeps, any number of negations keep. -/
theorem negatedTimes_induction
    (negate : ∀ {list}, motive list → motive (list ++ [.operator .not])) (given : motive conditions)
    (count : Nat) : motive (negatedTimes count conditions) := by
  induction count with
  | zero => simpa [negatedTimes] using given
  | succ count induction =>
      rw [negatedTimes, List.replicate_succ', ← List.append_assoc]
      exact negate induction

theorem foldl_induction {operator : Operator} {lists : List (List (Condition α))}
    (join : ∀ {left right}, motive left → motive right →
      motive (left ++ right ++ [.operator operator]))
    (given : motive conditions) (others : ∀ list ∈ lists, motive list) :
    motive (lists.foldl (fun left right => left ++ right ++ [.operator operator]) conditions) := by
  induction lists generalizing conditions with
  | nil => exact given
  | cons list rest induction =>
      obtain ⟨first, later⟩ := List.forall_mem_cons.1 others
      exact induction (join given first) later

/-- What holds of the parts, and is kept where two are joined, holds of all of them joined. -/
theorem joined_induction {operator : Operator} {lists : List (List (Condition α))}
    (join : ∀ {left right}, motive left → motive right →
      motive (left ++ right ++ [.operator operator]))
    (nonempty : lists ≠ []) (given : ∀ list ∈ lists, motive list) :
    motive (joined operator lists) := by
  cases lists with
  | nil => exact absurd rfl nonempty
  | cons first rest =>
      obtain ⟨own, others⟩ := List.forall_mem_cons.1 given
      exact foldl_induction join own others

end Condition

namespace Formula

def operands : Formula α → List α
  | compared left _ right => [left, right]
  | not inner => inner.operands
  | both left right | either left right => left.operands ++ right.operands

theorem filterMap_operand?_postfixList (formula : Formula α) :
    formula.postfixList.filterMap Condition.operand? = formula.operands := by
  induction formula with
  | compared left comparison right => rfl
  | not inner induction => simp [postfixList, operands, induction, Condition.operand?]
  | both left right leftInduction rightInduction
  | either left right leftInduction rightInduction =>
      simp [postfixList, operands, leftInduction, rightInduction, Condition.operand?]

/-- The left sides of all comparisons have the one property, the right sides the other. -/
def Over (leftProperty rightProperty : α → Prop) : Formula α → Prop
  | compared left _ right => leftProperty left ∧ rightProperty right
  | not inner => inner.Over leftProperty rightProperty
  | both left right | either left right =>
      left.Over leftProperty rightProperty ∧ right.Over leftProperty rightProperty

def IsListOver (leftProperty rightProperty : α → Prop) (conditions : List (Condition α)) : Prop :=
  ∃ formula : Formula α, conditions = formula.postfixList ∧
    formula.Over leftProperty rightProperty

namespace IsListOver

variable {leftProperty rightProperty : α → Prop} {conditions : List (Condition α)}

theorem compared {left right : α} (comparison : Comparison) (leftHolds : leftProperty left)
    (rightHolds : rightProperty right) :
    IsListOver leftProperty rightProperty
      [.operand left, .operand right, .operator comparison.operator] :=
  ⟨.compared left comparison right, rfl, leftHolds, rightHolds⟩

theorem append_not (given : IsListOver leftProperty rightProperty conditions) :
    IsListOver leftProperty rightProperty (conditions ++ [.operator .not]) := by
  obtain ⟨formula, rfl, holds⟩ := given
  exact ⟨.not formula, rfl, holds⟩

theorem append_and {left right : List (Condition α)}
    (leftGiven : IsListOver leftProperty rightProperty left)
    (rightGiven : IsListOver leftProperty rightProperty right) :
    IsListOver leftProperty rightProperty (left ++ right ++ [.operator .and]) := by
  obtain ⟨leftFormula, rfl, leftHolds⟩ := leftGiven
  obtain ⟨rightFormula, rfl, rightHolds⟩ := rightGiven
  exact ⟨.both leftFormula rightFormula, rfl, leftHolds, rightHolds⟩

theorem append_or {left right : List (Condition α)}
    (leftGiven : IsListOver leftProperty rightProperty left)
    (rightGiven : IsListOver leftProperty rightProperty right) :
    IsListOver leftProperty rightProperty (left ++ right ++ [.operator .or]) := by
  obtain ⟨leftFormula, rfl, leftHolds⟩ := leftGiven
  obtain ⟨rightFormula, rfl, rightHolds⟩ := rightGiven
  exact ⟨.either leftFormula rightFormula, rfl, leftHolds, rightHolds⟩

end IsListOver

end Formula

namespace Grammar

open Formula

theorem exists_of_comparison {chars : List Char} {operator : Operator} {length : Nat}
    (found : comparison chars = .found operator length) :
    ∃ keyword, (keyword, operator) ∈ comparisons ∧ keyword.length? chars = some length := by
  simp only [comparison] at found
  split at found
  · rename_i sign count first
    cases found
    obtain ⟨sign, member, matched⟩ := List.exists_of_findSome?_eq_some first
    obtain ⟨_, spelled, pair⟩ := Option.map_eq_some_iff.1 matched
    cases pair
    exact ⟨sign.1, member, spelled⟩
  · cases found

theorem isLogical_of_comparison {chars : List Char} {operator : Operator} {length : Nat}
    (found : comparison chars = .found operator length) : operator.isLogical = false := by
  have signs : ∀ sign ∈ comparisons, sign.2.isLogical = false := by decide
  obtain ⟨keyword, member, -⟩ := exists_of_comparison found
  exact signs _ member

variable {subquery : Parser Query} {clause : ConditionClause}
  {leftProperty rightProperty : Field Query → Prop}

theorem comparisonTerm_yields (left : (leftOperand clause).Yields leftProperty)
    (right : (rightOperand subquery clause).Yields rightProperty) :
    (comparisonTerm subquery clause).Yields (IsListOver leftProperty rightProperty) := by
  have sign : (Parser.lexeme comparison).Yields fun sign =>
      ∀ operator ∈ sign, operator.isLogical = false :=
    .lexeme (by simp) fun _ _ _ found => by simpa using isLogical_of_comparison found
  refine .after fun reserved => .ite (fun _ => .fail_bind) fun _ => ?_
  refine .bind left fun first firstHolds => .after fun _ => ?_
  refine sign.bind fun sign compares => ?_
  cases sign with
  | none => exact .fail
  | some operator =>
      refine .after fun _ => .bind right fun second secondHolds => .pure ?_
      exact .compared ⟨operator, compares operator rfl⟩ firstHolds secondHolds

theorem groupTerm_yields {conditions : Parser (List (Condition (Field Query)))}
    (inner : conditions.Yields (IsListOver leftProperty rightProperty)) :
    (groupTerm conditions clause).Yields (IsListOver leftProperty rightProperty) := by
  refine .after fun cursor => .after fun _ => .after fun _ => .bind inner fun list given => ?_
  refine .after fun _ => .after fun closed => .ite (fun _ => ?_) fun _ => ?_
  · exact .after fun _ => .pure given
  · exact .failFrom_bind

theorem term_yields {conditions : Parser (List (Condition (Field Query)))}
    (left : (leftOperand clause).Yields leftProperty)
    (right : (rightOperand subquery clause).Yields rightProperty)
    (inner : conditions.Yields (IsListOver leftProperty rightProperty)) :
    (term subquery conditions clause).Yields (IsListOver leftProperty rightProperty) := by
  refine .after fun _ => .after fun count => .after fun bracket => .ite (fun _ => ?_) fun _ => ?_
  · exact .bind (groupTerm_yields inner) fun list given =>
      .pure (Condition.negatedTimes_induction IsListOver.append_not given count)
  · exact .bind (comparisonTerm_yields left right) fun list given =>
      .pure (Condition.negatedTimes_induction IsListOver.append_not given count)

theorem conditionsWithin_yields (left : (leftOperand clause).Yields leftProperty)
    (right : (rightOperand subquery clause).Yields rightProperty) (bound : Nat) :
    (conditionsWithin subquery clause bound).Yields (IsListOver leftProperty rightProperty) := by
  induction bound with
  | zero => exact .fail
  | succ bound induction =>
      have terms := Step.Yields.separated (Parser.keywordAhead .and)
        (term_yields left right induction)
      have conjunctions := Step.Yields.separated (Parser.keywordAhead .or)
        (terms.bind fun _ given =>
          .pure (Condition.joined_induction IsListOver.append_and given.1 given.2))
      exact conjunctions.bind fun _ given =>
        .pure (Condition.joined_induction IsListOver.append_or given.1 given.2)

theorem conditionsWith_yields (left : (leftOperand clause).Yields leftProperty)
    (right : (rightOperand subquery clause).Yields rightProperty) :
    (conditionsWith subquery clause).Yields (IsListOver leftProperty rightProperty) :=
  .after fun _ => conditionsWithin_yields left right _

theorem exists_formula {clause : ConditionClause} {cursor rest : Cursor}
    {list : List (Condition (Field Query))} (parsed : conditions clause cursor = .ok list rest) :
    ∃ formula : Formula (Field Query), list = formula.postfixList := by
  have any {parser : Parser (Field Query)} : parser.Yields fun _ => True :=
    fun _ _ _ _ _ => ⟨trivial, trivial⟩
  have yields : (conditions clause).Yields (IsListOver (fun _ => True) fun _ => True) :=
    conditionsWith_yields any any
  obtain ⟨formula, equation, _⟩ := yields.of_ok parsed
  exact ⟨formula, equation⟩

end Grammar

end ObjectQuery
