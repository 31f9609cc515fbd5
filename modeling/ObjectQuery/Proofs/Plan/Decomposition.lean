import ObjectQuery.Proofs.Plan.Residual

namespace ObjectQuery

/-!
The conjuncts of a filter, and those that stay with the joined rows. A
conjunction that lost conjuncts on one side may join what stood elsewhere in
the list, but what is joined in the end are the conjuncts that stay, in order.
-/

namespace Formula

/-- The parts of a formula that only conjunctions stand above, in their order. -/
def conjuncts : Formula α → List (Formula α)
  | both left right => left.conjuncts ++ right.conjuncts
  | formula => [formula]

end Formula

namespace ConditionTree

/-- The parts of a tree that only conjunctions stand above, in their order. -/
def conjuncts : ConditionTree α → List (ConditionTree α)
  | binary _ _ .and left right => left.conjuncts ++ right.conjuncts
  | tree => [tree]

/-- The conjuncts of a tree that no object knows as a whole. -/
def remaining (objects : List (α → Bool)) (tree : ConditionTree α) : List (ConditionTree α) :=
  tree.conjuncts.filter fun conjunct =>
    objects.all fun reads => (conjunct.share reads).1 ≠ .known

theorem remaining_nil (tree : ConditionTree α) : tree.remaining [] = tree.conjuncts := by
  simp [remaining]

end ConditionTree

namespace Formula

open Condition

variable {α : Type} {objects : List (α → Bool)}

variable (objects) in
/-- The conjuncts of a formula that no object knows as a whole. -/
def remaining (formula : Formula α) : List (Formula α) :=
  formula.conjuncts.filter fun conjunct => !conjunct.isKnownToAny objects

theorem remaining_nil (formula : Formula α) : formula.remaining [] = formula.conjuncts := by
  simp [remaining, isKnownToAny]

theorem remaining_both (left right : Formula α) :
    (both left right).remaining objects = left.remaining objects ++ right.remaining objects := by
  rw [remaining, conjuncts, List.filter_append, remaining, remaining]

theorem remaining_of_known {formula : Formula α} (known : formula.isKnownToAny objects = true) :
    formula.remaining objects = [] := by
  induction formula with
  | compared left comparison right | not inner induction
  | either left right leftInduction rightInduction => simp [remaining, conjuncts, known]
  | both left right leftInduction rightInduction =>
      obtain ⟨leftKnown, rightKnown⟩ := isKnownToAny_both known
      rw [remaining_both, leftInduction leftKnown, rightInduction rightKnown, List.nil_append]

section Tree

variable (objects) in
theorem all_share_tree (start : Nat) (formula : Formula α) :
    (objects.all fun reads => decide (((formula.tree start).share reads).1 ≠ .known)) =
      !formula.isKnownToAny objects := by
  rw [isKnownToAny, Bool.eq_iff_iff]
  simp [ConditionTree.fst_share, (formula.reach_tree _ start).1]

/-- What is no conjunction is its own conjunct. -/
theorem remaining_tree_of_not_both (start : Nat) {formula : Formula α}
    (single : formula.conjuncts = [formula])
    (other : (formula.tree start).operator? ≠ some .and) :
    ((formula.tree start).remaining objects).map ConditionTree.toPostfix =
      (formula.remaining objects).map postfixList := by
  have alone : (formula.tree start).conjuncts = [formula.tree start] := by
    unfold ConditionTree.conjuncts
    split
    · exact absurd (by simp [ConditionTree.operator?, *]) other
    · rfl
  rw [ConditionTree.remaining, alone, remaining, single]
  simp only [List.filter_cons, all_share_tree, List.filter_nil]
  split <;> simp [toPostfix_tree]

variable (objects) in
/-- What remains of the tree of a formula is what remains of the formula. -/
theorem map_remaining_tree (start : Nat) (formula : Formula α) :
    ((formula.tree start).remaining objects).map ConditionTree.toPostfix =
      (formula.remaining objects).map postfixList := by
  induction formula generalizing start with
  | compared left comparison right =>
      have other := comparison.ne_of_isLogical .and rfl
      exact remaining_tree_of_not_both start rfl (by simpa [tree, ConditionTree.operator?] using other)
  | not inner induction | either left right leftInduction rightInduction =>
      exact remaining_tree_of_not_both start rfl (by simp [tree, ConditionTree.operator?])
  | both left right leftInduction rightInduction =>
      rw [remaining_both, List.map_append, ← leftInduction start,
        ← rightInduction (start + left.postfixList.length), ← List.map_append]
      rw [ConditionTree.remaining, tree, ConditionTree.conjuncts, List.filter_append]
      rfl

end Tree

theorem closeUp_postfixList (depth : Nat) (formula : Formula α) (later : List (Condition α)) :
    closeUp depth (formula.postfixList ++ later) =
      (closeUp (depth + 1) later).map (formula.postfixList ++ ·) := by
  induction formula generalizing depth later with
  | compared left comparison right =>
      have binary := comparison.ne_of_isLogical .not rfl
      simp [postfixList, closeUp, closeUp_binary binary, Except.map_map, Function.comp_def]
  | not inner induction =>
      simp [postfixList, induction, closeUp, Except.map_map, Function.comp_def]
  | both left right leftInduction rightInduction
  | either left right leftInduction rightInduction =>
      simp [postfixList, leftInduction, rightInduction, closeUp_binary, Except.map_map,
        Function.comp_def]

/--
Whether a list that follows the lists of the formulas of a stack closes up to
`kept`, after which the formulas of another stack stand. These have the
conjuncts of the stack before and `added`; the top of a stack is its first entry.
-/
structure ClosesUp (before : List (Formula α)) (conditions kept : List (Condition α))
    (after added : List (Formula α)) : Prop where
  closed : ∀ later, closeUp before.length (conditions ++ later) =
    (closeUp after.length later).map (kept ++ ·)
  stands : after.reverse.flatMap postfixList = before.reverse.flatMap postfixList ++ kept
  conjoins : after.reverse.flatMap conjuncts = before.reverse.flatMap conjuncts ++ added

namespace ClosesUp

theorem append {before middle after firstAdded secondAdded : List (Formula α)}
    {first second firstKept secondKept : List (Condition α)}
    (left : ClosesUp before first firstKept middle firstAdded)
    (right : ClosesUp middle second secondKept after secondAdded) :
    ClosesUp before (first ++ second) (firstKept ++ secondKept) after
      (firstAdded ++ secondAdded) where
  closed later := by
    rw [List.append_assoc, left.closed, right.closed, Except.map_map]
    congr 1
    funext rest
    exact (List.append_assoc firstKept secondKept rest).symm
  stands := by rw [right.stands, left.stands, List.append_assoc]
  conjoins := by rw [right.conjoins, left.conjoins, List.append_assoc]

theorem noops (before : List (Formula α)) (count : Nat) :
    ClosesUp before (List.replicate count .noop) [] before [] where
  closed later := by
    rw [closeUp_noops]
    cases closeUp before.length later <;> rfl
  stands := (List.append_nil _).symm
  conjoins := (List.append_nil _).symm

theorem formula (before : List (Formula α)) (formula : Formula α) :
    ClosesUp before formula.postfixList formula.postfixList (formula :: before)
      formula.conjuncts where
  closed later := formula.closeUp_postfixList before.length later
  stands := by simp
  conjoins := by simp

/-- A conjunction joins the two formulas on top, and goes where there are fewer. -/
theorem conjunction (before : List (Formula α)) :
    ∃ kept after, ClosesUp before [.operator .and] kept after [] ∧
      after.length ≤ max 1 (before.length - 1) := by
  match before with
  | right :: left :: rest =>
      refine ⟨[.operator .and], both left right :: rest, ⟨fun later => ?_, ?_, ?_⟩, ?_⟩
      · simp [closeUp_binary (show Operator.and ≠ .not by decide)]
      · simp [postfixList]
      · simp [conjuncts]
      · simp only [List.length_cons]
        omega
  | [] | [_] =>
      refine ⟨[], _, ⟨fun later => ?_, (List.append_nil _).symm, (List.append_nil _).symm⟩, ?_⟩
      · rw [List.singleton_append, closeUp, if_neg (by simp), if_pos rfl]
        · cases closeUp _ later <;> rfl
        · exact Operator.noConfusion
      · simp

end ClosesUp

variable (objects) in
/-- What is blanked of a formula closes up to the conjuncts that remain of it. -/
theorem closesUp_blanked (before : List (Formula α)) (formula : Formula α) :
    ∃ kept after, ClosesUp before (formula.blanked objects) kept after
      (formula.remaining objects) ∧ after.length ≤ before.length + 1 := by
  induction formula generalizing before with
  | compared left comparison right | not inner induction
  | either left right leftInduction rightInduction =>
      rw [blanked]
      · split
        · rename_i known
          rw [remaining_of_known known]
          exact ⟨[], before, .noops before _, Nat.le_succ _⟩
        · rename_i unknown
          simp only [remaining, conjuncts, List.filter_cons, unknown]
          exact ⟨_, _, .formula before _, Nat.le_refl _⟩
      all_goals simp
  | both left right leftInduction rightInduction =>
      cases known : (both left right).isKnownToAny objects with
      | true =>
          rw [blanked_of_known known, remaining_of_known known]
          exact ⟨[], before, .noops before _, Nat.le_succ _⟩
      | false =>
          obtain ⟨leftKept, middle, first, leftFew⟩ := leftInduction before
          obtain ⟨rightKept, next, second, rightFew⟩ := rightInduction middle
          obtain ⟨connective, after, third, few⟩ := ClosesUp.conjunction next
          refine ⟨leftKept ++ rightKept ++ connective, after, ?_, by omega⟩
          rw [blanked, known, remaining_both, ← List.append_nil (left.remaining objects ++ _)]
          exact (first.append second).append third

variable (objects) in
/-- Nothing is left of a formula, or one formula that joins the conjuncts that remain. -/
theorem residual_eq (formula : Formula α) :
    ∃ left, residual formula.postfixList (some (formula.tree 0)) objects = .ok left ∧
      ((left = [] ∧ formula.remaining objects = []) ∨
        ∃ rest : Formula α, left = rest.postfixList ∧
          rest.conjuncts = formula.remaining objects) := by
  obtain ⟨kept, after, closes, few⟩ := formula.closesUp_blanked objects []
  have closed : closeUp 0 (formula.blanked objects) = .ok kept := by
    simpa [closeUp, Except.map] using closes.closed []
  have stands := closes.stands
  have conjoins := closes.conjoins
  refine ⟨kept, by rw [residual_postfixList, closed], ?_⟩
  rcases after with _ | ⟨rest, _ | ⟨next, others⟩⟩
  · exact .inl ⟨by simpa using stands.symm, by simpa using conjoins.symm⟩
  · exact .inr ⟨rest, by simpa using stands.symm, by simpa using conjoins⟩
  · simp at few

end Formula

namespace Condition

/--
The filter that is left for the joined rows is empty or well formed, and its
conjuncts are those of the filter that no object knows, in the order they had.
-/
theorem residual_of_parsed {clause : ConditionClause} {cursor rest : Cursor}
    {conditions : List (Condition (Field Query))}
    (parsed : Grammar.conditions clause cursor = .ok conditions rest) (paths : List Path) :
    ∃ tree left, ConditionTree.ofPostfix conditions = .ok (some tree) ∧
      residualOf conditions (some tree) paths = .ok left ∧
      ((left = [] ∧ tree.remaining (paths.map Field.isReadBy) = []) ∨
        ∃ residue : ConditionTree (Field Query),
          ConditionTree.ofPostfix left = .ok (some residue) ∧
          residue.conjuncts.map ConditionTree.toPostfix =
            (tree.remaining (paths.map Field.isReadBy)).map ConditionTree.toPostfix) := by
  obtain ⟨formula, rfl⟩ := Grammar.exists_formula parsed
  obtain ⟨left, leftOver, kept⟩ := formula.residual_eq (paths.map Field.isReadBy)
  have same := formula.map_remaining_tree (paths.map Field.isReadBy) 0
  refine ⟨formula.tree 0, left, formula.ofPostfix_postfixList, leftOver, kept.imp ?_ ?_⟩
  · rintro ⟨nothing, none⟩
    rw [none, List.map_nil, List.map_eq_nil_iff] at same
    exact ⟨nothing, same⟩
  · rintro ⟨residue, rfl, conjuncts⟩
    have whole := residue.map_remaining_tree [] 0
    rw [ConditionTree.remaining_nil, Formula.remaining_nil, conjuncts, ← same] at whole
    exact ⟨residue.tree 0, residue.ofPostfix_postfixList, whole⟩

def conjoined : Cursor :=
  Cursor.ofText "x.a<1 and b<2" none

def conjoinedConditions : List (Condition (Field Query)) :=
  [.operand (.ofKind (.column ["x", "a"])), .operand (.ofKind (.literal (.int 1))), .operator .lt,
    .operand (.ofKind (.column ["b"])), .operand (.ofKind (.literal (.int 2))), .operator .lt,
    .operator .and]

theorem conditions_conjoined :
    Grammar.conditions .filter conjoined = .ok conjoinedConditions (conjoined.advance 13) := by
  with_unfolding_all rfl

theorem residual_of_conjoined :
    Grammar.conditions .filter conjoined = .ok conjoinedConditions (conjoined.advance 13) ∧
      ∃ tree left, ConditionTree.ofPostfix conjoinedConditions = .ok (some tree) ∧
        residualOf conjoinedConditions (some tree) [["x"], []] = .ok left ∧
        ((left = [] ∧ tree.remaining ([["x"], []].map Field.isReadBy) = []) ∨
          ∃ residue : ConditionTree (Field Query),
            ConditionTree.ofPostfix left = .ok (some residue) ∧
            residue.conjuncts.map ConditionTree.toPostfix =
              (tree.remaining ([["x"], []].map Field.isReadBy)).map ConditionTree.toPostfix) :=
  ⟨conditions_conjoined, residual_of_parsed conditions_conjoined [["x"], []]⟩

end Condition

/-!
A filter holds for a joined row where the shares of all objects and the filter
that is left for the joined rows let the row pass.
-/

namespace Formula

open Condition

variable {α : Type} (objects : List (α → Bool)) (compare : α → Operator → α → Truth)

theorem truth_eq_holds_iff_conjuncts (formula : Formula α) :
    formula.truth compare = .holds ↔
      ∀ conjunct ∈ formula.conjuncts, conjunct.truth compare = .holds := by
  induction formula with
  | compared left comparison right | not inner induction
  | either left right leftInduction rightInduction => simp [conjuncts]
  | both left right leftInduction rightInduction =>
      rw [truth, Truth.and_eq_holds_iff, leftInduction, rightInduction, conjuncts,
        List.forall_mem_append]

variable {compare} in
/-- What some object knows holds with its share, and what none knows remains. -/
theorem holds_of_conjunct {formula : Formula α} (single : formula.conjuncts = [formula])
    (shares : ∀ reads ∈ objects, formula.SharePasses reads compare)
    (rest : ∀ conjunct ∈ formula.remaining objects, conjunct.truth compare = .holds) :
    formula.truth compare = .holds := by
  cases known : formula.isKnownToAny objects with
  | true =>
      obtain ⟨reads, member, knows⟩ := List.any_eq_true.1 known
      exact (sharePasses_iff_of_known reads compare knows).1 (shares reads member)
  | false => exact rest formula (by simp [remaining, single, known])

/-- The formula holds where its shares hold and the conjuncts that remain. -/
theorem truth_eq_holds_iff (formula : Formula α) :
    formula.truth compare = .holds ↔
      (∀ reads ∈ objects, formula.SharePasses reads compare) ∧
        ∀ conjunct ∈ formula.remaining objects, conjunct.truth compare = .holds := by
  constructor
  · intro holds
    refine ⟨fun reads _ part decided => holds_of_decided? reads compare decided holds, ?_⟩
    intro conjunct member
    exact (truth_eq_holds_iff_conjuncts compare formula).1 holds conjunct
      (List.mem_filter.1 member).1
  · rintro ⟨shares, rest⟩
    induction formula with
    | compared left comparison right | not inner induction
    | either left right leftInduction rightInduction =>
        exact holds_of_conjunct objects rfl shares rest
    | both left right leftInduction rightInduction =>
        simp only [sharePasses_both_iff] at shares
        rw [remaining_both, List.forall_mem_append] at rest
        exact (Truth.and_eq_holds_iff _ _).2
          ⟨leftInduction (fun reads member => (shares reads member).1) rest.1,
            rightInduction (fun reads member => (shares reads member).2) rest.2⟩

/-- The filter left of a formula lets pass what its remaining conjuncts let pass. -/
theorem passes_residual_iff (formula : Formula α) :
    ∃ left, residual formula.postfixList (some (formula.tree 0)) objects = .ok left ∧
      (Passes compare left ↔
        ∀ conjunct ∈ formula.remaining objects, conjunct.truth compare = .holds) := by
  obtain ⟨left, leftOver, kept⟩ := formula.residual_eq objects
  refine ⟨left, leftOver, ?_⟩
  obtain ⟨rfl, none⟩ | ⟨rest, rfl, conjuncts⟩ := kept
  · simp [Passes, none]
  · rw [passes_postfixList_iff, truth_eq_holds_iff_conjuncts, conjuncts]

end Formula

namespace Condition

open Formula

/-- Settled conditions, read or rid of their negations, are the list of a formula. -/
theorem exists_formula_of_parsed {clause : ConditionClause} {cursor rest : Cursor}
    {conditions filter : List (Condition (Field Query))}
    (parsed : Grammar.conditions clause cursor = .ok conditions rest)
    (settled : filter = conditions ∨ distribute conditions = .ok filter) :
    ∃ formula : Formula (Field Query), filter = formula.postfixList := by
  obtain ⟨formula, rfl⟩ := Grammar.exists_formula parsed
  obtain rfl | distributed := settled
  · exact ⟨formula, rfl⟩
  · rw [distribute_postfixList] at distributed
    exact ⟨formula.distributed false, (Except.ok.inj distributed).symm⟩

/--
A filter holds for a joined row where every object lets its share of the row
pass, and the filter that is left lets the joined row pass.
-/
theorem holds_iff_shares_and_residual {clause : ConditionClause} {cursor rest : Cursor}
    {conditions filter : List (Condition (Field Query))}
    (parsed : Grammar.conditions clause cursor = .ok conditions rest)
    (settled : filter = conditions ∨ distribute conditions = .ok filter)
    (paths : List Path) (compare : Field Query → Operator → Field Query → Truth) :
    ∃ tree left truth, ConditionTree.ofPostfix filter = .ok (some tree) ∧
      residualOf filter (some tree) paths = .ok left ∧
      evaluate? compare filter = some truth ∧
      (truth = .holds ↔
        (∀ path ∈ paths, Passes compare (tree.shareOf path).2) ∧ Passes compare left) := by
  obtain ⟨formula, rfl⟩ := exists_formula_of_parsed parsed settled
  let objects : List (Field Query → Bool) := paths.map Field.isReadBy
  obtain ⟨left, leftOver, passes⟩ := formula.passes_residual_iff objects compare
  refine ⟨formula.tree 0, left, formula.truth compare, formula.ofPostfix_postfixList, leftOver,
    formula.evaluate?_postfixList compare, ?_⟩
  rw [formula.truth_eq_holds_iff objects, passes, List.forall_mem_map]
  simp only [sharePasses_iff_passes _ compare 0, ConditionTree.shareOf]

def distributedGroup : List (Condition (Field Query)) :=
  [.operand (.ofKind (.column ["a"])), .operand (.ofKind (.literal (.int 1))), .operator .ge,
    .operand (.ofKind (.column ["b"])),
    .operand (.ofKind (.literal (.list [.literal (.int 2)]))), .operator .notIn, .operator .and]

theorem distribute_negatedGroup : distribute negatedGroupConditions = .ok distributedGroup :=
  rfl

theorem holds_iff_of_negatedGroup :
    Grammar.conditions .filter negatedGroup =
        .ok negatedGroupConditions (negatedGroup.advance 23) ∧
      distribute negatedGroupConditions = .ok distributedGroup ∧
      ∃ tree left truth, ConditionTree.ofPostfix distributedGroup = .ok (some tree) ∧
        residualOf distributedGroup (some tree) [["a"], []] = .ok left ∧
        evaluate? Truth.bySign distributedGroup = some truth ∧
        (truth = .holds ↔
          (∀ path ∈ [["a"], []], Passes Truth.bySign (tree.shareOf path).2) ∧
            Passes Truth.bySign left) :=
  ⟨conditions_negatedGroup, distribute_negatedGroup,
    holds_iff_shares_and_residual conditions_negatedGroup (.inr distribute_negatedGroup)
      [["a"], []] Truth.bySign⟩

end Condition

end ObjectQuery
