import ObjectQuery.Plan.Residual
import ObjectQuery.Proofs.Condition.Negation
import ObjectQuery.Proofs.Plan.Share
import ObjectQuery.Proofs.Step

namespace ObjectQuery

/-!
The filter that is left for the joined rows. Together with the shares of the
objects it lets the rows pass that the whole filter lets pass.
-/

namespace Condition

theorem closeUp_sublist {depth : Nat} {conditions kept : List (Condition α)}
    (closed : closeUp depth conditions = .ok kept) : kept.Sublist conditions := by
  fun_induction closeUp depth conditions generalizing kept with
  | case1 => cases closed; exact .slnil
  | case2 depth rest induction | case5 rest induction | case8 depth rest _ _ induction =>
      exact (induction closed).cons _
  | case3 depth rest induction | case4 depth value rest induction
  | case6 depth rest _ induction | case7 depth op rest _ _ induction =>
      obtain ⟨inner, innerClosed, rfl⟩ := Except.map_eq_ok_iff.1 closed
      exact (induction innerClosed).cons_cons _
  | case9 => cases closed

theorem noop_not_mem_closeUp {depth : Nat} {conditions kept : List (Condition α)}
    (closed : closeUp depth conditions = .ok kept) : .noop ∉ kept := by
  fun_induction closeUp depth conditions generalizing kept with
  | case1 => cases closed; exact List.not_mem_nil
  | case2 depth rest induction | case5 rest induction | case8 depth rest _ _ induction =>
      exact induction closed
  | case3 depth rest induction | case4 depth value rest induction
  | case6 depth rest _ induction | case7 depth op rest _ _ induction =>
      obtain ⟨inner, innerClosed, rfl⟩ := Except.map_eq_ok_iff.1 closed
      simpa using induction innerClosed
  | case9 => cases closed

/-- What blanking leaves, without the blanks, is part of the list. -/
theorem sublist_of_blanked (marked : Nat → Bool) {conditions kept : List (Condition α)}
    (count : .noop ∉ kept)
    (sublist : kept.Sublist
      (conditions.mapIdx fun index entry => if marked index then noop else entry)) :
    kept.Sublist conditions := by
  induction conditions generalizing marked kept with
  | nil => exact sublist
  | cons entry rest induction =>
      rw [List.mapIdx_cons] at sublist
      cases sublist with
      | cons _ others => exact (induction _ count others).cons entry
      | cons_cons _ others =>
          obtain ⟨first, later⟩ := not_or.1 (mt List.mem_cons.2 count)
          cases mark : marked 0 with
          | true => simp [mark] at first
          | false =>
              simp only [Bool.false_eq_true, if_false]
              exact (induction _ later others).cons_cons entry

theorem sublist_of_blank {start stop : Nat} {conditions kept : List (Condition α)}
    (count : .noop ∉ kept) (sublist : kept.Sublist (blank start stop conditions)) :
    kept.Sublist conditions :=
  sublist_of_blanked (fun index => decide (start ≤ index ∧ index ≤ stop)) count
    (by simpa [blank] using sublist)

theorem blank_append {start stop : Nat} {before middle : List (Condition α)}
    (begins : start = before.length) (ends : stop + 1 = start + middle.length)
    (after : List (Condition α)) :
    blank start stop (before ++ middle ++ after) =
      before ++ List.replicate middle.length .noop ++ after := by
  apply List.ext_getElem?
  intro index
  simp only [blank, List.getElem?_mapIdx, List.getElem?_append, List.length_append,
    List.length_replicate, List.getElem?_replicate]
  by_cases early : index < before.length
  · have outside : ¬(start ≤ index ∧ index ≤ stop) := by omega
    simp [early, outside, show index < before.length + middle.length by omega]
  · by_cases inside : index < before.length + middle.length
    · have within : start ≤ index ∧ index ≤ stop := by omega
      have present : index - before.length < middle.length := by omega
      simp [early, inside, within, present]
    · have outside : ¬(start ≤ index ∧ index ≤ stop) := by omega
      simp [inside, outside]

theorem closeUp_noops (depth count : Nat) (rest : List (Condition α)) :
    closeUp depth (List.replicate count .noop ++ rest) = closeUp depth rest := by
  induction count with
  | zero => rfl
  | succ count induction => exact induction

theorem closeUp_binary {depth : Nat} {operator : Operator} (binary : operator ≠ .not)
    (deep : 2 ≤ depth) (rest : List (Condition α)) :
    closeUp depth (.operator operator :: rest) =
      (closeUp (depth - 1) rest).map (.operator operator :: ·) := by
  cases operator <;> first | exact absurd rfl binary | simp [closeUp, deep]

end Condition

namespace ConditionTree

theorem blankKnown_of_known {reads : α → Bool} {tree : ConditionTree α}
    (known : tree.reach reads = .known) (conditions : List (Condition α)) :
    tree.blankKnown reads conditions = Condition.blank tree.start tree.stop conditions := by
  cases tree <;> simp [blankKnown, known, start, stop]

/-- Of a tree that is not known, nothing is blanked but below conjunctions. -/
theorem blankKnown_of_not_known {reads : α → Bool} {tree : ConditionTree α}
    (known : tree.reach reads ≠ .known) (other : tree.operator? ≠ some .and)
    (conditions : List (Condition α)) : tree.blankKnown reads conditions = conditions := by
  cases tree <;> simp_all [blankKnown, operator?]

theorem sublist_of_blankKnown {reads : α → Bool} {tree : ConditionTree α}
    {conditions kept : List (Condition α)} (count : .noop ∉ kept)
    (sublist : kept.Sublist (tree.blankKnown reads conditions)) : kept.Sublist conditions := by
  induction tree generalizing conditions with
  | leaf start stop content | not start stop inner induction =>
      unfold blankKnown at sublist
      split at sublist
      · exact Condition.sublist_of_blank count sublist
      · exact sublist
  | binary start stop operator left right leftInduction rightInduction =>
      unfold blankKnown at sublist
      split at sublist
      · exact Condition.sublist_of_blank count sublist
      · split at sublist
        · exact leftInduction (rightInduction sublist)
        · exact sublist

end ConditionTree

theorem Condition.residual_sublist {conditions kept : List (Condition α)}
    {tree : Option (ConditionTree α)} {objects : List (α → Bool)}
    (left : residual conditions tree objects = .ok kept) : kept.Sublist conditions := by
  cases tree with
  | none => exact closeUp_sublist left
  | some tree =>
      have count := noop_not_mem_closeUp left
      have sublist := closeUp_sublist left
      clear left
      induction objects generalizing conditions with
      | nil => exact sublist
      | cons reads rest induction =>
          exact ConditionTree.sublist_of_blankKnown count (induction sublist)

namespace Formula

open Condition

variable {α : Type}

def isKnownToAny (objects : List (α → Bool)) (formula : Formula α) : Bool :=
  objects.any fun reads => formula.isKnown reads

/-- The list of a formula without what some object knows of its conjuncts. -/
def blanked (objects : List (α → Bool)) : Formula α → List (Condition α)
  | both left right =>
      left.blanked objects ++ right.blanked objects ++
        [if (both left right).isKnownToAny objects then .noop else .operator .and]
  | formula =>
      if formula.isKnownToAny objects then
        List.replicate formula.postfixList.length .noop
      else
        formula.postfixList

section Blanked

variable {objects : List (α → Bool)}

theorem isKnownToAny_both {left right : Formula α}
    (known : (both left right).isKnownToAny objects = true) :
    left.isKnownToAny objects = true ∧ right.isKnownToAny objects = true := by
  obtain ⟨reads, member, knows⟩ := List.any_eq_true.1 known
  rw [isKnown, Bool.and_eq_true] at knows
  exact ⟨List.any_eq_true.2 ⟨reads, member, knows.1⟩,
    List.any_eq_true.2 ⟨reads, member, knows.2⟩⟩

theorem blanked_of_known {formula : Formula α} (known : formula.isKnownToAny objects = true) :
    formula.blanked objects = List.replicate formula.postfixList.length .noop := by
  induction formula with
  | compared left comparison right | not inner induction
  | either left right leftInduction rightInduction => simp [blanked, known]
  | both left right leftInduction rightInduction =>
      obtain ⟨leftKnown, rightKnown⟩ := isKnownToAny_both known
      rw [blanked, leftInduction leftKnown, rightInduction rightKnown, if_pos known]
      simp [postfixList, List.replicate_succ', ← Nat.add_assoc]

variable (objects) in
theorem length_blanked (formula : Formula α) :
    (formula.blanked objects).length = formula.postfixList.length := by
  induction formula with
  | compared left comparison right | not inner induction
  | either left right leftInduction rightInduction =>
      rw [blanked]
      · split <;> simp
      · simp
  | both left right leftInduction rightInduction =>
      simp [blanked, postfixList, leftInduction, rightInduction]

theorem isKnownToAny_append (reads : α → Bool) (formula : Formula α) :
    formula.isKnownToAny (objects ++ [reads]) =
      (formula.isKnownToAny objects || formula.isKnown reads) := by
  simp [isKnownToAny]

theorem blankKnown_tree_of_known {reads : α → Bool} {formula : Formula α}
    (known : formula.isKnown reads = true) (before after : List (Condition α)) :
    (formula.tree before.length).blankKnown reads (before ++ formula.blanked objects ++ after) =
      before ++ formula.blanked (objects ++ [reads]) ++ after := by
  have reached := (formula.reach_tree reads before.length).1.2 known
  have ends := formula.stop_tree before.length
  rw [← formula.length_blanked objects] at ends
  rw [ConditionTree.blankKnown_of_known reached, start_tree, blank_append rfl ends,
    length_blanked, blanked_of_known (by simp [isKnownToAny_append, known])]

/-- What is no conjunction is blanked as a whole or not at all. -/
theorem blankKnown_tree_of_not_both (reads : α → Bool) {formula : Formula α}
    (before after : List (Condition α))
    (other : (formula.tree before.length).operator? ≠ some .and) :
    (formula.tree before.length).blankKnown reads (before ++ formula.blanked objects ++ after) =
      before ++ formula.blanked (objects ++ [reads]) ++ after := by
  cases known : formula.isKnown reads with
  | true => exact blankKnown_tree_of_known known before after
  | false =>
      have unreached : (formula.tree before.length).reach reads ≠ .known := by
        rw [Ne, (formula.reach_tree reads before.length).1, known]
        exact Bool.false_ne_true
      have same : formula.blanked (objects ++ [reads]) = formula.blanked objects := by
        cases formula with
        | compared left comparison right | not inner | either left right =>
            simp [blanked, isKnownToAny_append, known]
        | both left right => exact absurd rfl other
      rw [ConditionTree.blankKnown_of_not_known unreached other, same]

variable (objects) in
theorem blankKnown_tree (reads : α → Bool) (formula : Formula α)
    (before after : List (Condition α)) :
    (formula.tree before.length).blankKnown reads (before ++ formula.blanked objects ++ after) =
      before ++ formula.blanked (objects ++ [reads]) ++ after := by
  induction formula generalizing before after with
  | compared left comparison right =>
      have other := comparison.ne_of_isLogical .and rfl
      exact blankKnown_tree_of_not_both reads before after
        (by simpa [tree, ConditionTree.operator?] using other)
  | not inner induction | either left right leftInduction rightInduction =>
      exact blankKnown_tree_of_not_both reads before after (by simp [tree, ConditionTree.operator?])
  | both left right leftInduction rightInduction =>
      cases known : (both left right).isKnown reads with
      | true => exact blankKnown_tree_of_known known before after
      | false =>
          have unreached : ((both left right).tree before.length).reach reads ≠ .known := by
            rw [Ne, ((both left right).reach_tree reads before.length).1, known]
            exact Bool.false_ne_true
          rw [tree] at unreached
          rw [tree, ConditionTree.blankKnown, if_neg unreached, if_pos rfl]
          have first := leftInduction before (right.blanked objects ++
            [if (both left right).isKnownToAny objects then .noop else .operator .and] ++ after)
          have second := rightInduction (before ++ left.blanked (objects ++ [reads]))
            ([if (both left right).isKnownToAny objects then .noop else .operator .and] ++ after)
          simp only [List.length_append, length_blanked, List.append_assoc] at first second
          simp only [blanked, isKnownToAny_append, known, Bool.or_false, List.append_assoc,
            first, second]

theorem foldl_blankKnown (formula : Formula α) (done others : List (α → Bool)) :
    others.foldl (fun left reads => (formula.tree 0).blankKnown reads left)
        (formula.blanked done) =
      formula.blanked (done ++ others) := by
  induction others generalizing done with
  | nil => simp
  | cons reads rest induction =>
      have step := formula.blankKnown_tree done reads [] []
      simp only [List.nil_append, List.append_nil, List.length_nil] at step
      rw [List.foldl_cons, step, induction, List.append_assoc, List.singleton_append]

theorem blanked_nil (formula : Formula α) : formula.blanked [] = formula.postfixList := by
  induction formula with
  | compared left comparison right | not inner induction
  | either left right leftInduction rightInduction => simp [blanked, isKnownToAny]
  | both left right leftInduction rightInduction =>
      simp [blanked, postfixList, isKnownToAny, leftInduction, rightInduction]

theorem residual_postfixList (formula : Formula α) :
    Condition.residual formula.postfixList (some (formula.tree 0)) objects =
      closeUp 0 (formula.blanked objects) := by
  rw [Condition.residual, ← formula.blanked_nil, foldl_blankKnown, List.nil_append]

end Blanked

end Formula

end ObjectQuery
