import ObjectQuery.Plan.Share
import ObjectQuery.Proofs.Condition.Formula

namespace ObjectQuery

/-!
What an object decides of a formula from its own rows follows from the formula,
and is the formula itself where the object knows all of it.
-/

namespace Formula

def isKnown (reads : α → Bool) : Formula α → Bool
  | compared left _ right => reads left && reads right
  | not inner => inner.isKnown reads
  | both left right | either left right => left.isKnown reads && right.isKnown reads

/-- The part of a formula that is decided, none where nothing is. -/
def decided? (reads : α → Bool) : Formula α → Option (Formula α)
  | compared left comparison right =>
      if reads left && reads right then some (compared left comparison right) else none
  | not inner => if inner.isKnown reads then some (not inner) else none
  | both left right =>
      match left.decided? reads, right.decided? reads with
      | some left, some right => some (both left right)
      | some left, none => some left
      | none, right => right
  | either left right =>
      match left.decided? reads, right.decided? reads with
      | some left, some right => some (either left right)
      | _, _ => none

variable (reads : α → Bool)

section Known

attribute [local simp] isKnown decided?

theorem decided?_eq_self {formula : Formula α} (known : formula.isKnown reads = true) :
    formula.decided? reads = some formula := by
  induction formula with
  | compared left comparison right =>
      rw [isKnown] at known
      simp [known]
  | not inner induction =>
      rw [isKnown] at known
      simp [known]
  | both left right leftInduction rightInduction
  | either left right leftInduction rightInduction =>
      rw [isKnown, Bool.and_eq_true] at known
      simp [leftInduction known.1, rightInduction known.2]

end Known

theorem decided?_sublist {formula part : Formula α} (decided : formula.decided? reads = some part) :
    part.postfixList.Sublist formula.postfixList := by
  induction formula generalizing part with
  | compared left comparison right =>
      simp only [decided?] at decided
      split at decided
      · cases decided
        exact .refl _
      · cases decided
  | not inner induction =>
      simp only [decided?] at decided
      split at decided
      · cases decided
        exact .refl _
      · cases decided
  | both left right leftInduction rightInduction =>
      simp only [decided?] at decided
      split at decided
      · rename_i leftDecided rightDecided
        cases decided
        exact .append (.append (leftInduction leftDecided) (rightInduction rightDecided)) (.refl _)
      · rename_i leftDecided rightDecided
        cases decided
        exact ((leftInduction leftDecided).trans (List.sublist_append_left ..)).trans
          (List.sublist_append_left ..)
      · exact ((rightInduction decided).trans (List.sublist_append_right ..)).trans
          (List.sublist_append_left ..)
  | either left right leftInduction rightInduction =>
      simp only [decided?] at decided
      split at decided
      · rename_i leftDecided rightDecided
        cases decided
        exact .append (.append (leftInduction leftDecided) (rightInduction rightDecided)) (.refl _)
      · cases decided

section Tree

open ConditionTree

/-- The reach of the tree of a formula tells what is decided of the formula. -/
theorem reach_tree (start : Nat) (formula : Formula α) :
    ((formula.tree start).reach reads = .known ↔ formula.isKnown reads = true) ∧
      ((formula.tree start).reach reads = .unknown ↔ formula.decided? reads = none) := by
  induction formula generalizing start with
  | compared left comparison right =>
      have apart := comparison.ne_of_isLogical .and rfl
      simp only [tree, reach, apart, if_false, isKnown, decided?]
      cases reads left <;> cases reads right <;> simp [Reach.combine]
  | not inner induction =>
      have known := (induction start).1
      simp only [tree, reach, isKnown, decided?, Reach.not_eq_known_iff, known, true_and]
      cases decision : inner.isKnown reads with
      | true => simp [Reach.not, known.2 decision]
      | false =>
          have undecided : (inner.tree start).reach reads ≠ .known := by simp [known, decision]
          cases reached : (inner.tree start).reach reads <;> simp_all [Reach.not]
  | both left right leftInduction rightInduction =>
      have leftReach := leftInduction start
      have rightReach := rightInduction (start + left.postfixList.length)
      simp only [tree, reach, if_true, isKnown, decided?, Reach.and_eq_known_iff,
        Reach.and_eq_unknown_iff, Bool.and_eq_true, leftReach.1, rightReach.1, leftReach.2,
        rightReach.2, true_and]
      cases left.decided? reads <;> cases right.decided? reads <;> simp
  | either left right leftInduction rightInduction =>
      have leftReach := leftInduction start
      have rightReach := rightInduction (start + left.postfixList.length)
      simp only [tree, reach, isKnown, decided?, Reach.combine_eq_known_iff,
        Reach.combine_eq_unknown_iff, Bool.and_eq_true, leftReach.1, rightReach.1, leftReach.2,
        rightReach.2, true_and, reduceCtorEq, if_false]
      cases left.decided? reads <;> cases right.decided? reads <;> simp

/-- The share of the tree of a formula is the list of what is decided. -/
theorem snd_share_tree (start : Nat) (formula : Formula α) :
    ((formula.tree start).share reads).2 =
      match formula.decided? reads with
      | some part => part.postfixList
      | none => [] := by
  induction formula generalizing start with
  | compared left comparison right =>
      have apart := comparison.ne_of_isLogical .and rfl
      cases leftRead : reads left <;> cases rightRead : reads right <;>
        simp [tree, share, decided?, leftRead, rightRead, apart, Reach.combine, postfixList]
  | not inner induction =>
      have reached := (reach_tree reads start inner).1
      have shared := induction start
      rw [← fst_share] at reached
      simp only [tree, share, decided?]
      cases decision : inner.isKnown reads with
      | true =>
          rw [decided?_eq_self reads decision] at shared
          simp [reached.2 decision, Reach.not, shared, postfixList]
      | false =>
          have undecided : ((inner.tree start).share reads).1 ≠ .known := by
            simp [reached, decision]
          cases reach : ((inner.tree start).share reads).1 <;> simp_all [Reach.not]
  | both left right leftInduction rightInduction =>
      have leftShare := leftInduction start
      have rightShare := rightInduction (start + left.postfixList.length)
      have leftReach := (reach_tree reads start left).2
      have rightReach := (reach_tree reads (start + left.postfixList.length) right).2
      rw [← fst_share] at leftReach rightReach
      simp only [tree, share, decided?]
      cases leftDecided : left.decided? reads <;> cases rightDecided : right.decided? reads <;>
        simp_all [Reach.and_eq_unknown_iff, postfixList]
  | either left right leftInduction rightInduction =>
      have leftShare := leftInduction start
      have rightShare := rightInduction (start + left.postfixList.length)
      have leftReach := (reach_tree reads start left).2
      have rightReach := (reach_tree reads (start + left.postfixList.length) right).2
      rw [← fst_share] at leftReach rightReach
      simp only [tree, share, decided?]
      cases leftDecided : left.decided? reads <;> cases rightDecided : right.decided? reads <;>
        simp_all [Reach.combine_eq_unknown_iff, postfixList]

theorem share_tree_sublist (start : Nat) (formula : Formula α) :
    ((formula.tree start).share reads).2.Sublist formula.postfixList := by
  rw [snd_share_tree]
  split
  · exact decided?_sublist reads ‹_›
  · exact List.nil_sublist _

end Tree

section Truth

variable (compare : α → Operator → α → Truth)

theorem holds_of_decided? {formula part : Formula α} (decided : formula.decided? reads = some part)
    (holds : formula.truth compare = .holds) : part.truth compare = .holds := by
  induction formula generalizing part with
  | compared left comparison right =>
      simp only [decided?] at decided
      split at decided
      · cases decided
        exact holds
      · cases decided
  | not inner induction =>
      simp only [decided?] at decided
      split at decided
      · cases decided
        exact holds
      · cases decided
  | both left right leftInduction rightInduction =>
      obtain ⟨leftHolds, rightHolds⟩ := (Truth.and_eq_holds_iff _ _).1 holds
      simp only [decided?] at decided
      split at decided
      · rename_i leftPart rightPart leftDecided rightDecided
        cases decided
        exact (Truth.and_eq_holds_iff _ _).2
          ⟨leftInduction leftDecided leftHolds, rightInduction rightDecided rightHolds⟩
      · rename_i leftPart leftDecided rightDecided
        cases decided
        exact leftInduction leftDecided leftHolds
      · exact rightInduction decided rightHolds
  | either left right leftInduction rightInduction =>
      simp only [decided?] at decided
      split at decided
      · rename_i leftPart rightPart leftDecided rightDecided
        cases decided
        refine (Truth.or_eq_holds_iff _ _).2 (((Truth.or_eq_holds_iff _ _).1 holds).imp ?_ ?_)
        · exact leftInduction leftDecided
        · exact rightInduction rightDecided
      · cases decided

def SharePasses (formula : Formula α) : Prop :=
  ∀ part, formula.decided? reads = some part → part.truth compare = .holds

theorem sharePasses_both_iff (left right : Formula α) :
    (both left right).SharePasses reads compare ↔
      left.SharePasses reads compare ∧ right.SharePasses reads compare := by
  simp only [SharePasses, decided?]
  cases left.decided? reads <;> cases right.decided? reads <;>
    simp [truth, Truth.and_eq_holds_iff]

theorem sharePasses_iff_of_known {formula : Formula α} (known : formula.isKnown reads = true) :
    formula.SharePasses reads compare ↔ formula.truth compare = .holds := by
  simp [SharePasses, decided?_eq_self reads known]

theorem sharePasses_iff_passes (start : Nat) (formula : Formula α) :
    formula.SharePasses reads compare ↔
      Condition.Passes compare ((formula.tree start).share reads).2 := by
  rw [snd_share_tree, SharePasses]
  cases formula.decided? reads with
  | none => simp [Condition.Passes]
  | some part => simp [passes_postfixList_iff]

end Truth

end Formula

end ObjectQuery
