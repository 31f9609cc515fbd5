import Mathlib.Data.List.Forall2
import ObjectQuery.Condition.Tree
import ObjectQuery.Plan.Residual
import ObjectQuery.Proofs.Step

namespace ObjectQuery

/-!
Conditions over related operands. What becomes of a condition without a look at
its operands is of one shape for both, with related operands in the same places.
-/

section

/-- Entries of one kind, with related operands. -/
inductive Condition.Related (values : α → β → Prop) : Condition α → Condition β → Prop where
  | noop : Related values .noop .noop
  | unknown : Related values .unknown .unknown
  | operand {value : α} {other : β} (same : values value other) :
      Related values (.operand value) (.operand other)
  | operator (op : Operator) : Related values (.operator op) (.operator op)

/-- Trees over the same spans, with related operands. -/
inductive ConditionTree.Related (values : α → β → Prop) :
    ConditionTree α → ConditionTree β → Prop where
  | unknown (start stop : Nat) :
      Related values (.leaf start stop .unknown) (.leaf start stop .unknown)
  | operand (start stop : Nat) {value : α} {other : β} (same : values value other) :
      Related values (.leaf start stop (.operand value)) (.leaf start stop (.operand other))
  | not (start stop : Nat) {tree : ConditionTree α} {other : ConditionTree β}
      (operand : Related values tree other) :
      Related values (.not start stop tree) (.not start stop other)
  | binary (start stop : Nat) (operator : Operator) {left right : ConditionTree α}
      {leftToo rightToo : ConditionTree β} (first : Related values left leftToo)
      (second : Related values right rightToo) :
      Related values (.binary start stop operator left right)
        (.binary start stop operator leftToo rightToo)

variable {α β : Type} {values : α → β → Prop}

namespace ConditionTree

theorem Related.start_eq {tree : ConditionTree α} {other : ConditionTree β}
    (related : tree.Related values other) : tree.start = other.start := by
  cases related <;> rfl

theorem Related.distributed {tree : ConditionTree α} {other : ConditionTree β}
    (related : tree.Related values other) (negate : Bool) :
    List.Forall₂ (Condition.Related values) (tree.distributed negate)
      (other.distributed negate) := by
  induction related generalizing negate with
  | unknown =>
      cases negate with
      | true => exact .cons .unknown (.cons (.operator _) .nil)
      | false => exact .cons .unknown .nil
  | operand _ _ same =>
      cases negate with
      | true => exact .cons (.operand same) (.cons (.operator _) .nil)
      | false => exact .cons (.operand same) .nil
  | not _ _ _ induction => exact induction _
  | binary _ _ operator _ _ leftInduction rightInduction =>
      exact List.rel_append (List.rel_append (leftInduction _) (rightInduction _))
        (.cons (.operator _) .nil)

theorem push_related {stack : List (ConditionTree α)} {others : List (ConditionTree β)}
    (related : List.Forall₂ (Related values) stack others) (position : Nat)
    {entry : Condition α} {other : Condition β} (entries : entry.Related values other) :
    Except.Related Eq (List.Forall₂ (Related values)) (push stack position entry)
      (push others position other) := by
  cases entries with
  | noop => exact .ok related
  | unknown => exact .ok (.cons (.unknown ..) related)
  | operand same => exact .ok (.cons (.operand _ _ same) related)
  | operator op =>
      cases op with
      | not =>
          cases related with
          | nil => exact .error rfl
          | cons first rest =>
              unfold push
              simp only [first.start_eq]
              exact .ok (.cons (.not _ _ first) rest)
      | _ =>
          rcases related with _ | ⟨first, _ | ⟨second, rest⟩⟩
          · exact .error rfl
          · exact .error rfl
          · unfold push
            simp only [second.start_eq]
            exact .ok (.cons (.binary _ _ _ second first) rest)

theorem pushAll_related {stack : List (ConditionTree α)} {others : List (ConditionTree β)}
    (related : List.Forall₂ (Related values) stack others) (position : Nat)
    {conditions : List (Condition α)} {also : List (Condition β)}
    (entries : List.Forall₂ (Condition.Related values) conditions also) :
    Except.Related Eq (List.Forall₂ (Related values)) (pushAll stack position conditions)
      (pushAll others position also) := by
  induction entries generalizing stack others position with
  | nil => exact .ok related
  | @cons entry other _ _ first _ induction =>
      have pushed := push_related related position first
      unfold pushAll
      revert pushed
      generalize push stack position entry = outcome
      generalize push others position other = outcomeToo
      rintro (same | same)
      · exact induction same _
      · exact .error same

theorem ofPostfix_related {conditions : List (Condition α)} {also : List (Condition β)}
    (entries : List.Forall₂ (Condition.Related values) conditions also) :
    Except.Related Eq (Option.Rel (Related values)) (ofPostfix conditions) (ofPostfix also) := by
  have pushed := pushAll_related .nil 0 entries
  unfold ofPostfix
  revert pushed
  generalize pushAll [] 0 conditions = outcome
  generalize pushAll [] 0 also = outcomeToo
  rintro (same | same)
  · rcases same with _ | ⟨first, _ | ⟨second, rest⟩⟩
    · exact .ok .none
    · exact .ok (.some first)
    · exact .error (by simp [rest.length_eq])
  · exact .error (by rw [same])

end ConditionTree

namespace Condition

theorem distribute_related {conditions : List (Condition α)} {also : List (Condition β)}
    (entries : List.Forall₂ (Related values) conditions also) :
    Except.Related Eq (List.Forall₂ (Related values)) (distribute conditions)
      (distribute also) := by
  have trees := ConditionTree.ofPostfix_related entries
  unfold distribute
  revert trees
  generalize ConditionTree.ofPostfix conditions = outcome
  generalize ConditionTree.ofPostfix also = outcomeToo
  rintro (same | same)
  · cases same with
    | none => exact .ok .nil
    | some tree => exact .ok (tree.distributed false)
  · exact .error same

end Condition

end

/-!
What an object decides of conditions over related operands, and what is left of
them: where it reads the same operands, the same parts.
-/

variable {α β : Type} {values : α → β → Prop} {reads : α → Bool} {readsToo : β → Bool}

namespace ConditionTree

theorem Related.reach_eq {tree : ConditionTree α} {other : ConditionTree β}
    (related : tree.Related values other)
    (same : ∀ value other, values value other → reads value = readsToo other) :
    tree.reach reads = other.reach readsToo := by
  induction related with
  | unknown => rfl
  | operand _ _ operands => simp only [reach, same _ _ operands]
  | not _ _ _ induction => simp only [reach, induction]
  | binary _ _ operator _ _ leftInduction rightInduction =>
      simp only [reach, leftInduction, rightInduction]

theorem Related.share {tree : ConditionTree α} {other : ConditionTree β}
    (related : tree.Related values other)
    (same : ∀ value other, values value other → reads value = readsToo other) :
    List.Forall₂ (Condition.Related values) (tree.share reads).2 (other.share readsToo).2 := by
  induction related with
  | unknown => exact .nil
  | operand _ _ operands =>
      unfold ConditionTree.share
      rw [same _ _ operands]
      split
      · exact .cons (.operand operands) .nil
      · exact .nil
  | not _ _ operand induction =>
      unfold ConditionTree.share
      simp only [fst_share, operand.reach_eq same]
      split
      · exact List.rel_append induction (.cons (.operator _) .nil)
      · exact .nil
  | binary _ _ operator left right leftInduction rightInduction =>
      unfold ConditionTree.share
      simp only [fst_share, left.reach_eq same, right.reach_eq same]
      split
      · exact rightInduction
      · split
        · exact leftInduction
        · generalize (if operator = .and then _ else _ : Reach) = reach
          split
          · exact .nil
          · exact List.rel_append (List.rel_append leftInduction rightInduction)
              (.cons (.operator _) .nil)

end ConditionTree

namespace Condition

theorem blank_related (start stop : Nat) {conditions : List (Condition α)}
    {also : List (Condition β)} (entries : List.Forall₂ (Related values) conditions also) :
    List.Forall₂ (Related values) (blank start stop conditions) (blank start stop also) := by
  rw [List.forall₂_iff_get] at entries ⊢
  obtain ⟨lengths, entries⟩ := entries
  refine ⟨by simp [blank, lengths], fun index first second => ?_⟩
  have entry := entries index (by simpa [blank] using first) (by simpa [blank] using second)
  simp only [blank, List.get_eq_getElem, List.getElem_mapIdx] at entry ⊢
  split
  · exact .noop
  · exact entry

end Condition

namespace ConditionTree

theorem Related.blankKnown {tree : ConditionTree α} {other : ConditionTree β}
    (related : tree.Related values other)
    (same : ∀ value other, values value other → reads value = readsToo other)
    {conditions : List (Condition α)} {also : List (Condition β)}
    (entries : List.Forall₂ (Condition.Related values) conditions also) :
    List.Forall₂ (Condition.Related values) (tree.blankKnown reads conditions)
      (other.blankKnown readsToo also) := by
  induction related generalizing conditions also with
  | unknown start stop => exact entries
  | operand start stop operands =>
      have reaches := (Related.operand start stop operands).reach_eq same
      unfold ConditionTree.blankKnown
      rw [reaches]
      split
      · exact Condition.blank_related _ _ entries
      · exact entries
  | not start stop operand _ =>
      have reaches := (Related.not start stop operand).reach_eq same
      unfold ConditionTree.blankKnown
      rw [reaches]
      split
      · exact Condition.blank_related _ _ entries
      · exact entries
  | binary start stop operator left right leftInduction rightInduction =>
      have reaches := (Related.binary start stop operator left right).reach_eq same
      unfold ConditionTree.blankKnown
      rw [reaches]
      split
      · exact Condition.blank_related _ _ entries
      · split
        · exact rightInduction (leftInduction entries)
        · exact entries

end ConditionTree

namespace Condition

theorem closeUp_related (depth : Nat) {conditions : List (Condition α)} {also : List (Condition β)}
    (entries : List.Forall₂ (Related values) conditions also) :
    Except.Related Eq (List.Forall₂ (Related values)) (closeUp depth conditions)
      (closeUp depth also) := by
  induction entries generalizing depth with
  | nil => exact .ok .nil
  | cons first rest induction =>
      cases first with
      | noop => exact induction depth
      | unknown => exact (induction _).map fun _ _ others => .cons .unknown others
      | operand same => exact (induction _).map fun _ _ others => .cons (.operand same) others
      | operator op =>
          have kept (depth : Nat) :=
            (induction depth).map fun _ _ others => List.Forall₂.cons (Related.operator op) others
          cases op with
          | not =>
              unfold closeUp
              split
              · exact induction _
              · exact kept _
          | _ =>
              unfold closeUp
              split
              · exact kept _
              · split
                · exact induction _
                · exact .error rfl

theorem residual_related {conditions : List (Condition α)} {also : List (Condition β)}
    (entries : List.Forall₂ (Related values) conditions also) {tree : Option (ConditionTree α)}
    {other : Option (ConditionTree β)} (trees : Option.Rel (ConditionTree.Related values) tree other)
    {objects : List (α → Bool)} {others : List (β → Bool)}
    (reads : List.Forall₂ (fun reads readsToo =>
      ∀ value other, values value other → reads value = readsToo other) objects others) :
    Except.Related Eq (List.Forall₂ (Related values)) (residual conditions tree objects)
      (residual also other others) := by
  cases trees with
  | none => exact closeUp_related 0 entries
  | some trees =>
      refine closeUp_related 0 ?_
      induction reads generalizing conditions also with
      | nil => exact entries
      | cons same _ induction => exact induction (trees.blankKnown same entries)

end Condition

end ObjectQuery
