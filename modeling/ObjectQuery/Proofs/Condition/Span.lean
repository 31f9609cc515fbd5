import ObjectQuery.Proofs.Condition.Formula

namespace ObjectQuery

/-!
Which postfix lists are read as trees, and which part of the list each node of a
tree was read from. Blanked entries may stand anywhere in the list.
-/

namespace Condition

variable {α : Type}

/-- The entries that are not blanked. -/
def solid (conditions : List (Condition α)) : List (Condition α) :=
  conditions.filter (!·.isNoop)

/-- The entries at the positions from `start` to `stop`. -/
def between (start stop : Nat) (conditions : List (Condition α)) : List (Condition α) :=
  (conditions.take (stop + 1)).drop start

/-- Expressions with each operator after its operands: one for a negation, two for the others. -/
inductive IsPostfix : List (Condition α) → Prop where
  | unknown : IsPostfix [.unknown]
  | operand (value : α) : IsPostfix [.operand value]
  | negated {inner : List (Condition α)} (given : IsPostfix inner) :
      IsPostfix (inner ++ [.operator .not])
  | joined {left right : List (Condition α)} {op : Operator} (leftGiven : IsPostfix left)
      (rightGiven : IsPostfix right) (two : op ≠ .not) :
      IsPostfix (left ++ right ++ [.operator op])

@[simp]
theorem solid_nil : solid ([] : List (Condition α)) = [] := rfl

@[simp]
theorem solid_append (first second : List (Condition α)) :
    solid (first ++ second) = solid first ++ solid second :=
  List.filter_append ..

@[simp]
theorem solid_noop (rest : List (Condition α)) : solid (.noop :: rest) = solid rest := rfl

@[simp]
theorem solid_operator (op : Operator) (rest : List (Condition α)) :
    solid (.operator op :: rest) = .operator op :: solid rest := rfl

theorem between_append (before part after : List (Condition α)) {start stop : Nat}
    (begins : start = before.length) (ends : stop + 1 = start + part.length) :
    between start stop (before ++ part ++ after) = part := by
  subst begins
  rw [between, ends, ← List.length_append, List.take_left, List.drop_left]

end Condition

namespace ConditionTree

open Condition

variable {α : Type}

/-- The entry of the node itself. -/
def entry : ConditionTree α → Condition α
  | leaf _ _ content => content.entry
  | not _ _ _ => .operator .not
  | binary _ _ op _ _ => .operator op

def children : ConditionTree α → List (ConditionTree α)
  | leaf _ _ _ => []
  | not _ _ inner => [inner]
  | binary _ _ _ left right => [left, right]

/-- The tree and the trees below it. -/
def nodes : ConditionTree α → List (ConditionTree α)
  | leaf start stop content => [leaf start stop content]
  | not start stop inner => not start stop inner :: inner.nodes
  | binary start stop op left right =>
      binary start stop op left right :: (left.nodes ++ right.nodes)

/--
The part of a list that a tree was read from, from the first entry of the tree,
at `start`, to that of its root. Blanks may stand before each operator and
between its operands.
-/
inductive ReadFrom : Nat → List (Condition α) → ConditionTree α → Prop where
  | leaf (start : Nat) (content : ConditionLeaf α) :
      ReadFrom start [content.entry] (.leaf start start content)
  | not {start : Nat} {part gap : List (Condition α)} {operand : ConditionTree α}
      (inner : ReadFrom start part operand) (blank : solid gap = []) :
      ReadFrom start (part ++ gap ++ [.operator .not])
        (.not start (start + (part ++ gap).length) operand)
  | binary {start : Nat} {lefts middle rights gap : List (Condition α)} {operator : Operator}
      {left right : ConditionTree α} (leftRead : ReadFrom start lefts left)
      (middleBlank : solid middle = [])
      (rightRead : ReadFrom (start + (lefts ++ middle).length) rights right)
      (blank : solid gap = []) (two : operator ≠ .not) :
      ReadFrom start (lefts ++ middle ++ rights ++ gap ++ [.operator operator])
        (.binary start (start + (lefts ++ middle ++ rights ++ gap).length) operator left right)

namespace ReadFrom

variable {start : Nat} {part : List (Condition α)} {tree : ConditionTree α}

theorem start_eq (read : ReadFrom start part tree) : tree.start = start := by
  cases read <;> rfl

theorem stop_eq (read : ReadFrom start part tree) : tree.stop + 1 = start + part.length := by
  cases read <;> simp [stop] <;> omega

theorem exists_entry (read : ReadFrom start part tree) :
    ∃ earlier, part = earlier ++ [tree.entry] := by
  cases read with
  | leaf content => exact ⟨[], rfl⟩
  | not | binary => exact ⟨_, rfl⟩

theorem start_le_stop (read : ReadFrom start part tree) : start ≤ tree.stop := by
  obtain ⟨earlier, rfl⟩ := read.exists_entry
  have ends := read.stop_eq
  rw [List.length_append, List.length_singleton] at ends
  omega

theorem solid_eq (read : ReadFrom start part tree) : solid part = tree.toPostfix := by
  induction read with
  | leaf start content => cases content <;> rfl
  | not inner blank induction => simp [toPostfix, induction, blank]
  | binary leftRead middleBlank rightRead blank two leftInduction rightInduction =>
      simp [toPostfix, leftInduction, rightInduction, middleBlank, blank]

theorem isPostfix (read : ReadFrom start part tree) : IsPostfix tree.toPostfix := by
  induction read with
  | leaf start content =>
      cases content with
      | unknown => exact .unknown
      | operand value => exact .operand value
  | not inner blank induction => exact .negated induction
  | binary leftRead middleBlank rightRead blank two leftInduction rightInduction =>
      exact .joined leftInduction rightInduction two

/-- Each node was read from a part of the part that the tree was read from. -/
theorem exists_part (read : ReadFrom start part tree) {node : ConditionTree α}
    (member : node ∈ tree.nodes) :
    ∃ before own after, part = before ++ own ++ after ∧
      ReadFrom (start + before.length) own node := by
  induction read with
  | leaf start content =>
      cases List.mem_singleton.1 member
      exact ⟨[], _, [], rfl, .leaf start content⟩
  | @not _ _ gap _ inner blank induction =>
      rcases List.mem_cons.1 member with rfl | below
      · exact ⟨[], _, [], by simp, .not inner blank⟩
      · obtain ⟨before, own, after, rfl, reads⟩ := induction below
        exact ⟨before, own, after ++ (gap ++ [.operator .not]), by simp only [List.append_assoc],
          reads⟩
  | @binary _ lefts middle rights gap op _ _ leftRead middleBlank rightRead blank two leftInduction
      rightInduction =>
      rcases List.mem_cons.1 member with rfl | below
      · exact ⟨[], _, [], by simp, .binary leftRead middleBlank rightRead blank two⟩
      rcases List.mem_append.1 below with below | below
      · obtain ⟨before, own, after, rfl, reads⟩ := leftInduction below
        exact ⟨before, own, after ++ (middle ++ rights ++ gap ++ [.operator op]),
          by simp only [List.append_assoc], reads⟩
      · obtain ⟨before, own, after, rfl, reads⟩ := rightInduction below
        refine ⟨lefts ++ middle ++ before, own, after ++ (gap ++ [.operator op]),
          by simp only [List.append_assoc], ?_⟩
        simpa only [List.length_append, Nat.add_assoc] using reads

/-- The children of a node were read from parts that follow each other before its own entry. -/
theorem children_within (read : ReadFrom start part tree) :
    tree.children.Pairwise (fun left right => left.stop < right.start) ∧
      ∀ child ∈ tree.children, start ≤ child.start ∧ child.start ≤ child.stop ∧
        child.stop + 1 < start + part.length := by
  cases read with
  | leaf => simp [children]
  | not inner blank =>
      have ends := inner.stop_eq
      have spans := inner.start_le_stop
      refine ⟨List.pairwise_singleton _ _, fun child member => ?_⟩
      simp only [List.length_append, List.length_singleton]
      rw [List.mem_singleton.1 member, inner.start_eq]
      omega
  | binary leftRead middleBlank rightRead blank two =>
      have leftEnds := leftRead.stop_eq
      have rightEnds := rightRead.stop_eq
      have leftSpans := leftRead.start_le_stop
      have rightSpans := rightRead.start_le_stop
      rw [List.length_append] at rightEnds rightSpans
      refine ⟨List.pairwise_pair.2 ?_, fun child member => ?_⟩
      · rw [rightRead.start_eq, List.length_append]
        omega
      · simp only [List.length_append, List.length_singleton]
        rcases List.mem_cons.1 member with rfl | last
        · rw [leftRead.start_eq]
          omega
        · rw [List.mem_singleton.1 last, rightRead.start_eq, List.length_append]
          omega

/-- The spans of the children of a node follow each other inside its own, before its end. -/
theorem children_spans (read : ReadFrom start part tree) :
    tree.children.Pairwise (fun left right => left.stop < right.start) ∧
      ∀ child ∈ tree.children,
        tree.start ≤ child.start ∧ child.start ≤ child.stop ∧ child.stop < tree.stop := by
  refine ⟨read.children_within.1, fun child member => ?_⟩
  have ends := read.stop_eq
  obtain ⟨starts, spans, before⟩ := read.children_within.2 child member
  rw [read.start_eq]
  exact ⟨starts, spans, by omega⟩

end ReadFrom

/-- The trees of a stack, the last one first, were read from a list, blanks between them. -/
inductive Stacked : List (Condition α) → List (ConditionTree α) → Prop where
  | nil {gap : List (Condition α)} (blank : solid gap = []) : Stacked gap []
  | cons {before part gap : List (Condition α)} {stack : List (ConditionTree α)}
      {tree : ConditionTree α} (below : Stacked before stack)
      (read : ReadFrom before.length part tree) (blank : solid gap = []) :
      Stacked (before ++ part ++ gap) (tree :: stack)

namespace Stacked

variable {conditions : List (Condition α)} {stack after : List (ConditionTree α)}

theorem empty : Stacked ([] : List (Condition α)) [] :=
  .nil rfl

theorem onto {part : List (Condition α)} {tree : ConditionTree α}
    (below : Stacked conditions stack) (read : ReadFrom conditions.length part tree) :
    Stacked (conditions ++ part) (tree :: stack) := by
  rw [← List.append_nil (conditions ++ part)]
  exact .cons below read rfl

theorem noop (stacked : Stacked conditions stack) : Stacked (conditions ++ [.noop]) stack := by
  cases stacked with
  | nil blank => exact .nil (by simp [blank])
  | cons below read blank =>
      rw [List.append_assoc]
      exact .cons below read (by simp [blank])

theorem leaf (stacked : Stacked conditions stack) (content : ConditionLeaf α) :
    Stacked (conditions ++ [content.entry])
      (.leaf conditions.length conditions.length content :: stack) :=
  stacked.onto (.leaf _ content)

theorem not {operand : ConditionTree α} (stacked : Stacked conditions (operand :: stack)) :
    Stacked (conditions ++ [.operator .not])
      (.not operand.start conditions.length operand :: stack) := by
  cases stacked with
  | @cons before part gap _ _ below read blank =>
      have whole := below.onto (.not read blank)
      rw [read.start_eq]
      simpa [Nat.add_assoc] using whole

theorem binary {left right : ConditionTree α} {operator : Operator} (two : operator ≠ .not)
    (stacked : Stacked conditions (right :: left :: stack)) :
    Stacked (conditions ++ [.operator operator])
      (.binary left.start conditions.length operator left right :: stack) := by
  cases stacked with
  | @cons _ rights gap _ _ below rightRead blank =>
      cases below with
      | @cons before lefts middle _ _ below leftRead middleBlank =>
          rw [List.append_assoc before, List.length_append] at rightRead
          have whole := below.onto (.binary leftRead middleBlank rightRead blank two)
          rw [leftRead.start_eq]
          simpa [Nat.add_assoc] using whole

/-- One more entry is read onto the stack. -/
theorem push (stacked : Stacked conditions stack) {entry : Condition α}
    (pushed : ConditionTree.push stack conditions.length entry = .ok after) :
    Stacked (conditions ++ [entry]) after := by
  unfold ConditionTree.push at pushed
  split at pushed
  · cases pushed
    exact stacked.noop
  · cases pushed
    exact stacked.leaf .unknown
  · cases pushed
    exact stacked.leaf (.operand _)
  · split at pushed
    · cases pushed
      exact stacked.not
    · cases pushed
  · rename_i operator two
    split at pushed
    · cases pushed
      exact stacked.binary (fun same => two same)
    · cases pushed

theorem pushAll (stacked : Stacked conditions stack) {rest : List (Condition α)}
    (pushed : ConditionTree.pushAll stack conditions.length rest = .ok after) :
    Stacked (conditions ++ rest) after := by
  induction rest generalizing conditions stack with
  | nil =>
      cases pushed
      rwa [List.append_nil]
  | cons entry rest induction =>
      unfold ConditionTree.pushAll at pushed
      split at pushed
      · rename_i next first
        have later := induction (stacked.push first) (by simpa using pushed)
        simpa using later
      · cases pushed

end Stacked

variable {conditions : List (Condition α)}

/-- A list that is read as a tree is the part that the tree was read from, among blanks. -/
theorem exists_readFrom {tree : ConditionTree α} (read : ofPostfix conditions = .ok (some tree)) :
    ∃ before part after, conditions = before ++ part ++ after ∧ solid before = [] ∧
      solid after = [] ∧ ReadFrom before.length part tree := by
  unfold ofPostfix at read
  split at read
  any_goals cases read
  rename_i pushed
  have stacked := Stacked.empty.pushAll pushed
  cases stacked with
  | cons below read after =>
      cases below with
      | nil before => exact ⟨_, _, _, rfl, before, after, read⟩

theorem solid_of_ofPostfix {tree : ConditionTree α}
    (read : ofPostfix conditions = .ok (some tree)) : tree.toPostfix = solid conditions := by
  obtain ⟨before, part, after, rfl, beforeBlank, afterBlank, readFrom⟩ := exists_readFrom read
  simp [beforeBlank, afterBlank, readFrom.solid_eq]

theorem solid_eq_nil_of_ofPostfix (read : ofPostfix conditions = .ok none) :
    solid conditions = [] := by
  unfold ofPostfix at read
  split at read
  any_goals cases read
  rename_i pushed
  have stacked := Stacked.empty.pushAll pushed
  cases stacked with
  | nil blank => exact blank

theorem pushAll_blank (stack : List (ConditionTree α)) (position : Nat)
    (blank : solid conditions = []) : pushAll stack position conditions = .ok stack := by
  induction conditions generalizing position with
  | nil => rfl
  | cons entry rest induction =>
      cases entry with
      | noop => exact induction (position + 1) blank
      | unknown | operand | operator => cases blank

/-- Blanks around a single entry leave to the stack what the entry makes of it. -/
theorem pushAll_singleton {entry : Condition α} (alone : solid conditions = [entry])
    {stack after : List (ConditionTree α)} (position : Nat)
    (pushed : ∀ place, ∃ tree, push stack place entry = .ok (tree :: after)) :
    ∃ tree, pushAll stack position conditions = .ok (tree :: after) := by
  induction conditions generalizing position with
  | nil => cases alone
  | cons first rest induction =>
      cases first with
      | noop => exact induction alone (position + 1)
      | unknown | operand | operator =>
          obtain ⟨rfl, blank⟩ := List.cons.inj alone
          obtain ⟨tree, first⟩ := pushed position
          exact ⟨tree, by rw [pushAll, first]; exact pushAll_blank _ _ blank⟩

/-- An expression is read as one tree, wherever blanks stand in it. -/
theorem pushAll_of_isPostfix {entries : List (Condition α)} (given : IsPostfix entries)
    (same : solid conditions = entries) (stack : List (ConditionTree α)) (position : Nat) :
    ∃ tree, pushAll stack position conditions = .ok (tree :: stack) := by
  induction given generalizing conditions stack position with
  | unknown => exact pushAll_singleton same position fun place => ⟨_, rfl⟩
  | operand value => exact pushAll_singleton same position fun place => ⟨_, rfl⟩
  | negated given induction =>
      obtain ⟨first, last, rfl, inner, alone⟩ := List.filter_eq_append_iff.1 same
      obtain ⟨operand, read⟩ := induction inner stack position
      rw [Formula.pushAll_append, read]
      exact pushAll_singleton alone _ fun place => ⟨_, rfl⟩
  | @joined left right operator leftGiven rightGiven two leftInduction rightInduction =>
      obtain ⟨both, last, rfl, operands, alone⟩ := List.filter_eq_append_iff.1 same
      obtain ⟨first, second, rfl, lefts, rights⟩ := List.filter_eq_append_iff.1 operands
      obtain ⟨leftTree, leftRead⟩ := leftInduction lefts stack position
      obtain ⟨rightTree, rightRead⟩ :=
        rightInduction rights (leftTree :: stack) (position + first.length)
      rw [Formula.pushAll_append, Formula.pushAll_append, leftRead]
      dsimp only [Except.bind]
      rw [rightRead]
      refine pushAll_singleton alone _ fun place =>
        ⟨.binary leftTree.start place operator leftTree rightTree, ?_⟩
      cases operator <;> first | rfl | exact absurd rfl two

/--
A list is read if, without its blanks, it is empty or an expression in postfix
form. Each node of the tree that it is read as has the entries in its span for
its list, its own entry being the last of them; the spans of its children follow
each other before that entry.
-/
theorem ofPostfix_spec (conditions : List (Condition α)) :
    ((∃ read, ofPostfix conditions = .ok read) ↔
        solid conditions = [] ∨ IsPostfix (solid conditions)) ∧
      ∀ tree, ofPostfix conditions = .ok (some tree) →
        tree.toPostfix = solid conditions ∧
        ∀ node ∈ tree.nodes,
          solid (between node.start node.stop conditions) = node.toPostfix ∧
          conditions[node.stop]? = some node.entry ∧
          node.children.Pairwise (fun left right => left.stop < right.start) ∧
          ∀ child ∈ node.children,
            node.start ≤ child.start ∧ child.start ≤ child.stop ∧ child.stop < node.stop := by
  refine ⟨⟨?_, ?_⟩, fun tree read => ⟨solid_of_ofPostfix read, fun node member => ?_⟩⟩
  · rintro ⟨_ | tree, read⟩
    · exact .inl (solid_eq_nil_of_ofPostfix read)
    · obtain ⟨_, _, _, _, _, _, readFrom⟩ := exists_readFrom read
      exact .inr (solid_of_ofPostfix read ▸ readFrom.isPostfix)
  · rintro (blank | given)
    · exact ⟨none, by rw [ofPostfix, pushAll_blank [] 0 blank]⟩
    · obtain ⟨tree, read⟩ := pushAll_of_isPostfix given rfl [] 0
      exact ⟨some tree, by rw [ofPostfix, read]⟩
  · obtain ⟨before, part, after, rfl, _, _, readFrom⟩ := exists_readFrom read
    obtain ⟨earlier, own, later, rfl, nodeRead⟩ := readFrom.exists_part member
    have begins : node.start = (before ++ earlier).length := by
      rw [nodeRead.start_eq, List.length_append]
    have ends := nodeRead.stop_eq
    have split : before ++ (earlier ++ own ++ later) ++ after =
        (before ++ earlier) ++ own ++ (later ++ after) := by
      simp only [List.append_assoc]
    refine ⟨?_, ?_, nodeRead.children_spans⟩
    · rw [split, between_append _ own _ begins (by rw [ends, nodeRead.start_eq]),
        nodeRead.solid_eq]
    · obtain ⟨front, rfl⟩ := nodeRead.exists_entry
      have place : node.stop = (before ++ earlier ++ front).length := by
        simp only [List.length_append, List.length_singleton] at ends ⊢
        omega
      rw [split, place, ← List.append_assoc, List.append_assoc, List.append_assoc]
      simp

end ConditionTree

end ObjectQuery
