import Mathlib.Logic.Relation
import ObjectQuery.Proofs.Resolution.Confluence

namespace ObjectQuery

/-!
Walks along paths turn by turn, whose number nothing bounds from outside. No walk
goes on for ever, whatever the names stand for.
-/

namespace Scope

variable {Q : Type} {registers : Bool}

/-- Where a walk stands, `index` being the last position of the beginning it looks at next. -/
structure Stage (Q : Type) where
  index : Nat
  path : Path
  scope : Scope Q

/--
A turn of a walk, which looks at one beginning of the path. There is none at the
end of the path, or before an object that may not be registered.
-/
inductive Turn (registers : Bool) : Stage Q → Stage Q → Prop where
  | replace {index : Nat} {path qualified : Path} {scope : Scope Q}
      (inside : index + 1 < path.length)
      (found : scope.aliases.find? (Path.key (path.take (index + 1))) = some qualified) :
      Turn registers ⟨index, path, scope⟩
        ⟨index + 1, qualified ++ path.drop (index + 1), scope⟩
  | register {index : Nat} {path : Path} {scope : Scope Q} (inside : index + 1 < path.length)
      (unknown : scope.aliases.find? (Path.key (path.take (index + 1))) = none)
      (allowed : registers = true) :
      Turn registers ⟨index, path, scope⟩
        ⟨index + 1, path, scope.register (path.take (index + 1))⟩

namespace Stage

/-- The turns of a walk lead from one stage to another, from which there is no turn. -/
def Ends (registers : Bool) (start last : Stage Q) : Prop :=
  Relation.ReflTransGen (Turn registers) start last ∧ ∀ next, ¬Turn registers last next

/-- What a walk comes to that has no turn left. -/
def outcome (last : Stage Q) : Option (Path × Scope Q) :=
  if last.index + 1 < last.path.length then none else some (last.path, last.scope)

/-- What the turns of a walk use up. -/
def slack (stage : Stage Q) : Nat :=
  Scope.slack stage.index stage.path stage.scope.aliases

theorem slack_lt {before after : Stage Q} (turn : Turn registers before after) :
    after.slack < before.slack := by
  cases turn with
  | replace inside found => exact slack_replace_lt inside found
  | register inside unknown allowed => exact slack_register_lt _ inside

theorem Ends.of_turn {start middle last : Stage Q} (turn : Turn registers start middle)
    (ends : middle.Ends registers last) : start.Ends registers last :=
  ⟨.head turn ends.1, ends.2⟩

/-- A walk that may register objects ends nowhere but at the end of its path. -/
theorem outcome_of_registers {last : Stage Q} (final : ∀ next, ¬Turn true last next) :
    last.outcome = some (last.path, last.scope) := by
  refine if_neg fun inside => ?_
  cases found : last.scope.aliases.find? (Path.key (last.path.take (last.index + 1))) with
  | some qualified => exact final _ (.replace inside found)
  | none => exact final _ (.register inside found rfl)

end Stage

theorem wellFounded_turn (registers : Bool) :
    WellFounded fun after before : Stage Q => Turn registers before after :=
  Subrelation.wf Stage.slack_lt (measure Stage.slack).wf

theorem walkWithin_of_turn {before after : Stage Q} (turn : Turn registers before after)
    (steps : Nat) :
    walkWithin registers (steps + 1) before.index before.path before.scope =
      walkWithin registers steps after.index after.path after.scope := by
  cases turn with
  | replace inside found =>
      rw [walkWithin, if_pos inside]
      simp only [found]
  | register inside unknown allowed =>
      rw [walkWithin, if_pos inside]
      simp only [unknown, allowed, if_true]

theorem walkWithin_of_final {last : Stage Q} (final : ∀ next, ¬Turn registers last next)
    (steps : Nat) :
    walkWithin registers (steps + 1) last.index last.path last.scope =
      last.outcome.elim .unregistered fun arrival => .arrived arrival.1 arrival.2 := by
  unfold walkWithin Stage.outcome
  by_cases inside : last.index + 1 < last.path.length
  · rw [if_pos inside, if_pos inside]
    dsimp only
    cases found : last.scope.aliases.find? (Path.key (last.path.take (last.index + 1))) with
    | some qualified => exact absurd (.replace inside found) (final _)
    | none =>
        have refuses : ¬registers = true := fun allowed =>
          final _ (.register inside found allowed)
        simp only [if_neg refuses, Option.elim_none]
  · rw [if_neg inside, if_neg inside]
    rfl

/-- Where the steps suffice, the walk is the one whose turns are not counted. -/
theorem exists_ends_walkWithin {steps : Nat} {stage : Stage Q} (enough : stage.slack < steps) :
    ∃ last, stage.Ends registers last ∧
      walkWithin registers steps stage.index stage.path stage.scope =
        last.outcome.elim .unregistered fun arrival => .arrived arrival.1 arrival.2 := by
  induction steps generalizing stage with
  | zero => omega
  | succ steps induction =>
      by_cases final : ∀ next, ¬Turn registers stage next
      · exact ⟨stage, ⟨.refl, final⟩, walkWithin_of_final final steps⟩
      · obtain ⟨next, turn⟩ := not_forall_not.1 final
        -- Each turn uses up some of the slack, so that the steps outlast the turns.
        have fewer : next.slack < steps :=
          Nat.lt_of_lt_of_le (Stage.slack_lt turn) (Nat.le_of_lt_succ enough)
        obtain ⟨last, ends, same⟩ := induction fewer
        exact ⟨last, ends.of_turn turn, (walkWithin_of_turn turn steps).trans same⟩

theorem exists_ends_walk (registers : Bool) (path : Path) (scope : Scope Q) :
    ∃ last, Stage.Ends registers ⟨0, path, scope⟩ last ∧
      scope.walk registers path = last.outcome := by
  have enough : Stage.slack ⟨0, path, scope⟩ < walkBound scope.aliases path :=
    slack_lt_walkBound scope.aliases path
  obtain ⟨last, ends, same⟩ := exists_ends_walkWithin enough
  refine ⟨last, ends, ?_⟩
  rw [walk, same]
  cases last.outcome <;> rfl

theorem qualify_run (registers : Bool) (path : Path) (scope : Scope Q) :
    qualify registers path scope =
      match scope.aliases.find? (Path.key (scope.started path).parent),
        scope.walk registers (scope.route path) with
      | some object, _ => .ok (object ++ (scope.started path).getLast?.toList) scope
      | none, some (reached, after) => .ok
          ((after.aliases.find? (Path.key reached.parent)).getD reached.parent ++
            reached.getLast?.toList) after
      | none, none =>
          .error (.unregisteredObject path.render scope.primary.render) scope := by
  have here (next : Scope Q → Resolver Q Path) :
      ((get : Resolver Q (Scope Q)) >>= next) scope = next scope scope := rfl
  rw [qualify, here]
  cases known : scope.aliases.find? (Path.key (scope.started path).parent) with
  | some object =>
      rw [started] at known
      simp only [known]
      rfl
  | none =>
      rw [started] at known
      simp only [known]
      cases walked : scope.walk registers (scope.route path) with
      | none =>
          rw [route, started] at walked
          simp only [walked]
          rfl
      | some arrival =>
          rw [route, started] at walked
          simp only [walked]
          rfl

/--
Whatever names stand for, no walk goes on for ever. An object gets the path at which
its walk ends, and a column what the walk along its route ends with, unless its
object is known by its path already.
-/
theorem walks_end (scope : Scope Q) :
    (∀ registers, WellFounded fun after before : Stage Q => Turn registers before after) ∧
    (∀ object : SourceObject Q, ∃ last,
      Stage.Ends true ⟨0, scope.expandFirst object.path, scope⟩ last ∧
      scope.resolveObject object = ({ object with path := last.path, key := last.path.key },
        last.scope.nameObject last.path object.aliasName)) ∧
    ∀ registers path, ∃ last,
      Stage.Ends registers ⟨0, scope.route path, scope⟩ last ∧
      qualify registers path scope =
        match scope.aliases.find? (Path.key (scope.started path).parent), last.outcome with
        | some object, _ => .ok (object ++ (scope.started path).getLast?.toList) scope
        | none, some (reached, after) => .ok
            ((after.aliases.find? (Path.key reached.parent)).getD reached.parent ++
              reached.getLast?.toList) after
        | none, none =>
            .error (.unregisteredObject path.render scope.primary.render) scope := by
  refine ⟨wellFounded_turn, fun object => ?_, fun registers path => ?_⟩
  · obtain ⟨last, ends, arrives⟩ := exists_ends_walk true (scope.expandFirst object.path) scope
    rw [Stage.outcome_of_registers ends.2] at arrives
    exact ⟨last, ends, resolveObject_eq arrives⟩
  · obtain ⟨last, ends, same⟩ := exists_ends_walk registers (scope.route path) scope
    exact ⟨last, ends, same ▸ qualify_run registers path scope⟩

/-- A name with a dot stands for a beginning of one segment, and then for one of two. -/
example : (walk true ["a.b", "x"]
    (⟨[], .ofList [("a.b", ["a", "b", "c"])], false, {}⟩ : Scope Unit)).map (·.1) =
      some ["a", "b", "c", "c", "x"] := by
  decide +kernel

end Scope

end ObjectQuery
