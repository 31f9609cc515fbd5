import ObjectQuery.Proofs.Compiler.Trace

namespace ObjectQuery

/-!
What objects decide of conditions, and how their rows are joined for that. What
an object decides is a condition again, all of which the object can decide.
-/

namespace Field

/-- A column of the object with the path, letter case aside, or a constant. -/
def IsOwn (path : Path) (field : Field Query) : Prop :=
  (∃ own, field.kind = .column own ∧ own.parent.same path = true) ∨ field.IsConstant

theorem isOwn_iff {path : Path} {field : Field Query} :
    field.IsOwn path ↔ field.isReadBy path = true := by
  rw [IsOwn, isReadBy_iff, belongsTo_iff]

end Field

namespace CompilerOptions

variable {options : CompilerOptions} {source : String} {date : Instant} {elapsedTime : Nat}
  {query : Query}

theorem joinsFiltered_of_compile
    (compiled : options.compile source date elapsedTime = .ok query) :
    query.Throughout Statement.JoinsFiltered := by
  obtain ⟨_, _, along⟩ := traces_of_compile compiled
  exact along.throughout fun _ _ traces => traces.joins

end CompilerOptions

/--
Of any condition, an object decides nothing if it is out of reach, and all of it
if its operands are columns of the object and constants. There is nothing else in
what it decides, which is an expression again, and one that the object decides
as a whole: conditions are read as trees that join two operands where there are
two. The rows of an object are joined inside only if it has conditions.
-/
theorem ConditionTree.shareOf_decides (tree : ConditionTree (Field Query)) (path : Path) :
    ((tree.shareOf path).2 = [] ↔ (tree.shareOf path).1 = .unknown) ∧
    Condition.Over (Field.IsOwn path) (tree.shareOf path).2 ∧
    ((tree.shareOf path).1 = .known ↔
      ∀ content ∈ tree.leaves, ∃ field, content = .operand field ∧ field.IsOwn path) ∧
    ((tree.shareOf path).1 = .known → (tree.shareOf path).2 = tree.toPostfix) ∧
    (tree.IsProper → (tree.shareOf path).1 ≠ .unknown →
      Condition.IsPostfix (tree.shareOf path).2 ∧
      ∃ again, ofPostfix (tree.shareOf path).2 = .ok (some again) ∧
        again.shareOf path = (.known, (tree.shareOf path).2)) ∧
    (∀ conditions, ofPostfix conditions = .ok (some tree) → tree.IsProper) ∧
    ∀ (options : CompilerOptions) (source : String) (date : Instant) (elapsedTime : Nat)
      (query : Query), options.compile source date elapsedTime = .ok query →
      ∀ inner, query.Reaches inner → ∀ object ∈ inner.body.objects,
        object.innerJoin = true → object.hasConditions = true := by
  have within := tree.over_share (Field.isReadBy path)
  have known : (tree.shareOf path).1 = .known ↔ tree.Decides (Field.isReadBy path) := by
    rw [shareOf, fst_share]
    exact tree.reach_eq_known_iff _
  refine ⟨?_, ?_, ?_, fun decided => ?_, fun proper decided => ?_,
    fun conditions => isProper_of_ofPostfix, ?_⟩
  · rw [shareOf, share_eq_nil_iff, fst_share]
  · exact within.mono fun field => Field.isOwn_iff.2
  · simp only [known, Decides, Field.isOwn_iff]
  · rw [shareOf, fst_share] at decided
    exact share_eq_toPostfix decided
  · rw [shareOf, fst_share] at decided
    have expression := isPostfix_share proper decided
    exact ⟨expression, exists_share_eq expression within⟩
  · intro options source date elapsedTime query compiled inner reaches
    exact Query.throughout_iff.1 (CompilerOptions.joinsFiltered_of_compile compiled) inner reaches

namespace CompilerOptions

/-- Accounts decide the first condition alone, and nothing of the second. -/
def joinedAccounts : String :=
  "SELECT Id FROM Contact, Contact.Account " ++
    "WHERE Account.Name = 'x' AND (LastName = 'y' OR Contact.Account.Name = LastName)"

def decidesPartly (path : Path) (query : Query) : Bool :=
  match ConditionTree.ofPostfix query.body.filter with
  | .ok (some tree) => (tree.shareOf path).1 == .partly
  | _ => false

theorem exists_of_decidesPartly {path : Path} {query : Query}
    (decides : decidesPartly path query = true) :
    ∃ tree, ConditionTree.ofPostfix query.body.filter = .ok (some tree) ∧
      (tree.shareOf path).1 = .partly := by
  unfold decidesPartly at decides
  split at decides
  · exact ⟨_, ‹_›, eq_of_beq decides⟩
  · cases decides

theorem shareOf_decides_joinedAccounts :
    ∃ query tree, compile {} joinedAccounts = .ok query ∧
      ConditionTree.ofPostfix query.body.filter = .ok (some tree) ∧
      (∃ again,
        ConditionTree.ofPostfix (tree.shareOf ["Contact", "Account"]).2 = .ok (some again) ∧
          again.shareOf ["Contact", "Account"] =
            (.known, (tree.shareOf ["Contact", "Account"]).2)) ∧
      ∃ object ∈ query.body.objects, object.innerJoin = true ∧ object.hasConditions = true := by
  have run : compilesTo {} joinedAccounts (fun query =>
      decidesPartly ["Contact", "Account"] query && query.body.objects.any (·.innerJoin)) =
        true := by
    decide +kernel
  obtain ⟨query, compiled, holds⟩ := exists_of_compilesTo run
  obtain ⟨partly, joined⟩ := (Bool.and_eq_true _ _).mp holds
  obtain ⟨tree, read, reach⟩ := exists_of_decidesPartly partly
  obtain ⟨object, member, inner⟩ := List.any_eq_true.1 joined
  obtain ⟨_, _, _, _, again, proper, joins⟩ := tree.shareOf_decides ["Contact", "Account"]
  refine ⟨query, tree, compiled, read, ?_, object, member, inner, ?_⟩
  · exact (again (proper _ read) (by rw [reach]; decide)).2
  · exact joins {} _ _ _ query compiled query (.self query) object member inner

end CompilerOptions

end ObjectQuery
