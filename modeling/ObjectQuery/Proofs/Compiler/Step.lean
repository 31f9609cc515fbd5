import ObjectQuery.Numbering.Session
import ObjectQuery.Proofs.Step

namespace ObjectQuery

/-! Steps of a compilation: how they may fail, and what they keep of a session. -/

/-- The author of the query is to blame, not the compiler. -/
def CompileError.IsSemantic (error : CompileError) : Prop :=
  ∃ cause, error = .semantic cause

/-- What a compilation knows of the queries that it numbered. -/
structure Tally where
  nextQueryId : Nat
  maxQueryDepth : Nat
  queryGraph : SortedMap Nat QueryNode
  limit : Option Nat

namespace Tally

/-- What is known after one more query is numbered. -/
def register (tally : Tally) (node : QueryNode) : Tally where
  nextQueryId := tally.nextQueryId + 1
  maxQueryDepth := max tally.maxQueryDepth node.depth
  queryGraph := tally.queryGraph.insert tally.nextQueryId node
  limit := tally.limit

end Tally

namespace Session

def tally (session : Session) : Tally where
  nextQueryId := session.nextQueryId
  maxQueryDepth := session.maxQueryDepth
  queryGraph := session.queryGraph
  limit := session.limit

/-- The queries that are numbered and the places of columns stay as they are. -/
structure Kept (before after : Session) : Prop where
  tally : after.tally = before.tally
  indexes : after.registry.columnIndexes = before.registry.columnIndexes

end Session

namespace Compilation

open Step

variable {α : Type} {before : Session} {allowed : CompileError → Prop}

/-- A step apart goes on from other numbers for keys, which are forgotten after it. -/
theorem apart_meets {registry : Registry} {step : Compilation α}
    {property : α → Session → Prop} (meets : Meets step { before with registry } property allowed) :
    Meets (apart registry step) before
      (fun value after => ∃ inner, property value inner ∧
        after = { inner with registry := before.registry }) allowed := by
  unfold Meets at meets ⊢
  unfold apart
  cases run : step { before with registry } with
  | ok value inner =>
      rw [run] at meets
      exact ⟨inner, meets, rfl⟩
  | error error inner =>
      rw [run] at meets
      exact meets

theorem ofExcept_meets {result : Except CompileError α} (before : Session)
    (fails : ∀ error, result = .error error → allowed error) :
    Meets (ofExcept result) before (fun value after => result = .ok value ∧ after = before)
      allowed := by
  cases result with
  | ok value => exact ⟨rfl, rfl⟩
  | error error => exact fails error rfl

end Compilation

end ObjectQuery
