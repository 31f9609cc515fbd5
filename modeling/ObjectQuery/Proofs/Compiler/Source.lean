import ObjectQuery.Compiler.Source
import ObjectQuery.Proofs.Compiler.Query
import ObjectQuery.Proofs.Grammar.Statement
import ObjectQuery.Proofs.Step

namespace ObjectQuery

/-! From the text of a query to what is known of it when it is compiled. -/

namespace CompilerOptions

variable {outcome : Query.Outcome} {given : Statement Query → Prop} {options : CompilerOptions}
  {source : String} {date : Instant} {elapsedTime : Nat} {query : Query}

/-- What holds of every query that compiles holds of the query of a text. -/
theorem outcome_of_compile (read : ∀ statement, given statement → statement.Parsed)
    (closed : ∀ {site statement before result around after}, given statement →
      Query.Compiled outcome site statement before result around after →
        outcome site statement before result around after)
    (holds : ∀ parsed, options.parse source = .ok parsed → parsed.Throughout given)
    (compiled : options.compile source date elapsedTime = .ok query) :
    ∃ parsed around after body, options.parse source = .ok parsed ∧
      outcome .root parsed.body { limit := options.maxNesting } body around after ∧
      query = ⟨{ body with metadata := some { after.metadata with
        version := options.version, date, elapsedTime, source } }⟩ := by
  unfold compile at compiled
  obtain ⟨parsed, parses, rest⟩ := Except.bind_eq_ok_iff.1 compiled
  obtain ⟨⟨⟨body⟩, metadata⟩, run, result⟩ := Except.bind_eq_ok_iff.1 rest
  cases result
  obtain ⟨around, after, holds, rfl⟩ :=
    Query.outcome_of_compile read closed (holds parsed parses) run
  exact ⟨parsed, around, after, body, parses, holds, rfl⟩

/-- No text leads to a failure of the compiler itself. -/
theorem compile_ok_or_syntactic_or_semantic (options : CompilerOptions) (source : String)
    (date : Instant) (elapsedTime : Nat) :
    (∃ query, options.compile source date elapsedTime = .ok query) ∨
      (∃ cause, options.compile source date elapsedTime = .error (.syntactic cause)) ∨
        ∃ cause, options.compile source date elapsedTime = .error (.semantic cause) := by
  unfold compile
  cases parses : options.parse source with
  | error error =>
      obtain ⟨cause, rfl⟩ := exists_syntactic_of_parse parses
      exact .inr (.inl ⟨cause, rfl⟩)
  | ok parsed =>
      cases run : parsed.compile options.maxNesting with
      | error error =>
          obtain ⟨cause, rfl⟩ := Query.isSemantic_of_compile (parsed_of_parse parses) run
          exact .inr (.inr ⟨cause, by rw [Except.ok_bind, run]; rfl⟩)
      | ok result => exact .inl ⟨_, by rw [Except.ok_bind, run]; rfl⟩

/-- The text parses, to a query that passes a test. -/
def parsesTo (options : CompilerOptions) (source : String) (test : Query → Bool) : Bool :=
  match options.parse source with
  | .ok query => test query
  | .error _ => false

theorem exists_of_parsesTo {test : Query → Bool} (run : options.parsesTo source test = true) :
    ∃ query, options.parse source = .ok query ∧ test query = true := by
  unfold parsesTo at run
  split at run
  · exact ⟨_, ‹_›, run⟩
  · cases run

/-- The text compiles, to a query that passes a test. -/
def compilesTo (options : CompilerOptions) (source : String) (test : Query → Bool) : Bool :=
  match options.compile source with
  | .ok query => test query
  | .error _ => false

theorem exists_of_compilesTo {test : Query → Bool}
    (run : options.compilesTo source test = true) :
    ∃ query, options.compile source = .ok query ∧ test query = true := by
  unfold compilesTo at run
  split at run
  · exact ⟨_, ‹_›, run⟩
  · cases run

/-- The text does not compile, for a reason that passes a test. -/
def failsWith (options : CompilerOptions) (source : String) (test : CompileError → Bool) : Bool :=
  match options.compile source with
  | .ok _ => false
  | .error error => test error

theorem exists_of_failsWith {test : CompileError → Bool}
    (run : options.failsWith source test = true) :
    ∃ error, options.compile source = .error error ∧ test error = true := by
  unfold failsWith at run
  split at run
  · cases run
  · exact ⟨_, ‹_›, run⟩

end CompilerOptions

end ObjectQuery
