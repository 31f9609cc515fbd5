import ObjectQuery.Proofs.Compiler.Source
import ObjectQuery.Proofs.Compiler.Spelling
import ObjectQuery.Proofs.Grammar.Nesting

namespace ObjectQuery

/-!
A higher limit on nesting changes nothing but what the lower one forbids: it
lets more texts compile, and those that compiled compile to the same queries.
-/

theorem Session.alike_of_limits (limit also : Option Nat) :
    Session.Alike limit also { limit } { limit := also } :=
  ⟨rfl, rfl⟩

namespace CompileError

theorem Respelled.eq {spelling : Respelling} {error fault : CompileError}
    (exact : spelling.IsExact) (same : error.Respelled spelling fault) : error = fault := by
  cases same with
  | syntactic | internal => rfl
  | semantic same => cases same <;> simp_all [Respelling.Shows]

/-- The text, or the query in it, is nested deeper than is allowed. -/
def IsNesting (error : CompileError) : Prop :=
  (∃ cause : SyntaxError, cause.IsNesting ∧ error = .syntactic cause) ∨ error.IsTooDeep

end CompileError

namespace Query

variable {limit higher : Option Nat}

theorem ofText_of_atMost (atMost : AtMost limit higher) (text : String) :
    (∀ query, ofText text limit = .ok query → ofText text higher = .ok query) ∧
      ∀ error, ofText text limit = .error error →
        error.IsNesting ∨ ofText text higher = .error error := by
  have widens := Grammar.query_widens
  have within : Cursor.Within (.ofText text limit) (.ofText text higher) := .limit atMost
  unfold ofText
  cases run : Grammar.query (.ofText text limit) with
  | ok query after =>
      obtain ⟨_, last, runToo, rfl, _⟩ := Step.Parallel.of_ok widens within run
      rw [runToo]
      exact ⟨fun _ same => same, fun _ impossible => by cases impossible⟩
  | error error after =>
      refine ⟨fun _ impossible => (by cases impossible), ?_⟩
      rintro _ ⟨⟩
      refine (Step.Parallel.of_error widens within run).imp_right ?_
      rintro ⟨_, last, runToo, rfl⟩
      rw [runToo]

theorem compile_widens (atMost : AtMost limit higher) (query : Query) :
    (∀ result, query.compile limit = .ok result → query.compile higher = .ok result) ∧
      ∀ error, query.compile limit = .error error →
        error.IsTooDeep ∨ query.compile higher = .error error := by
  have likeness := likeness_eq Respelling.isExact_exact
  have compiles : Compilation.Alike .exact limit higher (query.compileNested .primary 1 none)
      (query.compileNested .primary 1 none) _ :=
    compileNested_alike likeness atMost .primary 1 .none rfl
  have begins := Session.alike_of_limits limit higher
  unfold compile
  cases run : query.compileNested .primary 1 none { limit } with
  | ok result after =>
      obtain ⟨also, _, runToo, ⟨queries, _⟩, ⟨_, rfl⟩⟩ := compiles.of_ok begins run
      rw [runToo]
      obtain ⟨compiled, around⟩ := result
      obtain ⟨_, aroundToo⟩ := also
      cases queries
      exact ⟨fun _ same => same, fun _ impossible => by cases impossible⟩
  | error error after =>
      refine ⟨fun _ impossible => (by cases impossible), ?_⟩
      rintro _ ⟨⟩
      refine (compiles.of_error begins run).imp And.right ?_
      rintro ⟨fault, last, runToo, same⟩
      rw [runToo, same.eq Respelling.isExact_exact]

/-- The compiled query, had it been compiled at another date, and in another time. -/
def timed (date : Instant) (elapsedTime : Nat) (query : Query) : Query :=
  ⟨{ query.body with metadata := query.body.metadata.map ({ · with date, elapsedTime }) }⟩

end Query

namespace CompilerOptions

variable {limit higher : Option Nat}

theorem parse_of_atMost (options : CompilerOptions) (atMost : AtMost limit higher)
    (source : String) :
    (∀ query, { options with maxNesting := limit }.parse source = .ok query →
      { options with maxNesting := higher }.parse source = .ok query) ∧
      ∀ error, { options with maxNesting := limit }.parse source = .error error →
        error.IsNesting ∨ { options with maxNesting := higher }.parse source = .error error := by
  obtain ⟨succeeds, fails⟩ := Query.ofText_of_atMost atMost source
  have parses : (∀ query, (Query.ofText source limit).mapError CompileError.syntactic = .ok query →
      (Query.ofText source higher).mapError CompileError.syntactic = .ok query) ∧
      ∀ error, (Query.ofText source limit).mapError CompileError.syntactic = .error error →
        error.IsNesting ∨
          (Query.ofText source higher).mapError CompileError.syntactic = .error error := by
    cases run : Query.ofText source limit with
    | ok query => exact ⟨fun _ same => by rw [succeeds query run]; exact same,
        fun _ impossible => by cases impossible⟩
    | error error =>
        refine ⟨fun _ impossible => (by cases impossible), fun _ same => ?_⟩
        cases same
        refine (fails error run).imp (fun nesting => .inl ⟨error, nesting, rfl⟩) fun runToo => ?_
        rw [runToo]
        rfl
  unfold parse
  dsimp only
  cases options.maxLength with
  | none => exact parses
  | some bound =>
      dsimp only
      split
      · exact ⟨fun _ same => same, fun _ same => .inr same⟩
      · exact parses

theorem compile_of_atMost (options : CompilerOptions) (atMost : AtMost limit higher)
    (source : String) (date later : Instant) (elapsedTime laterTime : Nat) :
    (∀ query, { options with maxNesting := limit }.compile source date elapsedTime = .ok query →
      { options with maxNesting := higher }.compile source later laterTime =
        .ok (query.timed later laterTime)) ∧
      ∀ error, { options with maxNesting := limit }.compile source date elapsedTime = .error error →
        ¬error.IsNesting →
        { options with maxNesting := higher }.compile source later laterTime = .error error := by
  obtain ⟨parses, fails⟩ := options.parse_of_atMost atMost source
  unfold compile
  cases parsed : { options with maxNesting := limit }.parse source with
  | error error =>
      refine ⟨fun _ impossible => (by cases impossible), fun _ same shallow => ?_⟩
      cases same
      rw [(fails error parsed).resolve_left shallow]
      rfl
  | ok query =>
      obtain ⟨compiles, fails⟩ := query.compile_widens atMost
      rw [parses query parsed, Except.ok_bind, Except.ok_bind]
      dsimp only
      cases run : query.compile limit with
      | ok result =>
          refine ⟨fun _ same => ?_, fun _ impossible => (by cases impossible)⟩
          cases same
          rw [compiles result run]
          rfl
      | error error =>
          refine ⟨fun _ impossible => (by cases impossible), fun _ same shallow => ?_⟩
          cases same
          rw [(fails error run).resolve_left fun deep => shallow (.inr deep)]
          rfl

def contactsInBrackets : String :=
  "SELECT Id, (SELECT Name FROM Contacts) FROM Account WHERE (Name = 'a')"

def qualifiedObject : String :=
  "SELECT Id FROM Account.Contacts WHERE (Name = 'a')"

theorem compile_of_contactsInBrackets :
    (∃ query, { maxNesting := some 2 : CompilerOptions }.compile contactsInBrackets = .ok query ∧
      { maxNesting := none : CompilerOptions }.compile contactsInBrackets ⟨60, 0⟩ 7 =
        .ok (query.timed ⟨60, 0⟩ 7)) ∧
      { maxNesting := none : CompilerOptions }.compile qualifiedObject ⟨60, 0⟩ 7 =
        .error (.semantic (.qualifiedPrimaryObject "Account.Contacts")) := by
  have atMost : AtMost (some 2) none := fun _ impossible => by cases impossible
  have succeeds : compilesTo { maxNesting := some 2 } contactsInBrackets (fun _ => true) = true := by
    decide +kernel
  have fails : failsWith { maxNesting := some 2 } qualifiedObject
      (· == .semantic (.qualifiedPrimaryObject "Account.Contacts")) = true := by
    decide +kernel
  obtain ⟨query, compiled, _⟩ := exists_of_compilesTo succeeds
  obtain ⟨error, failed, same⟩ := exists_of_failsWith fails
  cases eq_of_beq same
  have shallow : ¬(CompileError.semantic (.qualifiedPrimaryObject "Account.Contacts")).IsNesting := by
    rintro (⟨_, _, impossible⟩ | ⟨_, _, impossible⟩) <;> cases impossible
  exact ⟨⟨query, compiled, (compile_of_atMost {} atMost _ _ _ _ _).1 query compiled⟩,
    (compile_of_atMost {} atMost _ _ _ _ _).2 _ failed shallow⟩

end CompilerOptions

end ObjectQuery
