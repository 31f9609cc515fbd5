import ObjectQuery.Compiler.Query
import ObjectQuery.Grammar.Statement

namespace ObjectQuery

/-! From the text of a query to the compiled query with its metadata. -/

/-- What a compiler is asked for. -/
structure CompilerOptions where
  /-- Brackets, and queries, that may be nested in each other. -/
  maxNesting : Option Nat := some Cursor.defaultLimit
  /-- Bytes that a text may take up. -/
  maxLength : Option Nat := none
  /-- The version of the format of compiled queries. -/
  version : String := "1.0"

namespace CompilerOptions

def parse (options : CompilerOptions) (source : String) : Except CompileError Query :=
  let parsed := (Query.ofText source options.maxNesting).mapError .syntactic
  match options.maxLength with
  | none => parsed
  | some limit =>
      if limit < source.utf8ByteSize then
        .error (.syntactic (.atStart (.sourceTooLong limit) source))
      else
        parsed

/-- The compiled query of a text. When and how long it was compiled is the caller's to tell. -/
def compile (options : CompilerOptions) (source : String) (date : Instant := .epoch)
    (elapsedTime : Nat := 0) : Except CompileError Query := do
  let parsed ← options.parse source
  let (query, metadata) ← parsed.compile options.maxNesting
  let metadata := { metadata with version := options.version, date, elapsedTime, source }
  return ⟨{ query.body with metadata := some metadata }⟩

end CompilerOptions

/-- The compiled query of a text, with the options that suit most texts. -/
def compile (source : String) : Except CompileError Query :=
  CompilerOptions.compile {} source

end ObjectQuery
