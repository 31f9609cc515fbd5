namespace ObjectQuery

/-! What can be wrong with a text, and how each fault is worded. -/

/-- The clauses of a statement that report faults of their own. -/
inductive Clause
  | objects
  | filter
  | groupBy
  | having
  | orderBy
  | offset
  | limit
  | access
  deriving DecidableEq, Repr

namespace Clause

def name : Clause → String
  | objects => "from"
  | filter => "where"
  | groupBy => "group by"
  | having => "having"
  | orderBy => "order by"
  | offset => "offset"
  | limit => "limit"
  | access => "for"

/-- The complaint about a text that does not fit the clause. -/
def complaint (clause : Clause) : String :=
  "Unexpected token aheads near by the '" ++ clause.name ++ "' clause"

end Clause

/-- The parts of a comparison. -/
inductive ComparisonPart
  | left
  | operator
  | right
  deriving DecidableEq, Repr

namespace ComparisonPart

def name : ComparisonPart → String
  | left => "operand1"
  | operator => "operator"
  | right => "operand2"

end ComparisonPart

/-- The cause of a syntax error. -/
inductive SyntaxFault
  | sourceTooLong (limit : Nat)
  | openComment
  | missingBlank
  | missingChar
  | nestedTooDeeply
  | badIdentifier
  | missingSegment
  | missingQuote
  | openQuote
  | quotedNewline
  | badEscape
  | badUnicodeEscape
  | badCodePoint
  | badInteger
  | badNumber
  | badMoment
  | missingCount
  | countOutOfRange
  | badParameter
  | missingOpening
  | missingClosing
  | missingListItem
  | badArgument
  | badSelectItem
  | badClause (clause : Clause)
  | badComparison (clause : Clause) (part : ComparisonPart)
  | missingSelect
  | missingObjects
  | trailingText
  deriving DecidableEq, Repr

namespace SyntaxFault

def message : SyntaxFault → String
  | sourceTooLong limit =>
      "The source exceeds the maximum length of " ++ toString limit ++ " bytes"
  | openComment => "An unexpected termination has appeared in the block comment."
  | missingBlank => "whitespace expected"
  | missingChar => "char expected"
  | nestedTooDeeply => "The expression is nested too deeply."
  | badIdentifier => "Invalid identifier"
  | missingSegment => "A name is expected after '.'"
  | missingQuote => "Invalid string value"
  | openQuote => "An unexpected termination has appeared in the string literal."
  | quotedNewline => "An unexpected newline has appeared in the string literal."
  | badEscape => "Invalid escape sequence in the string literal."
  | badUnicodeEscape => "Invalid unicode escape sequence in the string literal."
  | badCodePoint => "Invalid code point in the string literal."
  | badInteger => "Invalid integer literal"
  | badNumber => "Invalid number literal"
  | badMoment => "Invalid date/time literal"
  | missingCount => "A positive integer is expected after the date literal."
  | countOutOfRange => "The date literal count is out of range."
  | badParameter => "Invalid Parameter"
  | missingOpening => "'(' is expected"
  | missingClosing => "')' is expected"
  | missingListItem => "A literal value is expected in the list"
  | badArgument => "Unexpected token aheads near by the function arguments"
  | badSelectItem => "Unexpected token aheads near by the select clause (field list)"
  | badClause clause => clause.complaint
  | badComparison clause part => clause.complaint ++ " (unknown " ++ part.name ++ ")"
  | missingSelect => "The 'select' keyword is expected"
  | missingObjects => "The 'from' clause is expected"
  | trailingText => "Unexpected token aheads"

end SyntaxFault

end ObjectQuery
