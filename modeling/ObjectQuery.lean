import ObjectQuery.Collection.SortedMap
import ObjectQuery.Compiler.Source
import ObjectQuery.Condition.Basic
import ObjectQuery.Condition.Tree
import ObjectQuery.Decimal.Layout
import ObjectQuery.Grammar.Statement
import ObjectQuery.Lexical.Quoted
import ObjectQuery.Numbering.Column
import ObjectQuery.Numbering.Session
import ObjectQuery.Numbering.View
import ObjectQuery.Plan.ColumnIndex
import ObjectQuery.Plan.PerObject
import ObjectQuery.Plan.Residual
import ObjectQuery.Proofs.Compiler.Alias
import ObjectQuery.Proofs.Compiler.Correlation
import ObjectQuery.Proofs.Compiler.Crossing
import ObjectQuery.Proofs.Compiler.Depth
import ObjectQuery.Proofs.Compiler.Encoding
import ObjectQuery.Proofs.Compiler.Graph
import ObjectQuery.Proofs.Compiler.Grouping
import ObjectQuery.Proofs.Compiler.Identity
import ObjectQuery.Proofs.Compiler.Isolation
import ObjectQuery.Proofs.Compiler.Join
import ObjectQuery.Proofs.Compiler.Mention
import ObjectQuery.Proofs.Compiler.Naming
import ObjectQuery.Proofs.Compiler.Nesting
import ObjectQuery.Proofs.Compiler.Numbering
import ObjectQuery.Proofs.Compiler.Parent
import ObjectQuery.Proofs.Compiler.Residual
import ObjectQuery.Proofs.Compiler.Single
import ObjectQuery.Proofs.Condition.Span
import ObjectQuery.Proofs.Grammar.Comment
import ObjectQuery.Proofs.Grammar.Located
import ObjectQuery.Proofs.Grammar.Precedence
import ObjectQuery.Proofs.Grammar.Quoted
import ObjectQuery.Proofs.Grammar.RoundTrip
import ObjectQuery.Proofs.Lexical.Integer
import ObjectQuery.Proofs.Plan.Decomposition
import ObjectQuery.Proofs.Resolution.Confluence
import ObjectQuery.Proofs.Resolution.Implicit
import ObjectQuery.Proofs.Resolution.Turn
import ObjectQuery.Proofs.Resolution.Unselected
import ObjectQuery.Proofs.Wire.Query
import ObjectQuery.Query.Display
import ObjectQuery.Query.Fault
import ObjectQuery.Query.Field
import ObjectQuery.Query.Fold
import ObjectQuery.Resolution.Field
import ObjectQuery.Resolution.Grouping
import ObjectQuery.Resolution.Scope
import ObjectQuery.Resolution.Source
import ObjectQuery.Resolution.Statement
import ObjectQuery.Syntax.Parser
import ObjectQuery.Text.Unprintable
import ObjectQuery.Wire.Decode
import ObjectQuery.Wire.Document
import ObjectQuery.Wire.Encode
import ObjectQuery.Wire.Reader
