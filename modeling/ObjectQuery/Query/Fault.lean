import ObjectQuery.Condition.Tree
import ObjectQuery.Syntax.Error

namespace ObjectQuery

/-! Faults in queries: those of their authors, and those of the compiler itself. -/

/-- Why a function may not stand where it stands. -/
inductive CallPlace where
  | nested
  | conditional
  | aggregation
  deriving DecidableEq, Repr

namespace CallPlace

def description : CallPlace → String
  | nested => "nested function"
  | conditional => "conditional clause"
  | aggregation => "aggregation result"

end CallPlace

/-- What is wrong with the arguments of a function. -/
inductive ArgumentFault where
  | notOptional
  | notOne
  | notSingle
  | notName
  deriving DecidableEq, Repr

namespace ArgumentFault

def description : ArgumentFault → String
  | notOptional => "requires 0 or 1 parameter"
  | notOne => "requires 1 parameter"
  | notSingle => "requires a single parameter"
  | notName => "parameter must be a name"

end ArgumentFault

/-- The faults that keep a well-formed query from having a meaning. -/
inductive SemanticError where
  | qualifiedPrimaryObject (name : String)
  | duplicateObjectAlias (aliasName : String)
  | duplicateFieldAlias (aliasName : String)
  | ancestorSelection (field primary : String)
  | siblingSelection (field primary : String)
  | unregisteredObject (field primary : String)
  | ungroupedField (field : String)
  | havingWithoutGroupBy (primary : String)
  | functionNotAllowed (name : String) (place : CallPlace)
  | invalidArguments (name : String) (fault : ArgumentFault)
  | unknownFieldSetTarget (name : String)
  | ancestorNotFound (field : String)
  | duplicateGroupKey (field : String)
  | duplicateOrderKey (field : String)
  | nestingTooDeep (depth limit : Nat)
  deriving DecidableEq, Repr

namespace SemanticError

def message : SemanticError → String
  | qualifiedPrimaryObject name =>
      "The name of the primary object is qualified by the parent object name: " ++ name
  | duplicateObjectAlias aliasName => "Duplicate object alias name found: " ++ aliasName
  | duplicateFieldAlias aliasName => "Duplicate field alias name found: " ++ aliasName
  | ancestorSelection field primary =>
      "The ancestor object item is not allowed to be selected: " ++ field ++ " at " ++ primary
  | siblingSelection field primary =>
      "The siblings object item is not allowed to be selected: " ++ field ++ " at " ++ primary
  | unregisteredObject field primary =>
      "Unregistered object names are not allowed: " ++ field ++ " at " ++ primary
  | ungroupedField field => "The item must be included in a Group By clause: " ++ field
  | havingWithoutGroupBy primary => "Group by clause not found: " ++ primary
  | functionNotAllowed name place =>
      "The function name is not allowed in " ++ place.description ++ ": " ++ name
  | invalidArguments name fault => "Function '" ++ name ++ "()' " ++ fault.description
  | unknownFieldSetTarget name =>
      "Field set 'Fields()' parameter refers unknown object: " ++ name
  | ancestorNotFound field =>
      "An incorrect ancestor field of object referred to in the correlated subquery: " ++ field
  | duplicateGroupKey field => "Duplicate field found in Group by clause: " ++ field
  | duplicateOrderKey field => "Duplicate field found in Order by clause: " ++ field
  | nestingTooDeep depth limit =>
      "Query nesting is too deep: " ++ toString depth ++ " (max " ++ toString limit ++ ")"

end SemanticError

/-- The faults that no text of a query can cause. -/
inductive InternalError where
  | postfixList (fault : PostfixFault)
  | residualOperands (count : Nat)
  | noObjects (queryId : Nat)
  | noParent
  | nestingBound
  deriving DecidableEq, Repr

namespace InternalError

def message : InternalError → String
  | postfixList fault => fault.message
  | residualOperands count =>
      "The operand for the binary operator is missing in the Where clause of the " ++
        "post-process filter: n=" ++ toString count
  | noObjects queryId => "The query " ++ toString queryId ++ " has no from clause"
  | noParent => "The parent of a select subquery is missing"
  | nestingBound => "The queries are nested deeper than their height"

def render (error : InternalError) : String :=
  "[FATAL]Internal error: " ++ error.message

end InternalError

/-- Why a text is not compiled. -/
inductive CompileError where
  | syntactic (error : SyntaxError)
  | semantic (error : SemanticError)
  | internal (error : InternalError)
  deriving DecidableEq, Repr

end ObjectQuery
