import ObjectQuery.Calendar.Timestamp
import ObjectQuery.Text.Unprintable
import ObjectQuery.Wire.Json

namespace ObjectQuery

/-! What can be wrong with a document that should hold a query. -/

/-- A value as it is named in a complaint. -/
inductive Found where
  | null
  | bool (value : Bool)
  | int (value : Int)
  | float (value : Float)
  | text (value : String)
  | list
  | record

namespace Found

def hexText (number : Nat) : String :=
  String.ofList (Nat.toDigits 16 number)

def escaped (char : Char) : List Char :=
  match char with
  | '"' => ['\\', '"']
  | '\\' => ['\\', '\\']
  | '\n' => ['\\', 'n']
  | '\r' => ['\\', 'r']
  | '\t' => ['\\', 't']
  | '\x00' => ['\\', '0']
  | _ =>
      if isUnprintable char then
        '\\' :: 'u' :: '\x7b' :: (hexText char.toNat).toList ++ ['\x7d']
      else
        [char]

def description : Found → String
  | null => "null"
  | bool value => "boolean `" ++ (if value then "true" else "false") ++ "`"
  | int value => "integer `" ++ toString value ++ "`"
  | float value => "floating point `" ++ Json.floatText value ++ "`"
  | text value => "string \"" ++ String.ofList (value.toList.flatMap escaped) ++ "\""
  | list => "sequence"
  | record => "map"

end Found

/-- Why a sound document holds no query. -/
inductive Misfit where
  | wrongType (found : Found) (expected : String)
  | wrongValue (found : Found) (expected : String)
  | missingMember (name : String)
  | repeatedMember (name : String)
  | unknownMember (name : String) (known : List String)
  /-- A member that cannot be read before another. -/
  | earlyMember (name needed : String)
  | unknownFieldType (name : String)
  | unknownOperator (name : String)
  | valueOfOperator
  | valueOfType (typeName : String)
  | itemOfType (typeName : String)
  | badInstant (text : String) (fault : TimestampFault)
  | badDate (fault : TimestampFault)

namespace Misfit

def oneOf (names : List String) : String :=
  let quoted := names.map fun name => "`" ++ name ++ "`"
  match quoted with
  | [] => "nothing"
  | [name] => name
  | [first, second] => first ++ " or " ++ second
  | _ => "one of " ++ ", ".intercalate quoted

def message : Misfit → String
  | wrongType found expected =>
      "invalid type: " ++ found.description ++ ", expected " ++ expected
  | wrongValue found expected =>
      "invalid value: " ++ found.description ++ ", expected " ++ expected
  | missingMember name => "missing field `" ++ name ++ "`"
  | repeatedMember name => "duplicate field `" ++ name ++ "`"
  | unknownMember name known => "unknown field `" ++ name ++ "`, expected " ++ oneOf known
  | earlyMember name needed => "'" ++ name ++ "' arrived before '" ++ needed ++ "'"
  | unknownFieldType name => "unknown field type: " ++ name
  | unknownOperator name => "unknown opcode: " ++ name
  | valueOfOperator => "only a FieldInfo condition carries a value"
  | valueOfType typeName => "a " ++ typeName ++ " node has no value"
  | itemOfType typeName => "a list cannot hold a " ++ typeName ++ " item"
  | badInstant text fault => "invalid date '" ++ text ++ "': " ++ fault.message
  | badDate fault => fault.message

end Misfit

/-- Why a document cannot be read. -/
inductive WireError where
  /-- The document goes wrong on a line. -/
  | malformed (line : Nat)
  | misfit (fault : Misfit)

end ObjectQuery
