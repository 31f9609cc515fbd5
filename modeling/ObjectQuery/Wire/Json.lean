import ObjectQuery.Decimal.Layout

namespace ObjectQuery

/-! JSON values and their text, on one line or indented. -/

/-- A JSON value. Whole numbers and fractions are kept apart, and so is the order of members. -/
inductive Json where
  | null
  | bool (value : Bool)
  | int (value : Int)
  | float (value : Float)
  | text (value : String)
  | list (items : List Json)
  | record (members : List (String × Json))

namespace Json

def hexDigit (number : Nat) : Char :=
  "0123456789abcdef".toList.getD number '0'

def escaped (char : Char) : List Char :=
  match char with
  | '"' => ['\\', '"']
  | '\\' => ['\\', '\\']
  | '\x08' => ['\\', 'b']
  | '\x0c' => ['\\', 'f']
  | '\n' => ['\\', 'n']
  | '\r' => ['\\', 'r']
  | '\t' => ['\\', 't']
  | _ =>
      if char.toNat < 0x20 then
        ['\\', 'u', '0', '0', hexDigit (char.toNat / 16), hexDigit (char.toNat % 16)]
      else
        [char]

def quote (text : String) : String :=
  String.ofList ('"' :: text.toList.flatMap escaped ++ ['"'])

/-- A float as a number; what no number stands for is refused before. -/
def floatText (value : Float) : String :=
  DecimalLayout.wire.render value

mutual

def render : Json → String
  | null => "null"
  | bool value => if value then "true" else "false"
  | int value => toString value
  | float value => floatText value
  | text value => quote value
  | list items => "[" ++ ",".intercalate (renderAll items) ++ "]"
  | record members => "\x7b" ++ ",".intercalate (renderMembers members) ++ "\x7d"

def renderAll : List Json → List String
  | [] => []
  | item :: rest => render item :: renderAll rest

def renderMembers : List (String × Json) → List String
  | [] => []
  | (name, value) :: rest => (quote name ++ ":" ++ render value) :: renderMembers rest

end

def lineStart (depth : Nat) : String :=
  "\n" ++ String.ofList (List.replicate (2 * depth) ' ')

/-- Lines between an opening and a closing mark; without lines the marks stand together. -/
def block (opening closing : String) (depth : Nat) : List String → String
  | [] => opening ++ closing
  | lines =>
      opening ++ lineStart (depth + 1) ++ ("," ++ lineStart (depth + 1)).intercalate lines ++
        lineStart depth ++ closing

mutual

/-- A value with a line for each item and each member. -/
def renderPretty (depth : Nat) : Json → String
  | null => "null"
  | bool value => if value then "true" else "false"
  | int value => toString value
  | float value => floatText value
  | text value => quote value
  | list items => block "[" "]" depth (renderPrettyAll (depth + 1) items)
  | record members => block "\x7b" "\x7d" depth (renderPrettyMembers (depth + 1) members)

def renderPrettyAll (depth : Nat) : List Json → List String
  | [] => []
  | item :: rest => renderPretty depth item :: renderPrettyAll depth rest

def renderPrettyMembers (depth : Nat) : List (String × Json) → List String
  | [] => []
  | (name, value) :: rest =>
      (quote name ++ ": " ++ renderPretty depth value) :: renderPrettyMembers depth rest

end

def nat (value : Nat) : Json :=
  int value

/-- A member that is left out where its value does not matter. -/
def member (present : Bool) (name : String) (value : Json) : List (String × Json) :=
  if present then [(name, value)] else []

/-- A member that is left out where there is no value. -/
def optional (name : String) (encode : α → Json) : Option α → List (String × Json)
  | none => []
  | some value => [(name, encode value)]

def nonempty (name : String) (items : List Json) : List (String × Json) :=
  member (!items.isEmpty) name (list items)

/-- A flag that is left out where it is not set. -/
def flag (name : String) (value : Bool) : List (String × Json) :=
  member value name (bool true)

end Json

end ObjectQuery
