import ObjectQuery.Wire.Document
import ObjectQuery.Wire.Json

namespace ObjectQuery

/-!
JSON values as documents show them. Both written forms of a value are one form
with different blanks between its parts.
-/

namespace Json

mutual

/-- The lists and records that are open at once in a value. -/
def depth : Json → Nat
  | list items => depthAll items + 1
  | record members => depthMembers members + 1
  | _ => 0

def depthAll : List Json → Nat
  | [] => 0
  | item :: rest => max item.depth (depthAll rest)

def depthMembers : List (String × Json) → Nat
  | [] => 0
  | (_, value) :: rest => max value.depth (depthMembers rest)

end

mutual

def Sound : Json → Prop
  | int value => Int64.minValue.toInt ≤ value ∧ value < UInt64.size
  | float value =>
      NumberToken.read (Place.ofText (floatText value)) = .ok (.float value, ⟨[], 1⟩)
  | list items => SoundAll items
  | record members => SoundMembers members
  | _ => True

def SoundAll : List Json → Prop
  | [] => True
  | item :: rest => item.Sound ∧ SoundAll rest

def SoundMembers : List (String × Json) → Prop
  | [] => True
  | (_, value) :: rest => value.Sound ∧ SoundMembers rest

end

def quoted (text : String) : List Char :=
  text.toList.flatMap escaped

mutual

/-- A part of a document shows a value, on whatever lines it stands. -/
inductive Shows : Json → Node → Prop where
  | null : Shows .null .null
  | bool (value : Bool) : Shows (.bool value) (.bool value)
  | int (value : Int) (line : Nat) : Shows (.int value) (.number (.int value) line)
  | float (value : Float) (line : Nat) : Shows (.float value) (.number (.float value) line)
  | text (value : String) : Shows (.text value) (.text (.sound value))
  | list {items : List Json} {nodes : List Node} (line : Nat) (shown : ShowsAll items nodes) :
      Shows (.list items) (.list line nodes)
  | record {members : List (String × Json)} {entries : List Member} (line : Nat)
      (shown : ShowsMembers members entries) : Shows (.record members) (.record line entries)

inductive ShowsAll : List Json → List Node → Prop where
  | nil : ShowsAll [] []
  | cons {item : Json} {rest : List Json} {node : Node} {others : List Node}
      (first : Shows item node) (later : ShowsAll rest others) :
      ShowsAll (item :: rest) (node :: others)

inductive ShowsMembers : List (String × Json) → List Member → Prop where
  | nil : ShowsMembers [] []
  | cons {value : Json} {rest : List (String × Json)} {node : Node} {others : List Member}
      (name : String) (first : Shows value node) (later : ShowsMembers rest others)
      (after : List Char) (line : Nat) :
      ShowsMembers ((name, value) :: rest)
        (.entry ⟨quoted name ++ '"' :: after, line⟩ (.sound name) node :: others)

end

end Json

/-- The blanks of a document: before a part or a closing mark at a depth, and after a colon. -/
structure Layout where
  indent : Nat → List Char
  gap : List Char
  indent_blank : ∀ depth, ∀ char ∈ indent depth, Place.isSpace char = true
  gap_blank : ∀ char ∈ gap, Place.isSpace char = true

namespace Layout

def compact : Layout where
  indent _ := []
  gap := []
  indent_blank := by simp
  gap_blank := by simp

def pretty : Layout where
  indent depth := '\n' :: List.replicate (2 * depth) ' '
  gap := [' ']
  indent_blank := by
    intro depth char member
    rcases List.mem_cons.1 member with rfl | blank
    · decide
    · rw [List.eq_of_mem_replicate blank]
      decide
  gap_blank := by simp [Place.isSpace]

/-- The parts of a list or a record at a depth, and its closing mark. -/
def enclosed (layout : Layout) (depth : Nat) (closing : Char) : Bool → List (List Char) → List Char
  | first, [] => (if first then [] else layout.indent depth) ++ [closing]
  | first, part :: rest =>
      (if first then [] else [',']) ++ layout.indent (depth + 1) ++ part ++
        layout.enclosed depth closing false rest

def named (layout : Layout) (name : String) (value : List Char) : List Char :=
  '"' :: (Json.quoted name ++ '"' :: ':' :: (layout.gap ++ value))

mutual

def chars (layout : Layout) (depth : Nat) : Json → List Char
  | .null => "null".toList
  | .bool value => (if value then "true" else "false").toList
  | .int value => (toString value).toList
  | .float value => (Json.floatText value).toList
  | .text value => '"' :: Json.quoted value ++ ['"']
  | .list items => '[' :: layout.enclosed depth ']' true (layout.charsAll (depth + 1) items)
  | .record members =>
      '\x7b' :: layout.enclosed depth '\x7d' true (layout.charsMembers (depth + 1) members)

def charsAll (layout : Layout) (depth : Nat) : List Json → List (List Char)
  | [] => []
  | item :: rest => layout.chars depth item :: layout.charsAll depth rest

def charsMembers (layout : Layout) (depth : Nat) : List (String × Json) → List (List Char)
  | [] => []
  | (name, value) :: rest =>
      layout.named name (layout.chars depth value) :: layout.charsMembers depth rest

end

theorem enclosed_false (layout : Layout) (depth : Nat) (closing : Char)
    (parts : List (List Char)) : layout.enclosed depth closing false parts =
      parts.flatMap (fun part => ',' :: layout.indent (depth + 1) ++ part) ++
        layout.indent depth ++ [closing] := by
  induction parts with
  | nil => rfl
  | cons part rest induction => simp [enclosed, induction]

theorem intercalate_cons (separator part : List Char) (rest : List (List Char)) :
    separator.intercalate (part :: rest) = part ++ rest.flatMap (separator ++ ·) := by
  induction rest generalizing part with
  | nil => simp
  | cons next rest induction => simp [List.intercalate_cons_cons, induction]

theorem compact_enclosed (depth : Nat) (closing : Char) (parts : List (List Char)) :
    compact.enclosed depth closing true parts = [','].intercalate parts ++ [closing] := by
  cases parts with
  | nil => rfl
  | cons part rest =>
      rw [intercalate_cons, enclosed, enclosed_false]
      simp [compact]

theorem pretty_enclosed (opening closing : Char) (depth : Nat) (lines : List String) :
    (Json.block (String.singleton opening) (String.singleton closing) depth lines).toList =
      opening :: pretty.enclosed depth closing true (lines.map String.toList) := by
  cases lines with
  | nil => simp [Json.block, enclosed]
  | cons line rest =>
      simp only [Json.block, Json.lineStart, String.toList_append, String.toList_intercalate,
        List.map_cons, intercalate_cons, enclosed, enclosed_false]
      simp [pretty, List.flatMap_def]

mutual

theorem toList_render (depth : Nat) : (json : Json) → json.render.toList = compact.chars depth json
  | .null | .bool _ | .int _ | .float _ => rfl
  | .text value => by simp [Json.render, Json.quote, chars, Json.quoted]
  | .list items => by
      simp [Json.render, chars, compact_enclosed, map_toList_renderAll (depth + 1) items]
  | .record members => by
      simp [Json.render, chars, compact_enclosed, map_toList_renderMembers (depth + 1) members]

theorem map_toList_renderAll (depth : Nat) : (items : List Json) →
    (Json.renderAll items).map String.toList = compact.charsAll depth items
  | [] => rfl
  | item :: rest => by
      simp [Json.renderAll, charsAll, toList_render depth item, map_toList_renderAll depth rest]

theorem map_toList_renderMembers (depth : Nat) : (members : List (String × Json)) →
    (Json.renderMembers members).map String.toList = compact.charsMembers depth members
  | [] => rfl
  | (name, value) :: rest => by
      simp [Json.renderMembers, charsMembers, toList_render depth value,
        map_toList_renderMembers depth rest, named, Json.quote, Json.quoted, compact]

end

mutual

theorem toList_renderPretty (depth : Nat) : (json : Json) →
    (json.renderPretty depth).toList = pretty.chars depth json
  | .null | .bool _ | .int _ | .float _ => rfl
  | .text value => by simp [Json.renderPretty, Json.quote, chars, Json.quoted]
  | .list items => by
      rw [Json.renderPretty, chars, ← map_toList_renderPrettyAll (depth + 1) items]
      exact pretty_enclosed '[' ']' depth _
  | .record members => by
      rw [Json.renderPretty, chars, ← map_toList_renderPrettyMembers (depth + 1) members]
      exact pretty_enclosed '\x7b' '\x7d' depth _

theorem map_toList_renderPrettyAll (depth : Nat) : (items : List Json) →
    (Json.renderPrettyAll depth items).map String.toList = pretty.charsAll depth items
  | [] => rfl
  | item :: rest => by
      simp [Json.renderPrettyAll, charsAll, toList_renderPretty depth item,
        map_toList_renderPrettyAll depth rest]

theorem map_toList_renderPrettyMembers (depth : Nat) : (members : List (String × Json)) →
    (Json.renderPrettyMembers depth members).map String.toList =
      pretty.charsMembers depth members
  | [] => rfl
  | (name, value) :: rest => by
      simp [Json.renderPrettyMembers, charsMembers, toList_renderPretty depth value,
        map_toList_renderPrettyMembers depth rest, named, Json.quote, Json.quoted, pretty]

end

end Layout

end ObjectQuery
