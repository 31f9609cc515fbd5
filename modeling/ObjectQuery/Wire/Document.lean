import ObjectQuery.Wire.NumberToken
import ObjectQuery.Wire.Quotation

namespace ObjectQuery

/-!
Documents as they stand, the sound part and where it ends. A faulty document
may still be read up to its fault, and what is passed over may hold faults that
only reading would find.
-/

mutual

/-- A value of a document. -/
inductive Node where
  | null
  | bool (value : Bool)
  | number (token : NumberToken) (line : Nat)
  | text (spelling : Spelling)
  | list (line : Nat) (items : List Node)
  | record (line : Nat) (members : List Member)
  /-- No value can be read here. -/
  | broken (line : Nat)
  /-- No colon introduces the value. -/
  | unmarked (line : Nat)

/-- A member of a record. -/
inductive Member where
  /-- A member and the place after the opening quote of its name. -/
  | entry (start : Place) (name : Spelling) (value : Node)
  /-- There is no name where one is due. -/
  | unnamed (line : Nat)

end

namespace Document

/-- A part of a document, and the place after it where the document is sound so far. -/
abbrev Scanned (α : Type) := α × Option Place

def word (letters : String) (value : Node) (place : Place) : Scanned Node :=
  match place.word letters.toList with
  | .ok place => (value, some place)
  | .error line => (.broken line, none)

def simple? (place : Place) : Option (Scanned Node) :=
  match place.ahead with
  | [] => some (.broken place.line, none)
  | 'n' :: _ => some (word "null" .null place)
  | 't' :: _ => some (word "true" (.bool true) place)
  | 'f' :: _ => some (word "false" (.bool false) place)
  | '"' :: _ =>
      let (spelling, rest) := Quotation.read place.next
      some (.text spelling, rest)
  | _ =>
      if NumberToken.isAhead place then
        match NumberToken.read place with
        | .ok (token, rest) => some (.number token place.line, some rest)
        | .error line => some (.broken line, none)
      else
        none

/-- Where the next item of a list or a record begins, none at the closing mark. -/
def nextItem (closing : Char) (first : Bool) (place : Place) : Except Nat (Option Place) :=
  let place := place.skipSpace
  match place.ahead with
  | [] => .error place.line
  | char :: _ =>
      if char = closing then
        .ok none
      else if first then
        .ok (some place)
      else if char = ',' then
        let place := place.next.skipSpace
        if place.ahead.isEmpty || place.ahead.head? == some closing then
          .error place.line
        else
          .ok (some place)
      else
        .error place.line

mutual

/-- The value at a place; `fuel` bounds the characters ahead. -/
def value : Nat → Place → Scanned Node
  | 0, place => (.broken place.line, none)
  | fuel + 1, place =>
      let place := place.skipSpace
      match simple? place with
      | some scanned => scanned
      | none =>
          match place.ahead with
          | '[' :: _ =>
              let (items, rest) := items fuel true place.next
              (.list place.line items, rest)
          | '\x7b' :: _ =>
              let (members, rest) := members fuel true place.next
              (.record place.line members, rest)
          | _ => (.broken place.line, none)

/-- The items of a list that are left at a place. -/
def items : Nat → Bool → Place → Scanned (List Node)
  | 0, _, place => ([.broken place.line], none)
  | fuel + 1, first, place =>
      match nextItem ']' first place with
      | .error line => ([.broken line], none)
      | .ok none => ([], some place.skipSpace.next)
      | .ok (some place) =>
          match value fuel place with
          | (node, none) => ([node], none)
          | (node, some place) =>
              let (nodes, rest) := items fuel false place
              (node :: nodes, rest)

/-- The members of a record that are left at a place. -/
def members : Nat → Bool → Place → Scanned (List Member)
  | 0, _, place => ([.unnamed place.line], none)
  | fuel + 1, first, place =>
      match nextItem '\x7d' first place with
      | .error line => ([.unnamed line], none)
      | .ok none => ([], some place.skipSpace.next)
      | .ok (some place) =>
          if place.ahead.head? = some '"' then
            let start := place.next
            match Quotation.read start with
            | (name, none) => ([.entry start name (.broken start.line)], none)
            | (name, some place) =>
                let place := place.skipSpace
                if place.ahead.head? = some ':' then
                  match value fuel place.next with
                  | (node, none) => ([.entry start name node], none)
                  | (node, some place) =>
                      let (others, rest) := members fuel false place
                      (.entry start name node :: others, rest)
                else
                  ([.entry start name (.unmarked place.line)], none)
          else
            ([.unnamed place.line], none)

end

def scan (text : String) : Scanned Node :=
  let place := Place.ofText text
  value (2 * place.ahead.length + 2) place

end Document

namespace Spelling

def pass : Spelling → Except Nat Unit
  | broken _ line => .error line
  | _ => .ok ()

end Spelling

mutual

def Node.pass : Node → Except Nat Unit
  | .text spelling => spelling.pass
  | .list _ items => Node.passAll items
  | .record _ members => Member.passAll members
  | .broken line | .unmarked line => .error line
  | _ => .ok ()

def Node.passAll : List Node → Except Nat Unit
  | [] => .ok ()
  | node :: rest =>
      match node.pass with
      | .ok () => Node.passAll rest
      | .error line => .error line

def Member.pass : Member → Except Nat Unit
  | .entry _ name value =>
      match name.pass with
      | .ok () => value.pass
      | .error line => .error line
  | .unnamed line => .error line

def Member.passAll : List Member → Except Nat Unit
  | [] => .ok ()
  | member :: rest =>
      match member.pass with
      | .ok () => Member.passAll rest
      | .error line => .error line

end

end ObjectQuery
