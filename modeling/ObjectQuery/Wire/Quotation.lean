import ObjectQuery.Lexical.Digit
import ObjectQuery.Wire.Place

namespace ObjectQuery

/-!
Quoted texts of a document. A text may be sound as a piece of the document and
still stand for no text, as when half of a surrogate pair is missing.
-/

/-- What a quoted text spells. -/
inductive Spelling where
  | sound (text : String)
  /-- The text ends where it should, but stands for nothing. -/
  | flawed (line : Nat)
  /-- The text does not end; `passed` is the line where passing over it stops. -/
  | broken (line passed : Nat)

namespace Quotation

/-- A piece of a quoted text: a character, or a unit of sixteen bits. -/
inductive Piece where
  | char (char : Char)
  | unit (code : Nat)

/-- How a quoted text comes to its end. -/
inductive Ending where
  | closed (rest : List Char)
  | broken (line passed : Nat)

def isLead (code : Nat) : Bool :=
  0xD800 ≤ code && code ≤ 0xDBFF

def isTrail (code : Nat) : Bool :=
  0xDC00 ≤ code && code ≤ 0xDFFF

def escape? (letter : Char) : Option Char :=
  match letter with
  | '"' | '\\' | '/' => some letter
  | 'b' => some '\x08'
  | 'f' => some '\x0c'
  | 'n' => some '\n'
  | 'r' => some '\r'
  | 't' => some '\t'
  | _ => none

/-- The line reached after the characters that begin in the next `bytes` bytes. -/
def lineWithin (line : Nat) : Nat → List Char → Nat
  | 0, _ | _, [] => line
  | bytes + 1, char :: rest =>
      lineWithin (Place.lineAfter line char) (bytes + 1 - char.utf8Size) rest

/-- The pieces after an opening quote on `line`, and how they end. -/
def pieces (line : Nat) : List Char → List Piece × Ending
  | [] => ([], .broken line line)
  | '"' :: rest => ([], .closed rest)
  | ['\\'] => ([], .broken line line)
  | '\\' :: 'u' :: first :: second :: third :: fourth :: rest =>
      let digits := [first, second, third, fourth]
      if digits.all (Digit.isOf 16) then
        let (later, ending) := pieces line rest
        (.unit (Digit.number 16 digits) :: later, ending)
      else
        let stop := lineWithin line 4 digits
        ([], .broken stop stop)
  | '\\' :: 'u' :: short =>
      let stop := lineWithin line 4 short
      ([], .broken stop stop)
  | '\\' :: letter :: rest =>
      match escape? letter with
      | some char =>
          let (later, ending) := pieces line rest
          (.char char :: later, ending)
      | none =>
          let stop := Place.lineAfter line letter
          ([], .broken stop stop)
  | char :: rest =>
      if char.toNat < 0x20 then
        ([], .broken (Place.lineAfter line char) line)
      else
        let (later, ending) := pieces line rest
        (.char char :: later, ending)

/-- The text of pieces, where every lead unit has a trail unit after it and the other way round. -/
def joined? : List Piece → Option (List Char)
  | [] => some []
  | .char char :: rest => (joined? rest).map (char :: ·)
  | .unit code :: rest =>
      if isLead code then
        match rest with
        | .unit next :: rest =>
            if isTrail next then
              let char := Char.ofNat (0x10000 + (code - 0xD800) * 0x400 + (next - 0xDC00))
              (joined? rest).map (char :: ·)
            else
              none
        | _ => none
      else if isTrail code then
        none
      else
        (joined? rest).map (Char.ofNat code :: ·)

/-- Pieces without a lead unit at their end, whose trail unit may be missing with the rest. -/
def withoutPendingLead (pieces : List Piece) : List Piece :=
  match pieces.getLast? with
  | some (.unit code) => if isLead code then pieces.dropLast else pieces
  | _ => pieces

/-- The quoted text after an opening quote, and what follows it. -/
def read (place : Place) : Spelling × Option Place :=
  match pieces place.line place.ahead with
  | (found, .closed rest) =>
      match joined? found with
      | some text => (.sound (String.ofList text), some ⟨rest, place.line⟩)
      | none => (.flawed place.line, some ⟨rest, place.line⟩)
  | (found, .broken line passed) =>
      match joined? (withoutPendingLead found) with
      | some _ => (.broken line passed, none)
      | none => (.broken place.line passed, none)

end Quotation

end ObjectQuery
