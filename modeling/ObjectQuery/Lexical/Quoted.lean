import ObjectQuery.Lexical.Blank
import ObjectQuery.Lexical.Digit
import ObjectQuery.Syntax.Lexeme

namespace ObjectQuery

/-! Quoted text: values in single quotes, names in double quotes. -/

namespace Quoted

/-- The quote, and whether the text may run over several lines. -/
structure Style where
  quote : Char
  multiline : Bool

def Style.value : Style := ⟨'\'', true⟩

def Style.symbol : Style := ⟨'"', false⟩

def isAhead (style : Style) (chars : List Char) : Bool :=
  chars.head? == some style.quote

/-- A fault with its offset, or what was read with its length. -/
abbrev Reading (α : Type) := Except (SyntaxFault × Nat) (α × Nat)

namespace Reading

/-- The same reading, begun `count` characters later. -/
def shift (count : Nat) : Reading α → Reading α
  | .ok (value, length) => .ok (value, count + length)
  | .error (fault, stop) => .error (fault, count + stop)

end Reading

/-- A character by the digits of its code point, at least `least` and at most `most` of them. -/
def codePoint (least most base : Nat) (chars : List Char) : Reading Char :=
  let digits := (chars.take most).takeWhile (Digit.isOf base)
  if digits.length < least then
    .error (.badEscape, digits.length)
  else
    let code := Digit.number base digits
    if code.isValidChar then
      .ok (Char.ofNat code, digits.length)
    else
      .error (.badCodePoint, digits.length)

/-- The characters that a single letter after a backslash stands for. -/
def letterEscape? (char : Char) : Option (List Char) :=
  match char with
  | '\\' | '\'' | '"' | '\x60' => some [char]
  | 'n' | 'N' => some ['\n']
  | 'r' | 'R' => some ['\r']
  | 'v' | 'V' => some ['\x0b']
  | 't' | 'T' => some ['\t']
  | 'b' | 'B' => some ['\x08']
  | 'f' | 'F' => some ['\x0c']
  | '_' | '%' => some ['\\', char]
  | _ => none

def bracedEscape (chars : List Char) : Reading (List Char) :=
  match codePoint 1 6 16 chars with
  | .ok (char, length) =>
      if (chars.drop length).head? = some '\x7d' then
        .ok ([char], length + 1)
      else
        .error (.badUnicodeEscape, length)
  | .error fault => .error fault

def fixedEscape (count base : Nat) (chars : List Char) : Reading (List Char) :=
  (codePoint count count base chars).map fun reading => ([reading.1], reading.2)

/--
The escape after a backslash. An escaped `_` or `%` keeps its backslash, so that
a pattern can tell it from a wildcard.
-/
def escape (chars : List Char) : Reading (List Char) :=
  match chars with
  | [] => .error (.openQuote, 0)
  | char :: rest =>
      match letterEscape? char with
      | some value => .ok (value, 1)
      | none =>
          if char = 'u' ∨ char = 'U' then
            match rest with
            | '\x7b' :: braced => (bracedEscape braced).shift 2
            | _ => (fixedEscape 4 16 rest).shift 1
          else if char = 'x' ∨ char = 'X' then
            (fixedEscape 2 16 rest).shift 1
          else if Digit.isOf 8 char then
            fixedEscape 3 8 chars
          else
            .error (.badEscape, 0)

/-- What one more unit makes of the rest of the text. -/
def prepend (value : List Char) (length : Nat) : Reading (List Char) → Reading (List Char)
  | .ok (rest, others) => .ok (value ++ rest, length + others)
  | .error (fault, stop) => .error (fault, length + stop)

/-- Quoted text after its opening quote, the closing quote included in the length. -/
def body (style : Style) (chars : List Char) : Reading (List Char) :=
  match chars with
  | [] => .error (.openQuote, 0)
  | char :: rest =>
      if char = style.quote then
        .ok ([], 1)
      else if char = '\\' then
        match escape rest with
        | .ok (value, length) => prepend value (length + 1) (body style (rest.drop length))
        | .error (fault, stop) => .error (fault, stop + 1)
      else if !style.multiline && Blank.isLineEnd char then
        .error (.quotedNewline, 0)
      else
        prepend [char] 1 (body style rest)
termination_by chars.length
decreasing_by
  all_goals simp only [List.length_cons, List.length_drop]
  all_goals omega

end Quoted

def quoted (style : Quoted.Style) (chars : List Char) : Lexeme String :=
  match chars with
  | [] => .absent
  | char :: rest =>
      if char = style.quote then
        match Quoted.body style rest with
        | .ok (value, length) => .found (String.ofList value) (length + 1)
        | .error (fault, stop) => .spoilt fault 0 (stop + 1)
      else
        .absent

end ObjectQuery
