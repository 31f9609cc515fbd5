import ObjectQuery.Lexical.Word
import ObjectQuery.Text.Character
import ObjectQuery.Text.LowerCase

namespace ObjectQuery

/-!
Keywords, matched whatever the case of their letters. White space separates
the words of a keyword that has several.
-/

/-- The words of a keyword, and whether the last must end where a word may end. -/
structure Keyword where
  words : List (List Char)
  ends : Bool := true

namespace Keyword

/-- The length of a word where it stands at the head of the characters. -/
def wordLength? : List Char → List Char → Option Nat
  | [], _ => some 0
  | _ :: _, [] => none
  | expected :: word, char :: rest =>
      if sameUpper char expected then
        (wordLength? word rest).map (· + 1)
      else
        none

def laterWordLength? (word chars : List Char) : Option Nat :=
  match (chars.takeWhile isWhiteSpace).length with
  | 0 => none
  | gap => (wordLength? word (chars.drop gap)).map (gap + ·)

def laterWordsLength? : List (List Char) → List Char → Option Nat
  | [], _ => some 0
  | word :: words, chars => do
      let length ← laterWordLength? word chars
      let others ← laterWordsLength? words (chars.drop length)
      return length + others

def wordsLength? : List (List Char) → List Char → Option Nat
  | [], _ => some 0
  | word :: words, chars => do
      let length ← wordLength? word chars
      let others ← laterWordsLength? words (chars.drop length)
      return length + others

/-- The length of the keyword where it stands at the head of the characters. -/
def length? (keyword : Keyword) (chars : List Char) : Option Nat := do
  let length ← wordsLength? keyword.words chars
  if keyword.ends && !isWordEnd (chars.drop length) then
    none
  else
    return length

def wordsOf : List Char → List (List Char)
  | [] => []
  | char :: rest =>
      if isWhiteSpace char then
        wordsOf rest
      else
        match rest.head?.any (!isWhiteSpace ·), wordsOf rest with
        | true, word :: words => (char :: word) :: words
        | _, words => [char] :: words

def ofText (text : String) (ends : Bool) : Keyword where
  words := (wordsOf text.toList).map (·.flatMap upperChar)
  ends := ends

def select : Keyword := ⟨["SELECT".toList], true⟩
def objects : Keyword := ⟨["FROM".toList], true⟩
def filter : Keyword := ⟨["WHERE".toList], true⟩
def groupBy : Keyword := ⟨["GROUP".toList, "BY".toList], true⟩
def having : Keyword := ⟨["HAVING".toList], true⟩
def orderBy : Keyword := ⟨["ORDER".toList, "BY".toList], true⟩
def offset : Keyword := ⟨["OFFSET".toList], true⟩
def limit : Keyword := ⟨["LIMIT".toList], true⟩
def access : Keyword := ⟨["FOR".toList], true⟩
def ascending : Keyword := ⟨["ASC".toList], true⟩
def descending : Keyword := ⟨["DESC".toList], true⟩
def nullsFirst : Keyword := ⟨["NULLS".toList, "FIRST".toList], true⟩
def nullsLast : Keyword := ⟨["NULLS".toList, "LAST".toList], true⟩
def and : Keyword := ⟨["AND".toList], true⟩
def or : Keyword := ⟨["OR".toList], true⟩
def not : Keyword := ⟨["NOT".toList], true⟩
def equal : Keyword := ⟨["=".toList], false⟩
def notEqual : Keyword := ⟨["!=".toList], false⟩
def unequal : Keyword := ⟨["<>".toList], false⟩
def greater : Keyword := ⟨[">".toList], false⟩
def greaterOrEqual : Keyword := ⟨[">=".toList], false⟩
def less : Keyword := ⟨["<".toList], false⟩
def lessOrEqual : Keyword := ⟨["<=".toList], false⟩
def like : Keyword := ⟨["LIKE".toList], true⟩
def notLike : Keyword := ⟨["NOT".toList, "LIKE".toList], true⟩
def isIn : Keyword := ⟨["IN".toList], true⟩
def notIn : Keyword := ⟨["NOT".toList, "IN".toList], true⟩
def includes : Keyword := ⟨["INCLUDES".toList], true⟩
def excludes : Keyword := ⟨["EXCLUDES".toList], true⟩
def view : Keyword := ⟨["VIEW".toList], true⟩
def reference : Keyword := ⟨["REFERENCE".toList], true⟩
def update : Keyword := ⟨["UPDATE".toList], true⟩
def tracking : Keyword := ⟨["TRACKING".toList], true⟩
def viewstat : Keyword := ⟨["VIEWSTAT".toList], true⟩
def trueValue : Keyword := ⟨["TRUE".toList], true⟩
def falseValue : Keyword := ⟨["FALSE".toList], true⟩
def null : Keyword := ⟨["NULL".toList], true⟩
def infinity : Keyword := ⟨["INFINITY".toList], true⟩
def positiveInfinity : Keyword := ⟨["+INFINITY".toList], true⟩
def negativeInfinity : Keyword := ⟨["-INFINITY".toList], true⟩
def notANumber : Keyword := ⟨["NAN".toList], true⟩

def reserved : List Keyword :=
  [select, objects, filter, groupBy, orderBy, having, offset, limit, access]

end Keyword

/-- Whether a keyword that opens a clause stands at the head of the characters. -/
def isReserved (chars : List Char) : Bool :=
  Keyword.reserved.any fun keyword => (keyword.length? chars).isSome

end ObjectQuery
