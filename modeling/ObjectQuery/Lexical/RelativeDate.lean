import ObjectQuery.Lexical.Numeral

namespace ObjectQuery

/-! Dates named relative to the current day, some with a count. -/

/-- The keyword of a relative date and its count, zero where it has none. -/
structure RelativeDate where
  keyword : String
  count : Int64
  deriving DecidableEq, Repr

namespace RelativeDate

def keywords : List (String × Bool) :=
  [ ("NEXT_N_FISCAL_QUARTERS", true),
    ("LAST_N_FISCAL_QUARTERS", true),
    ("NEXT_N_FISCAL_YEARS", true),
    ("LAST_N_FISCAL_YEARS", true),
    ("THIS_FISCAL_QUARTER", false),
    ("LAST_FISCAL_QUARTER", false),
    ("NEXT_FISCAL_QUARTER", false),
    ("THIS_FISCAL_YEAR", false),
    ("LAST_FISCAL_YEAR", false),
    ("NEXT_FISCAL_YEAR", false),
    ("NEXT_N_QUARTERS", true),
    ("LAST_N_QUARTERS", true),
    ("NEXT_N_MONTHS", true),
    ("LAST_N_MONTHS", true),
    ("NEXT_N_YEARS", true),
    ("LAST_N_YEARS", true),
    ("NEXT_N_WEEKS", true),
    ("LAST_N_WEEKS", true),
    ("LAST_N_DAYS", true),
    ("NEXT_N_DAYS", true),
    ("LAST_90_DAYS", false),
    ("NEXT_90_DAYS", false),
    ("THIS_QUARTER", false),
    ("LAST_QUARTER", false),
    ("NEXT_QUARTER", false),
    ("LAST_MONTH", false),
    ("THIS_MONTH", false),
    ("NEXT_MONTH", false),
    ("LAST_WEEK", false),
    ("THIS_WEEK", false),
    ("NEXT_WEEK", false),
    ("THIS_YEAR", false),
    ("LAST_YEAR", false),
    ("NEXT_YEAR", false),
    ("YESTERDAY", false),
    ("TOMORROW", false),
    ("TODAY", false) ]

def lookup? (word : List Char) : Option (String × Bool) :=
  keywords.find? fun keyword => keyword.1.toList == word.map Char.toUpper

/-- The count after a keyword: a colon and digits, or nothing. -/
def readCount (chars : List Char) : Except (SyntaxFault × Nat) (Int64 × Nat) :=
  match chars with
  | ':' :: rest =>
      let digits := rest.takeWhile Numeral.isDigit
      let length := digits.length + 1
      if digits.isEmpty || !isWordEnd (rest.drop digits.length) then
        .error (.missingCount, length)
      else
        match Digit.signed? false (Digit.number 10 digits) with
        | some count => .ok (count, length)
        | none => .error (.countOutOfRange, length)
  | _ => .ok (0, 0)

def counts (date : RelativeDate) : Bool :=
  contains "_N_".toList date.keyword.toList
where
  contains (part : List Char) : List Char → Bool
    | [] => part.isEmpty
    | char :: rest => part.isPrefixOf (char :: rest) || contains part rest

end RelativeDate

def relativeDate (chars : List Char) : Lexeme RelativeDate :=
  if chars.head?.any fun char => char.isAlpha || char == '_' then
    let word := chars.takeWhile isWordChar
    match RelativeDate.lookup? word with
    | none => .absent
    | some (keyword, counts) =>
        let rest := chars.drop word.length
        match if counts then RelativeDate.readCount rest else .ok (0, 0) with
        | .ok (count, length) => .found ⟨keyword, count⟩ (word.length + length)
        | .error (fault, stop) => .spoilt fault 0 (word.length + stop)
  else
    .absent

end ObjectQuery
