import ObjectQuery.Decimal.Shortest

namespace ObjectQuery

/-! The text of a floating-point number. -/

/-- How the shortest decimal of a number is laid out. -/
structure DecimalLayout where
  /-- The least power of ten written without an exponent. -/
  least : Int
  /-- The least greater power of ten written with an exponent. -/
  most : Int
  /-- The mark before a positive exponent. -/
  plus : String
  tie : TieRule

namespace DecimalLayout

def zeros (count : Nat) : List Char :=
  List.replicate count '0'

/-- Digits with a point and no exponent; the first of them counts `10 ^ exponent`. -/
def positional (digits : List Char) (exponent : Int) : List Char :=
  if exponent < 0 then
    '0' :: '.' :: zeros (exponent.natAbs - 1) ++ digits
  else
    let whole := exponent.toNat + 1
    if digits.length ≤ whole then
      digits ++ zeros (whole - digits.length) ++ ['.', '0']
    else
      digits.take whole ++ '.' :: digits.drop whole

def scientific (layout : DecimalLayout) (digits : List Char) (exponent : Int) : List Char :=
  let significand :=
    match digits with
    | first :: second :: rest => first :: '.' :: second :: rest
    | short => short
  let sign := if exponent < 0 then "-" else layout.plus
  significand ++ 'e' :: sign.toList ++ (toString exponent.natAbs).toList

def renderSize (layout : DecimalLayout) (size : BinarySize) : List Char :=
  if size.significand = 0 then
    "0.0".toList
  else
    let (number, unit) := size.shortest layout.tie
    let digits := (toString number).toList
    let exponent := unit + digits.length - 1
    if layout.least ≤ exponent ∧ exponent < layout.most then
      positional digits exponent
    else
      layout.scientific digits exponent

def render (layout : DecimalLayout) (value : Float) : String :=
  let signed (negative : Bool) (text : List Char) : String :=
    String.ofList (if negative then '-' :: text else text)
  match FloatView.ofFloat value with
  | .nan => "NaN"
  | .infinity negative => signed negative "Infinity".toList
  | .finite negative size => signed negative (layout.renderSize size)

/-- Numbers in the text of a query: an exponent from `1e16` on and below `1e-4`. -/
def display : DecimalLayout := ⟨-4, 16, "", .up⟩

/-- Numbers in the written form of a query: an exponent from `1e+16` on and below `1e-5`. -/
def wire : DecimalLayout := ⟨-5, 16, "+", .toEven⟩

end DecimalLayout

end ObjectQuery
