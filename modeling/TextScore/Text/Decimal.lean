import TextScore.Binary64.Arithmetic
import TextScore.Text.Numeral

/-! Decimal numbers as text, read to the nearest binary64 number: an optional sign, digits with an
optional point, an optional power of ten. Infinity and NaN have names, in any case of letters. -/
namespace TextScore.Text

/-- The number `digits · 10 ^ exponent`. -/
structure Decimal where
  digits : Nat
  exponent : Int

/-- Numbers beyond every finite one are infinite, and those below half the least are zero, so that
no power of ten is built that the answer does not need. -/
def Decimal.nearest (d : Decimal) : Binary64 :=
  let top := Int.ofNat d.digits.repr.length + d.exponent
  if d.digits = 0 ∨ top < -330 then .ofNat 0
  else if 330 < top then .infinite false
  else .decode (Float.ofScientific d.digits (d.exponent < 0) d.exponent.natAbs)

/-- What may follow the digits: nothing, or `e` and a power of ten. -/
def exponent? : List Char → Option Int
  | [] => some 0
  | c :: rest => if c = 'e' ∨ c = 'E' then signed? rest else none

def unsignedDecimal? (text : List Char) : Option Decimal :=
  let whole := text.takeWhile Char.isDigit
  let (fraction, rest) := match text.dropWhile Char.isDigit with
    | '.' :: rest => (rest.takeWhile Char.isDigit, rest.dropWhile Char.isDigit)
    | rest => ([], rest)
  if whole = [] ∧ fraction = [] then none
  else (exponent? rest).map fun e =>
    ⟨digitsValue (whole ++ fraction), e - Int.ofNat fraction.length⟩

def decimal? (text : String) : Option Binary64 :=
  let (negative, rest) := sign text.toList
  let magnitude : Option Binary64 := match String.ofList (rest.map Char.toLower) with
    | "inf" | "infinity" => some (.infinite false)
    | "nan" => some (.nan false)
    | _ => (unsignedDecimal? rest).map Decimal.nearest
  magnitude.map fun x => if negative then x.neg else x

end TextScore.Text
