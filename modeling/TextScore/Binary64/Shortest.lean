import TextScore.Binary64.Basic

/-! The fewest decimal digits that read back as a given binary64 number, and of those the ones
nearest to it. For one digit, two digits and so on, the two neighbours of the number on that
decimal grid are tried in exact arithmetic. -/
namespace TextScore.Binary64

/-- The numbers that read back as one binary64 number lie between two bounds, which belong to it
if its mantissa is even. -/
structure ReadBack where
  low : Rat
  high : Rat
  closed : Bool

def ReadBack.contains (r : ReadBack) (q : Rat) : Bool :=
  if r.closed then r.low ≤ q ∧ q ≤ r.high else r.low < q ∧ q < r.high

/-- Just above a power of two, numbers below lie half as far apart as those above. -/
def readBack (mantissa : Nat) (exponent : Int) : ReadBack :=
  let unit := (2 : Rat) ^ exponent
  let value := magnitude mantissa exponent
  let below := if mantissa = 0x10000000000000 ∧ exponent ≠ -1074 then unit / 4 else unit / 2
  ⟨value - below, value + unit / 2, mantissa % 2 = 0⟩

/-- The power of ten of the leading digit of a positive number. -/
def leadingPlace (q : Rat) : Int :=
  let guess := Int.ofNat q.num.natAbs.repr.length - Int.ofNat q.den.repr.length
  if q < (10 : Rat) ^ guess then guess - 1 else guess

/-- The number `digits · 10 ^ exponent`. -/
structure DecimalDigits where
  digits : Nat
  exponent : Int
  deriving DecidableEq, Repr

/-- The neighbour of `value` on the grid of `10 ^ place` that reads back, the nearer of two. -/
def onGrid? (r : ReadBack) (value : Rat) (place : Int) : Option DecimalDigits :=
  let unit := (10 : Rat) ^ place
  let down := (value / unit).floor.toNat
  let lower := (down : Rat) * unit
  let upper := ((down + 1 : Nat) : Rat) * unit
  let downward := value - lower < upper - value ∨ value - lower = upper - value ∧ down % 2 = 0
  match r.contains lower, r.contains upper with
  | true, true => some ⟨if downward then down else down + 1, place⟩
  | true, false => some ⟨down, place⟩
  | false, true => some ⟨down + 1, place⟩
  | false, false => none

/-- Seventeen digits always read back. -/
def shortest (mantissa : Nat) (exponent : Int) : DecimalDigits :=
  let value := magnitude mantissa exponent
  let leading := leadingPlace value
  let found := (List.range 17).findSome? fun n =>
    onGrid? (readBack mantissa exponent) value (leading - Int.ofNat n)
  match found with
  | some ⟨10, place⟩ => ⟨1, place + 1⟩
  | some d => d
  | none => ⟨0, 0⟩

end TextScore.Binary64
