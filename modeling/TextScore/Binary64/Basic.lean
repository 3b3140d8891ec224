/-! Binary64 numbers taken apart into sign, mantissa and exponent, and the roundings that need
their exact value: to a natural number, and of a rational number to 53 significant bits. -/
namespace TextScore

inductive Binary64 where
  /-- The number `mantissa · 2 ^ exponent`, negated if `negative`. -/
  | finite (negative : Bool) (mantissa : Nat) (exponent : Int)
  | infinite (negative : Bool)
  /-- What is no number still has a sign, and is ordered by it. -/
  | nan (negative : Bool)
  deriving DecidableEq, Repr

namespace Binary64

/-- The sign of what is no number does not show in a `Float`; it is taken to be plus. -/
def decode (x : Float) : Binary64 :=
  let bits := x.toBits.toNat
  let negative := decide (0x8000000000000000 ≤ bits)
  let fraction := bits % 0x10000000000000
  match bits / 0x10000000000000 % 0x800 with
  | 0 => finite negative fraction (-1074)
  | 0x7ff => if fraction = 0 then infinite negative else nan false
  | biased => finite negative (0x10000000000000 + fraction) (Int.ofNat biased - 1075)

def magnitude (mantissa : Nat) (exponent : Int) : Rat := (mantissa : Rat) * (2 : Rat) ^ exponent

/-- Finite and greater than zero. -/
def isPositive : Binary64 → Bool
  | finite false mantissa _ => mantissa ≠ 0
  | _ => false

/-- Finite, greater than zero and not above `bound`. -/
def isPositiveUpTo (bound : Nat) : Binary64 → Bool
  | finite false mantissa exponent => mantissa ≠ 0 ∧ magnitude mantissa exponent ≤ (bound : Rat)
  | _ => false

end Binary64

namespace Rounding

/-- The nearest integer, a half going up. -/
def halfUp (q : Rat) : Int := (q + 1 / 2).floor

/-- The nearest integer, a half going to the even one. -/
def halfEven (q : Rat) : Int :=
  let down := q.floor
  let part := q - (down : Rat)
  if part < 1 / 2 then down
  else if 1 / 2 < part then down + 1
  else down + down % 2

/-- The exponent of the last of 53 significant bits. -/
def lastPlace (q : Rat) : Int :=
  let guess := Int.ofNat q.num.natAbs.log2 - Int.ofNat q.den.log2 - 52
  if q.abs < (2 : Rat) ^ (guess + 52) then guess - 1 else guess

/-- The nearest number with 53 significant bits, a half going to the even one. -/
def toBinary (q : Rat) : Rat :=
  if q = 0 then 0
  else
    let unit := (2 : Rat) ^ lastPlace q
    (halfEven (q / unit) : Rat) * unit

end Rounding

/-- The nearest natural number, a half going up. Nothing exceeds `bound`; negative numbers and
NaN give 0. -/
def Binary64.toNat (bound : Nat) : Binary64 → Nat
  | finite false mantissa exponent =>
    min bound (Rounding.halfUp (magnitude mantissa exponent)).toNat
  | infinite false => bound
  | _ => 0

end TextScore
