import TextScore.Binary64.Basic

/-! Arithmetic and order of binary64 numbers. The machine computes with numbers; what is no number
follows two rules of its own, which the order of times depends on. -/
namespace TextScore.Binary64

def signBit : Bool → Nat
  | true => 0x8000000000000000
  | false => 0

/-- The 64 bits. A mantissa of 53 bits is stored without its leading one, and the least exponent
stands for those without one, too. -/
def toBits : Binary64 → Nat
  | finite negative mantissa exponent =>
    signBit negative + ((exponent + 1075).toNat * 0x10000000000000 + mantissa - 0x10000000000000)
  | infinite negative => signBit negative + 0x7ff0000000000000
  | nan negative => signBit negative + 0x7ff8000000000000

def toFloat (x : Binary64) : Float := Float.ofBits (UInt64.ofNat x.toBits)

def ofNat (n : Nat) : Binary64 := decode n.toFloat

def neg : Binary64 → Binary64
  | finite negative mantissa exponent => finite (!negative) mantissa exponent
  | infinite negative => infinite !negative
  | nan negative => nan !negative

/-- The first operand that is no number is the result. If numbers give none, its sign is minus. -/
def lift (op : Float → Float → Float) : Binary64 → Binary64 → Binary64
  | nan negative, _ => nan negative
  | _, nan negative => nan negative
  | x, y => match decode (op x.toFloat y.toFloat) with
    | nan _ => nan true
    | z => z

instance : Add Binary64 := ⟨lift (· + ·)⟩
instance : Sub Binary64 := ⟨lift (· - ·)⟩
instance : Mul Binary64 := ⟨lift (· * ·)⟩
instance : Div Binary64 := ⟨lift (· / ·)⟩

/-- Larger for what comes later: -0 is below 0, and what is no number lies beyond the infinity of
its sign. -/
def orderKey (x : Binary64) : Int :=
  let bits := x.toBits
  if bits < signBit true then Int.ofNat bits
  else Int.ofNat (signBit true) - 1 - Int.ofNat bits

def zero : Binary64 := finite false 0 (-1074)

def one : Binary64 := finite false 0x10000000000000 (-52)

/-- The nearest point between -1 and 1; what is no number stays as it is. -/
def clampUnit : Binary64 → Binary64
  | nan negative => nan negative
  | x =>
    if x.orderKey < one.neg.orderKey then one.neg
    else if one.orderKey < x.orderKey then one
    else x

end TextScore.Binary64
