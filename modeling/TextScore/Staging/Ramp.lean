import TextScore.Binary64.Basic
import TextScore.Pitch

/-! Velocities of a crescendo or decrescendo: a line between two ticks, computed in binary64
steps and rounded to a whole velocity. -/
namespace TextScore

/-- Leads from velocity `start` at tick `first` to velocity `target` at tick `last`. -/
structure Ramp where
  start : Nat
  target : Nat
  first : Nat
  last : Nat
  deriving DecidableEq, Repr

/-- Ticks outside the line take the velocity of its nearer end; a line without length is at its
target. -/
def Ramp.velocity (r : Ramp) (tick : Nat) : Nat :=
  if r.last ≤ r.first then r.target
  else
    let elapsed := min (max tick r.first) r.last - r.first
    let share := Rounding.toBinary ((elapsed : Rat) / ((r.last - r.first : Nat) : Rat))
    let change := Rounding.toBinary (share * ((r.target : Rat) - (r.start : Rat)))
    min Pitch.highest (Rounding.halfUp (Rounding.toBinary ((r.start : Rat) + change))).toNat

end TextScore
