/-! Tuplets. A tuplet of size n plays n units in the time of two, so its unit is a fraction of a
tick off; what is owed accumulates and is paid out in whole ticks. Sums of ticks past 32 bits are
set aside, as they are for timelines. -/
namespace TextScore

structure Tuplet where
  divisor : Nat
  /-- Owed for each unit, in parts of `divisor`. -/
  remainder : Nat
  owed : Nat
  deriving DecidableEq, Repr

namespace Tuplet

/-- The unit of a tuplet that fills `span` ticks. -/
def quantization (span size : Nat) : Nat := span / size

def ofSpan (span size : Nat) : Tuplet := ⟨size, span % size, 0⟩

/-- How many units `ticks` make, rounded to the nearest. -/
def units (quantization ticks : Nat) : Nat := (2 * ticks + quantization) / (2 * quantization)

/-- The ticks to add after `units` more units. -/
def pay (t : Tuplet) (units : Nat) : Nat × Tuplet :=
  let owed := t.owed + units * t.remainder
  (owed / t.divisor, { t with owed := owed % t.divisor })

theorem pay_owed_lt {t : Tuplet} (h : 0 < t.divisor) (units : Nat) :
    (t.pay units).2.owed < t.divisor :=
  Nat.mod_lt _ h

end Tuplet
end TextScore
