import TextScore.Binary64.Basic
import TextScore.Step

/-! The conductor: tempo and meter, which all channels share. Its log moves forward only, with
fillers for the time between events. Sums of ticks past 32 bits are set aside. -/
namespace TextScore

inductive ConductorEvent where
  | filler (wait : Nat)
  | tempo (bpm : Binary64)
  | timeSignature (numerator denominator : Nat)
  deriving DecidableEq, Repr

structure Conductor where
  events : Array ConductorEvent := #[]
  /-- Ticks and tempos, in order. -/
  tempos : Array (Nat × Binary64) := #[]
  position : Nat := 0
  deriving DecidableEq, Repr

namespace Conductor

def moveTo (offset position : Nat) : Step Conductor Unit := do
  let c ← get
  if position < c.position then Step.failAt offset .conductorBehind
  if c.position < position then
    set { c with events := c.events.push (.filler (position - c.position)), position := position }

def setTempo (bpm : Binary64) (c : Conductor) : Conductor :=
  { c with events := c.events.push (.tempo bpm), tempos := c.tempos.push (c.position, bpm) }

def setTimeSignature (numerator denominator : Nat) (c : Conductor) : Conductor :=
  { c with events := c.events.push (.timeSignature numerator denominator) }

end Conductor
end TextScore
