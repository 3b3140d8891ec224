import TextScore.Conductor
import TextScore.Definitions
import TextScore.Gas
import TextScore.Staging.Modifier
import TextScore.Timeline.Arena

/-! The state of one performance of a score. -/
namespace TextScore

structure Session where
  gas : Gas
  definitions : Definitions := {}
  arena : Arena := {}
  /-- Timelines that channels started, in order. -/
  channels : Array TimelineId := #[]
  conductor : Conductor := {}
  /-- What a fermata multiplies durations by; two unless the score says otherwise. -/
  fermata : Binary64 := .finite false 0x10000000000000 (-51)
  /-- Of the ornaments around the current item, innermost first. -/
  modifiers : List Modifier := []
  /-- Offset and pitches of graces that wait for their note. -/
  graces : Option (Nat × List (List Nat)) := none
  /-- Earliest and latest onset so far. -/
  onsets : Option (Nat × Nat) := none
  /-- Set while a dynamics span is measured on a copy of the session. -/
  measuring : Bool := false

abbrev Play (α : Type) := Step Session α

namespace Session
variable {α : Type}

def onGas (step : Step Gas α) : Play α :=
  step.within Session.gas fun s gas => { s with gas := gas }

def onDefinitions (step : Step Definitions α) : Play α :=
  step.within Session.definitions fun s d => { s with definitions := d }

def onConductor (step : Step Conductor α) : Play α :=
  step.within Session.conductor fun s c => { s with conductor := c }

/-- The arena is taken out of the session first, so that it is not shared while it changes. -/
def onArena (step : Step Arena α) : Play α := fun s =>
  let arena := s.arena
  let s := { s with arena := {} }
  match step.run arena with
  | .ok a arena => .ok a { s with arena := arena }
  | .error fault arena => .error fault { s with arena := arena }

def burn (offset : Nat) : Play Unit := onGas (Gas.burn offset)

theorem burn_run (offset : Nat) (s : Session) : (burn offset).run s =
    if s.gas.remaining - 1 = 0 then
      .error ⟨.exhausted, offset⟩ { s with gas := ⟨s.gas.remaining - 1⟩ }
    else .ok () { s with gas := ⟨s.gas.remaining - 1⟩ } := by
  by_cases last : s.gas.remaining - 1 = 0 <;>
    simp only [burn, onGas, Step.within_run, Gas.burn_run, last, reduceIte]

def timeline (here : TimelineId) : Play Timeline := return (← get).arena.timeline here

def adjust (here : TimelineId) (f : Timeline → Timeline) : Play Unit :=
  modify fun s => { s with arena := s.arena.adjust here f }

def update (here : TimelineId) (change : Timeline → α × Timeline) : Play α :=
  onArena (Arena.update here change)

def onTimeline (here : TimelineId) (step : Step Timeline α) : Play α :=
  onArena (Arena.on here step)

def pushModifier (m : Modifier) : Play Unit :=
  modify fun s => { s with modifiers := m :: s.modifiers }

def popModifier : Play Unit := modify fun s => { s with modifiers := s.modifiers.tail }

end Session
end TextScore
