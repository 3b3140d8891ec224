import TextScore.Binary64.Arithmetic
import TextScore.Staging.Basic
import TextScore.Timeline.Repeats
import TextScore.Timeline.Tuplet

/-! A timeline: one voice of the performance, with its playing state, a log of what it has played
and a cursor. Silence is not logged; it waits in `rests` until the next note takes it along.

Cursors, rests and durations are natural numbers, so their sums are exact. What becomes of a
performance with a sum of ticks that 32 bits cannot hold is set aside. -/
namespace TextScore

/-- The playing state that settings change. -/
structure Performance where
  octave : Int := 4
  /-- Ticks of a plain note. -/
  quantization : Nat := 32
  transpose : Int := 0
  velocity : Nat := 80
  deriving DecidableEq, Repr

structure Note where
  /-- Where in the text the note stands. -/
  offset : Nat
  pitches : List Nat
  /-- Silence before the note. -/
  wait : Nat
  start : Nat
  duration : Nat
  velocity : Nat
  grace : Bool
  arpeggio : Bool
  deriving DecidableEq, Repr

inductive Event where
  | note (note : Note)
  | program (program : Nat) (bank : Option Nat)
  | controller (controller : Nat) (value : Nat)
  deriving DecidableEq, Repr

def Event.note? : Event → Option Note
  | .note n => some n
  | _ => none

/-- Lengthens a note; other events have no length. -/
def Event.lengthen (ticks : Nat) : Event → Event
  | .note n => .note { n with duration := n.duration + ticks }
  | event => event

/-- What a tie extends. -/
inductive LastUnit where
  | nothing
  | note (index : Nat)
  | rest
  /-- The latest notes of so many voices. -/
  | arpeggio (voices : Nat)
  deriving DecidableEq, Repr

abbrev TimelineId := Nat

structure Timeline where
  channel : Nat
  state : Performance := {}
  events : Array Event := #[]
  /-- Ticks and values of the pitch-bend curve, as they were recorded. -/
  bends : Array (Nat × Binary64) := #[]
  /-- Timelines of the later branches of parallel passages. -/
  children : Array TimelineId := #[]
  /-- Timelines of the voices of arpeggios. -/
  voices : Array TimelineId := #[]
  /-- Silence that no note has taken along yet. -/
  rests : Nat := 0
  position : Nat := 0
  tuplet : Option Tuplet := none
  last : LastUnit := .nothing
  /-- The first child that no passage in progress uses. -/
  branchBase : Nat := 0
  repeats : Repeats := {}

namespace Timeline

def notes (t : Timeline) : List Note := t.events.toList.filterMap Event.note?

def inTuplet (t : Timeline) : Bool := t.tuplet.isSome

/-- The ticks that a tuplet owes after `ticks` more. -/
def calibrate (ticks : Nat) (t : Timeline) : Nat × Timeline :=
  match t.tuplet with
  | none => (0, t)
  | some tuplet =>
    let (extra, tuplet) := tuplet.pay (Tuplet.units (max t.state.quantization 1) ticks)
    (extra, { t with tuplet := some tuplet })

/-- Moves the cursor on in silence. -/
def trail (ticks : Nat) (t : Timeline) : Timeline :=
  { t with rests := t.rests + ticks, position := t.position + ticks }

/-- Rests for `length` ticks without regard to a tuplet. -/
def pad (length : Nat) (t : Timeline) : Timeline :=
  if length = 0 then t else { t.trail length with last := .rest }

/-- Rests for `length` ticks and what a tuplet owes for them; a rest without length is none. -/
def restFor (length : Nat) (t : Timeline) : Nat × Timeline :=
  if length = 0 then (0, t)
  else
    let (extra, t) := t.calibrate length
    (length + extra, t.pad (length + extra))

/-- Rests for one unit. -/
def rest (t : Timeline) : Nat × Timeline := t.restFor t.state.quantization

def pushNote (offset : Nat) (arpeggio : Bool) (draft : Draft) (t : Timeline) : Timeline :=
  let index := t.events.size
  let note : Note := {
    offset := offset
    pitches := draft.pitches
    wait := t.rests
    start := t.position
    duration := draft.duration
    velocity := draft.velocity
    grace := draft.grace
    arpeggio := arpeggio }
  { t with
    events := t.events.push (.note note)
    rests := 0
    position := t.position + draft.duration
    last := .note index }

def pushNotes (offset : Nat) (drafts : List Draft) (t : Timeline) : Timeline :=
  drafts.foldl (fun t draft => t.pushNote offset false draft) t

/-- Ticks owed by a tuplet lengthen the silence after the notes if there is any, and the last note
otherwise. -/
def extend (extra : Nat) (staged : Staged) : Staged :=
  if extra = 0 then staged
  else match staged.rest, staged.notes.getLast? with
    | 0, some draft =>
      { staged with notes :=
          staged.notes.dropLast ++ [{ draft with duration := draft.duration + extra }] }
    | rest, _ => { staged with rest := rest + extra }

/-- Logs what was staged; drafts without length are left out. -/
def commit (offset : Nat) (staged : Staged) (t : Timeline) : Nat × Timeline :=
  let (extra, t) := t.calibrate staged.ticks
  let staged := extend extra staged
  let drafts := staged.notes.filter (0 < ·.duration)
  (Draft.sum Draft.duration drafts + staged.rest, (t.pushNotes offset drafts).trail staged.rest)

def setInstrument (program : Nat) (bank : Option Nat) (t : Timeline) : Timeline :=
  { t with events := t.events.push (.program program bank) }

def setController (controller value : Nat) (t : Timeline) : Timeline :=
  { t with events := t.events.push (.controller controller value) }

/-- A bend lies between -1 and 1. -/
def addBend (position : Nat) (value : Binary64) (t : Timeline) : Timeline :=
  { t with bends := t.bends.push (position, value.clampUnit) }

/-- Claims the next `count` children; nested passages of a first branch get later ones. -/
def reserve (count : Nat) (t : Timeline) : Nat × Timeline :=
  (t.branchBase, { t with branchBase := t.branchBase + count })

def release (base : Nat) (t : Timeline) : Timeline := { t with branchBase := base }

/-- Returns the unit to go back to. -/
def beginTuplet (offset size : Nat) : Step Timeline Nat := do
  let t ← get
  if t.inTuplet then Step.failAt offset .tupletInTuplet
  let unit := t.state.quantization
  let quantization := Tuplet.quantization (2 * unit) size
  if quantization = 0 then Step.failAt offset (.tupletTooShort size)
  set { t with
    state := { t.state with quantization := quantization }
    tuplet := some (Tuplet.ofSpan (2 * unit) size) }
  return unit

def endTuplet (unit : Nat) (t : Timeline) : Timeline :=
  { t with state := { t.state with quantization := unit }, tuplet := none }

/-- Lengthens the note logged at `index`, and the cursor with it. -/
def lengthenNote (index ticks : Nat) (t : Timeline) : Timeline :=
  { t with events := t.events.modify index (·.lengthen ticks), position := t.position + ticks }

/-- Lengthens the note played last, if it was a note, and moves the cursor in any case. -/
def lengthenLast (ticks : Nat) (t : Timeline) : Timeline :=
  match t.last with
  | .note index => t.lengthenNote index ticks
  | _ => { t with position := t.position + ticks }

def onRepeats {α : Type} (step : Step Repeats α) : Step Timeline α :=
  step.within Timeline.repeats fun t r => { t with repeats := r }

end Timeline
end TextScore
