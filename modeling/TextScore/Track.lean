import TextScore.Session.Basic

/-! Tracks: the performance as sequences of events. Waits and durations move a track's cursor on;
everything else happens at the cursor. Sums of ticks past 32 bits are set aside. -/
namespace TextScore

inductive TrackEvent where
  | note (pitches : List Nat) (wait duration velocity : Nat)
  | program (program : Nat) (bank : Option Nat)
  | controller (controller value : Nat)
  | filler (wait : Nat)
  | tempo (bpm : Binary64)
  | timeSignature (numerator denominator : Nat)
  | bend (wait : Nat) (value : Binary64)
  deriving DecidableEq, Repr

def TrackEvent.isNote : TrackEvent → Bool
  | .note .. => true
  | _ => false

structure Track where
  /-- The track of the conductor has no channel. -/
  channel : Option Nat
  events : List TrackEvent
  deriving DecidableEq, Repr

namespace Track

def noteCount (t : Track) : Nat := t.events.countP TrackEvent.isNote

def ofConductorEvent : ConductorEvent → TrackEvent
  | .filler wait => .filler wait
  | .tempo bpm => .tempo bpm
  | .timeSignature numerator denominator => .timeSignature numerator denominator

def ofEvent : Event → TrackEvent
  | .note n => .note n.pitches n.wait n.duration n.velocity
  | .program program bank => .program program bank
  | .controller controller value => .controller controller value

def ofConductor (c : Conductor) : Track := ⟨none, c.events.toList.map ofConductorEvent⟩

/-- Waits between bends at rising ticks. -/
def bendEvents (cursor : Nat) : List (Nat × Binary64) → List TrackEvent
  | [] => []
  | (tick, value) :: rest => .bend (tick - cursor) value :: bendEvents tick rest

/-- Bends of one tick stay in the order in which they were recorded. -/
def ofBends (channel : Nat) (bends : List (Nat × Binary64)) : Track :=
  ⟨some channel, bendEvents 0 (bends.mergeSort fun a b => a.1 ≤ b.1)⟩

/-- The bends of a timeline, then its events; neither makes a track if it is empty. -/
def ofTimeline (t : Timeline) : List Track :=
  (if t.bends.isEmpty then [] else [ofBends t.channel t.bends.toList]) ++
    (if t.events.isEmpty then [] else [⟨some t.channel, t.events.toList.map ofEvent⟩])

/-- A timeline, then its children and its voices with all below them. A child is younger than its
parent, so the number of timelines bounds the depth. -/
def ofTree (arena : Arena) : (depth : Nat) → TimelineId → List Track
  | 0, _ => []
  | depth + 1, here =>
    let t := arena.timeline here
    ofTimeline t ++ (t.children ++ t.voices).toList.flatMap (ofTree arena depth)

def assemble (conductor : Conductor) (arena : Arena) (channels : List TimelineId) : List Track :=
  ofConductor conductor :: channels.flatMap (ofTree arena arena.timelines.size)

def ofSession (s : Session) : List Track := assemble s.conductor s.arena s.channels.toList

end Track
end TextScore
