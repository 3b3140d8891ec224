import TextScore.Timeline.Basic

/-! All timelines of a performance, in the order they were created; an id is a place in that
order. Branches of parallel passages and voices of arpeggios are timelines of their own, listed by
the timeline they belong to. Cursors of all of them are compared as natural numbers: sums of ticks
past 32 bits are set aside. -/
namespace TextScore

structure Arena where
  timelines : Array Timeline := #[]

/-- A place in one of the two lists of children that a timeline has. -/
inductive Slot where
  | branch (index : Nat)
  | voice (index : Nat)
  deriving DecidableEq, Repr

namespace Slot

def index : Slot → Nat
  | branch i | voice i => i

def list : Slot → Timeline → Array TimelineId
  | branch _, t => t.children
  | voice _, t => t.voices

def push (id : TimelineId) (slot : Slot) (t : Timeline) : Timeline :=
  match slot with
  | branch _ => { t with children := t.children.push id }
  | voice _ => { t with voices := t.voices.push id }

end Slot

namespace Arena

def timeline (id : TimelineId) (arena : Arena) : Timeline :=
  arena.timelines[id]?.getD { channel := 0 }

def adjust (id : TimelineId) (f : Timeline → Timeline) (arena : Arena) : Arena :=
  ⟨arena.timelines.modify id f⟩

def adjustAll (ids : List TimelineId) (f : Timeline → Timeline) (arena : Arena) : Arena :=
  ids.foldl (fun arena id => arena.adjust id f) arena

def create (channel : Nat) (arena : Arena) : TimelineId × Arena :=
  (arena.timelines.size, ⟨arena.timelines.push { channel := channel }⟩)

/-- A step on one timeline. -/
def on {α : Type} (id : TimelineId) (step : Step Timeline α) : Step Arena α := fun arena =>
  if h : id < arena.timelines.size then
    -- The timeline is taken out of the array first, so that it is not shared while it changes.
    let (t, timelines) := arena.timelines.swapAt id { channel := 0 } h
    match step.run t with
    | .ok a t => .ok a ⟨timelines.setIfInBounds id t⟩
    | .error fault t => .error fault ⟨timelines.setIfInBounds id t⟩
  else match step.run { channel := 0 } with
    | .ok a _ => .ok a arena
    | .error fault _ => .error fault arena

/-- A change of one timeline that also answers. -/
def update {α : Type} (id : TimelineId) (change : Timeline → α × Timeline) : Step Arena α :=
  on id fun t => let (a, t) := change t; .ok a t

theorem on_eq {α : Type} (id : TimelineId) (step : Step Timeline α) (arena : Arena)
    (h : id < arena.timelines.size) :
    on id step arena = match step.run (arena.timeline id) with
      | .ok a t => .ok a ⟨arena.timelines.set id t⟩
      | .error fault t => .error fault ⟨arena.timelines.set id t⟩ := by
  have taken : arena.timeline id = arena.timelines[id] := by
    simp only [timeline, Array.getElem?_eq_getElem h, Option.getD_some]
  simp only [on, dif_pos h, Array.swapAt_def, taken]
  cases step.run arena.timelines[id] <;>
    simp only [Array.setIfInBounds_def, Array.size_set, dif_pos h, Array.set_set]

theorem timeline_adjust_self (id : TimelineId) (f : Timeline → Timeline) (arena : Arena)
    (h : id < arena.timelines.size) : (arena.adjust id f).timeline id = f (arena.timeline id) := by
  simp only [timeline, adjust, Array.getElem?_modify, if_pos, Array.getElem?_eq_getElem h,
    Option.map_some, Option.getD_some]

theorem timeline_adjust_ne {id other : TimelineId} (f : Timeline → Timeline) (arena : Arena)
    (h : id ≠ other) : (arena.adjust id f).timeline other = arena.timeline other := by
  simp only [timeline, adjust, Array.getElem?_modify, if_neg h]

/-- A new timeline of the parent's channel at the end of one of its lists. -/
def addChild (parent : TimelineId) (slot : Slot) (arena : Arena) : Arena :=
  let (id, arena) := arena.create (arena.timeline parent).channel
  arena.adjust parent (slot.push id)

/-- The child in a slot, created if need be along with those before it. It takes over the playing
state and the tuplet of its parent and rests up to the parent's cursor. -/
def childAt (parent : TimelineId) (offset : Nat) (slot : Slot) : Step Arena TimelineId := do
  let present := (slot.list ((← get).timeline parent)).size
  modify (Nat.repeat (addChild parent slot) (slot.index + 1 - present))
  let t := (← get).timeline parent
  let id := (slot.list t)[slot.index]?.getD 0
  modify (adjust id fun child => { child with state := t.state, tuplet := t.tuplet })
  let position := ((← get).timeline id).position
  if t.position < position then Step.failAt offset .childAheadOfParent
  modify (adjust id (·.pad (t.position - position)))
  return id

/-- Extends what was played last by one unit. -/
def tie (here : TimelineId) (offset : Nat) : Step Arena Nat := do
  let unit := ((← get).timeline here).state.quantization
  let extra ← update here (·.calibrate unit)
  let ticks := unit + extra
  let t := (← get).timeline here
  match t.last with
  | .nothing => Step.failAt offset .malformedTie
  | .note index => modify (adjust here (·.lengthenNote index ticks))
  | .rest => modify (adjust here (·.trail ticks))
  | .arpeggio count =>
    modify (adjust here (·.trail ticks))
    modify (adjustAll (t.voices.toList.take count) (·.lengthenLast ticks))
  return ticks

/-- One note of an arpeggio on a voice of its own, held until `held` ticks after the chord began. -/
def playVoice (offset held velocity rest delay pitch : Nat) (voice : Timeline) : Timeline :=
  ((voice.pad delay).pushNote offset true ⟨[pitch], held - delay, velocity, false⟩).trail rest

/-- One pitch for each voice, every voice `interval` ticks after the one before. -/
def playVoices (play : (delay pitch : Nat) → Timeline → Timeline) (interval : Nat) :
    (delay : Nat) → List (TimelineId × Nat) → Arena → Arena
  | _, [], arena => arena
  | delay, (voice, pitch) :: rest, arena =>
    playVoices play interval (delay + interval) rest (arena.adjust voice (play delay pitch))

/-- Commits a chord as an arpeggio. Graces sound first on the timeline itself. Then each pitch goes
to a voice, `interval` ticks after the one before, and all are released together while the timeline
itself is silent. -/
def commitArpeggio (here : TimelineId) (offset : Nat) (staged : Staged) (interval : Nat) :
    Step Arena Nat := do
  let extra ← update here (·.calibrate staged.ticks)
  let (graces, mains) := staged.notes.partition (·.grace)
  modify (adjust here (·.pushNotes offset graces))
  let advanced := Draft.sum Draft.duration graces
  match mains with
  | [] =>
    modify (adjust here (·.trail (staged.rest + extra)))
    return advanced + (staged.rest + extra)
  | chord :: _ =>
    let sounding := Draft.sum Draft.duration mains
    let held := if 0 < staged.rest then sounding else sounding + extra
    let rest := if 0 < staged.rest then staged.rest + extra else staged.rest
    if held ≤ interval * (chord.pitches.length - 1) then Step.failAt offset .arpeggioTooLong
    let voices ← (List.range chord.pitches.length).mapM fun i => childAt here offset (.voice i)
    modify (adjust here fun t =>
      { t.trail (held + rest) with last := .arpeggio chord.pitches.length })
    modify (playVoices (playVoice offset held chord.velocity rest) interval 0
      (voices.zip chord.pitches))
    return advanced + held + rest

end Arena
end TextScore
