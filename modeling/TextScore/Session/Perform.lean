import TextScore.Session.Note
import TextScore.Session.Setting

/-! Performing items. Items hold items, and references bring in others, so each construct is given
the performance of the items inside it. `perform` closes the knot by a bound on the depth: every
item burns gas before anything inside it is performed, so the gas left bounds the depth. -/
namespace TextScore.Session

/-- How an item is performed on a timeline, inside so many references; it answers the ticks by
which the timeline moved on. -/
abbrev Performer := (here : TimelineId) → (references : Nat) → Item → Play Nat

/-- Timelines take nothing more past this tick. -/
def longest : Nat := 134217728

def mostReferences : Nat := 64

/-- Bends are sampled every so many ticks. -/
def bendResolution : Nat := 8

def performAll (inner : Performer) (here : TimelineId) (references : Nat) (items : List Item) :
    Play Nat :=
  items.foldlM (fun ticks item => do return ticks + (← inner here references item)) 0

/-- One reference deeper. -/
def refer (references offset : Nat) : Play Nat :=
  if mostReferences ≤ references then Step.failAt offset .nestedTooDeeply
  else return references + 1

def shiftOctave (here : TimelineId) (octaves : Int) : Play Unit :=
  adjust here fun t => { t with state := { t.state with octave := t.state.octave + octaves } }

def performOctave (inner : Performer) (here : TimelineId) (references : Nat) (octaves : Int)
    (body : List Item) : Play Nat := do
  shiftOctave here octaves
  let ticks ← performAll inner here references body
  shiftOctave here (-octaves)
  return ticks

def performTuplet (inner : Performer) (here : TimelineId) (references offset size : Nat)
    (body : List Item) : Play Nat := do
  let unit ← onTimeline here (Timeline.beginTuplet offset size)
  let ticks ← performAll inner here references body
  adjust here (Timeline.endTuplet unit)
  return ticks

def performSustain (inner : Performer) (here : TimelineId) (references : Nat)
    (body : List Item) : Play Nat := do
  adjust here (Timeline.setController sustainController 127)
  let ticks ← performAll inner here references body
  adjust here (Timeline.setController sustainController 0)
  return ticks

/-- The template is performed once for each key, with the key in the place of placeholders. -/
def invokeWith (inner : Performer) (here : TimelineId) (references : Nat) (name : String)
    (template : List Item) : Item → Play Nat
  | .key k => do
    burn k.offset
    let base ← keyPitch here k
    let octave := (← timeline here).state.octave
    pushModifier (.substitute base octave)
    let ticks ← performAll inner here references template
    popModifier
    return ticks
  | .setting s => inner here references (.setting s)
  | .rest offset => inner here references (.rest offset)
  | item => Step.failAt item.offset (.invokedWithoutKey name)

def invoke (inner : Performer) (here : TimelineId) (references offset : Nat) (name : String)
    (body : List Item) : Play Nat := do
  let template ← onDefinitions (Definitions.template name offset)
  let references ← refer references offset
  performAll (fun here references => invokeWith inner here references name template)
    here references body

def performRange (inner : Performer) (here : TimelineId) (references offset : Nat)
    (kind : RangeKind) (body : List Item) : Play Nat :=
  match kind with
  | .octaveUp => performOctave inner here references 1 body
  | .octaveDown => performOctave inner here references (-1) body
  | .tuplet size => performTuplet inner here references offset size body
  | .sustain => performSustain inner here references body
  | .userRange name => invoke inner here references offset name body

def underModifier (inner : Performer) (here : TimelineId) (references : Nat) (m : Modifier)
    (body : List Item) : Play Nat := do
  pushModifier m
  let ticks ← performAll inner here references body
  popModifier
  return ticks

/-- The earliest and the latest onset of a body, found by performing it on a copy of the session.
The copy is thrown away with what it burnt, but a failure on it is a failure. -/
def measure (inner : Performer) (here : TimelineId) (references offset : Nat)
    (body : List Item) : Play (Nat × Nat) := fun s =>
  let copy := { s with onsets := none, measuring := true }
  match (performAll inner here references body).run copy with
  | .error fault _ => .error fault s
  | .ok _ measured => match measured.onsets with
    | some bounds => .ok bounds s
    | none => .error ⟨.dynamicsWithoutNote, offset⟩ s

def setVelocity (here : TimelineId) (velocity : Nat) : Play Unit :=
  adjust here fun t => { t with state := { t.state with velocity := velocity } }

/-- A crescendo or decrescendo leads from the velocity of the timeline to `target` across the
onsets of its body. While an outer one is measured only onsets matter, and these do not depend on
velocities. -/
def performDynamics (inner : Performer) (here : TimelineId) (references offset : Nat)
    (direction : Direction) (target : Nat) (body : List Item) : Play Nat := do
  let start := (← timeline here).state.velocity
  let useless := match direction with
    | .crescendo => decide (target ≤ start)
    | .decrescendo => decide (start ≤ target)
  if useless then Step.failAt offset (.uselessDynamics direction start target)
  let ticks ←
    if (← get).measuring then performAll inner here references body
    else do
      let (first, last) ← measure inner here references offset body
      underModifier inner here references (.dynamics ⟨start, target, first, last⟩) body
  setVelocity here target
  return ticks

/-- Points of a line from one bend to another, from tick `first` up to before tick `last`. -/
def bendSamples (start target : Binary64) (first last : Nat) : List (Nat × Binary64) :=
  let span := last - first
  (List.range ((span + bendResolution - 1) / bendResolution)).map fun i =>
    let elapsed := i * bendResolution
    (first + elapsed, start + (target - start) * .ofNat elapsed / .ofNat span)

def addBends (bends : List (Nat × Binary64)) (t : Timeline) : Timeline :=
  bends.foldl (fun t (position, value) => t.addBend position value) t

/-- Where the curve of a pitch bend has got to. -/
structure BendPoint where
  ticks : Nat
  value : Binary64
  position : Nat

/-- A line to each breakpoint of the body, and back to no bend at its end. -/
def performBend (inner : Performer) (here : TimelineId) (references : Nat) (body : List Item) :
    Play Nat := do
  let step (point : BendPoint) (item : Item) : Play BendPoint := do
    match item with
    | .breakpoint _ value =>
      let target := value.clampUnit
      let position := (← timeline here).position
      adjust here (addBends (bendSamples point.value target point.position position))
      adjust here (Timeline.addBend position target)
      return ⟨point.ticks, target, position⟩
    | item => return { point with ticks := point.ticks + (← inner here references item) }
  let final ← body.foldlM step ⟨0, .zero, (← timeline here).position⟩
  let position := (← timeline here).position
  adjust here (Timeline.addBend position .zero)
  return final.ticks

def performOrnament (inner : Performer) (here : TimelineId) (references offset : Nat)
    (kind : Ornament) (body : List Item) : Play Nat := do
  match kind with
  | .staccato => underModifier inner here references .staccato body
  | .fermata => underModifier inner here references (.fermata (← get).fermata) body
  | .sforzando => underModifier inner here references .sforzando body
  | .trill => underModifier inner here references .trill body
  | .crescendo target => performDynamics inner here references offset .crescendo target body
  | .decrescendo target => performDynamics inner here references offset .decrescendo target body
  | .pitchBend => performBend inner here references body

/-- After a key, chord, ornament or tie no graces may be left over. -/
def requireNoGraces : Play Unit := do
  match ← takeGraces with
  | none => return
  | some (offset, _) => Step.failAt offset .graceWithoutNote

def performKey (here : TimelineId) (k : Key) : Play Nat := do
  commit here k.offset [← keyPitch here k] false

def performChord (here : TimelineId) (c : Chord) : Play Nat := do
  commit here c.offset (← chordPitches here 0 c) c.arpeggio

/-- A branch of a parallel passage other than the first. What it defines holds inside it only. -/
def performBranch (inner : Performer) (references offset expected : Nat)
    (branch : TimelineId × List Item) : Play Unit := do
  let before ← get
  let definitions := before.definitions
  let fermata := before.fermata
  let ticks ← performAll inner branch.1 references branch.2
  modify fun s => { s with definitions := definitions, fermata := fermata }
  if ticks ≠ expected then Step.failAt offset (.branchesDiffer expected ticks)

/-- The first branch is played here, the others on children, and all must last equally long. -/
def performParallel (inner : Performer) (here : TimelineId) (references offset : Nat) :
    List (List Item) → Play Nat
  | [] => return 0
  | branch :: branches => do
    let base ← update here (Timeline.reserve branches.length)
    let children ← (List.range branches.length).mapM fun i =>
      onArena (Arena.childAt here offset (.branch (base + i)))
    let expected ← performAll inner here references branch
    adjust here (Timeline.release base)
    (children.zip branches).forM (performBranch inner references offset expected)
    return expected

/-- One item, given how the items inside it are performed. -/
def performWith (inner : Performer) : Performer := fun here references item => do
  if let .breakpoint offset _ := item then Step.failAt offset .strayBreakpoint
  burn item.offset
  if longest < (← timeline here).position then Step.failAt item.offset .songTooLong
  match item with
  | .setting s => applySetting here s s.offset; return 0
  | .range offset kind body => performRange inner here references offset kind body
  | .group offset id body =>
    onDefinitions (Definitions.declareGroup id body offset)
    performAll inner here references body
  | .groupRef offset id =>
    let references ← refer references offset
    performAll inner here references (← onDefinitions (Definitions.group id offset))
  | .parallel offset branches => performParallel inner here references offset branches
  | .emoji offset symbol =>
    applySetting here (← onDefinitions (Definitions.emoji symbol offset)) offset
    return 0
  | .rest _ => update here Timeline.rest
  | .graced offset graces main =>
    if let .tie _ := main then Step.failAt offset .graceOnTie
    prepareGraces here offset graces
    performSound inner here references main
  | sound => performSound inner here references sound
where
  performSound (inner : Performer) (here : TimelineId) (references : Nat) (sound : Item) :
      Play Nat := do
    let ticks ← match sound with
      | .key k => performKey here k
      | .chord c => performChord here c
      | .ornament offset kind body => performOrnament inner here references offset kind body
      | .tie offset => onArena (Arena.tie here offset)
      | item => inner here references item
    requireNoGraces
    return ticks

def perform : (depth : Nat) → Performer
  | 0 => fun _ _ item => do
    burn item.offset
    Step.failAt item.offset .exhausted
  | depth + 1 => performWith (perform depth)

end TextScore.Session
