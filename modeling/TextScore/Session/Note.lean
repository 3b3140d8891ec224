import TextScore.Session.Basic

/-! From keys to committed notes: pitches of keys, chords and graces on a timeline, and the way of
a key or chord through the modifiers into the log. -/
namespace TextScore.Session

/-- An octave mark more or less on a key. -/
def raise (octaves : Int) (key : Key) : Key := { key with octave := key.octave + octaves }

/-- The transposition of the timeline does not touch a placeholder; the key that invoked its
template has it already. -/
def keyPitch (here : TimelineId) (key : Key) : Play Nat := do
  let s ← get
  let state := (s.arena.timeline here).state
  let pitch ← match key.tone with
    | .pitchClass c =>
      pure (Pitch.midi? (state.octave + key.octave) c (state.transpose + key.semitones))
    | .placeholder => match Modifier.substitution? s.modifiers with
      | none => Step.failAt key.offset .unresolvedPlaceholder
      | some (base, octave) =>
        let shift := 12 * (key.octave + state.octave - octave) + key.semitones
        pure (Pitch.ofInt? (Int.ofNat base + shift))
  match pitch with
  | some p => return p
  | none => Step.failAt key.offset .pitchOutOfRange

def chordPitches (here : TimelineId) (octaves : Int) (chord : Chord) : Play (List Nat) := do
  if chord.keys.isEmpty then Step.failAt chord.offset .emptyChord
  chord.keys.mapM fun key => keyPitch here (raise octaves key)

mutual

/-- The graces of one item; ranges can only shift octaves. -/
def gracePitches (here : TimelineId) (octaves : Int) : Item → Play (List (List Nat))
  | .key k => return [[← keyPitch here (raise octaves k)]]
  | .chord c => return [← chordPitches here octaves c]
  | .range offset kind body => match kind with
    | .octaveUp => allGracePitches here (octaves + 1) body
    | .octaveDown => allGracePitches here (octaves - 1) body
    | _ => Step.failAt offset .graceRangeKind
  | item => Step.failAt item.offset .graceItem

def allGracePitches (here : TimelineId) (octaves : Int) : List Item → Play (List (List Nat))
  | [] => return []
  | item :: rest => do
    let pitches ← gracePitches here octaves item
    return pitches ++ (← allGracePitches here octaves rest)

end

/-- Graces wait in the session for the note that they precede. -/
def prepareGraces (here : TimelineId) (offset : Nat) (items : List Item) : Play Unit := do
  let pitches ← allGracePitches here 0 items
  if pitches.isEmpty then Step.failAt offset .emptyGrace
  modify fun s => { s with graces := some (offset, pitches) }

def takeGraces : Play (Option (Nat × List (List Nat))) :=
  modifyGet fun s => (s.graces, { s with graces := none })

/-- A note of one unit, shortened by the graces that wait for it. -/
def stage (here : TimelineId) (pitches : List Nat) : Play Staged := do
  let state := (← timeline here).state
  let main (duration : Nat) : Draft := ⟨pitches, duration, state.velocity, false⟩
  match ← takeGraces with
  | none => return ⟨[main state.quantization], 0⟩
  | some (offset, graces) =>
    let length := Modifier.graceLength * graces.length
    if state.quantization ≤ length then Step.failAt offset .graceTooLong
    let drafts := graces.map fun pitches => ⟨pitches, Modifier.graceLength, state.velocity, true⟩
    return ⟨drafts ++ [main (state.quantization - length)], 0⟩

def widen (bounds : Option (Nat × Nat)) (tick : Nat) : Option (Nat × Nat) :=
  match bounds with
  | none => some (tick, tick)
  | some (first, last) => some (min first tick, max last tick)

/-- Plays pitches for one unit, as a note or as an arpeggio, and returns the ticks it took. -/
def commit (here : TimelineId) (offset : Nat) (pitches : List Nat) (arpeggio : Bool) :
    Play Nat := do
  let onset := (← timeline here).position
  let plain ← stage here pitches
  let modifiers := (← get).modifiers
  let staged := Modifier.applyAll modifiers onset plain
  modify fun s => { s with onsets := (Draft.onsets onset staged.notes).foldl widen s.onsets }
  if arpeggio then
    onArena (Arena.commitArpeggio here offset staged (Modifier.arpeggioInterval modifiers))
  else update here (Timeline.commit offset staged)

end TextScore.Session
