import TextScore.Binary64.Arithmetic
import TextScore.Midi.Message

/-! Standard MIDI Files of format 1: a header and one chunk for each track. -/
namespace TextScore.Midi

/-- A message at a tick of its track. -/
structure Timed where
  tick : Nat
  message : Message
  deriving DecidableEq, Repr

def Message.isNoteOff : Message → Bool
  | .channel _ (.noteOff _) => true
  | _ => false

/-- A beat of up to 2^24 - 1 microseconds, but at least one. -/
def beatMicros (bpm : Binary64) : Nat :=
  match .ofNat 60000000 / bpm with
  | .nan _ => 0
  | micros => max 1 (micros.toNat 16777215)

/-- Bends from -1 to 1 lie around the middle of fourteen bits. -/
def bendValue (value : Binary64) : Nat :=
  (.ofNat 8192 + value.clampUnit * .ofNat 8191 : Binary64).toNat 65535

/-- How often a byte can be halved; zero counts all its bits. -/
def powerOfTwo (n : Nat) : Nat :=
  ((List.range 8).find? fun i => (n >>> i) % 2 = 1).getD 8

/-- The messages of one event at the cursor, and where the cursor is after it. -/
def ofEvent (channel cursor : Nat) : TrackEvent → List Timed × Nat
  | .note pitches wait duration velocity =>
    let start := cursor + wait
    let stop := start + duration
    (pitches.flatMap fun p =>
      [⟨start, .channel channel (.noteOn p velocity)⟩, ⟨stop, .channel channel (.noteOff p)⟩], stop)
  | .program program bank =>
    let select := match bank with
      | some b => [⟨cursor, .channel channel (.controller 0 b)⟩]
      | none => []
    (select ++ [⟨cursor, .channel channel (.program program)⟩], cursor)
  | .controller controller value =>
    ([⟨cursor, .channel channel (.controller controller value)⟩], cursor)
  | .filler wait => ([], cursor + wait)
  | .tempo bpm => ([⟨cursor, .tempo (beatMicros bpm)⟩], cursor)
  | .timeSignature numerator denominator =>
    ([⟨cursor, .timeSignature numerator (powerOfTwo denominator)⟩], cursor)
  | .bend wait value =>
    ([⟨cursor + wait, .channel channel (.bend (bendValue value))⟩], cursor + wait)

def ofEvents (channel cursor : Nat) : List TrackEvent → List Timed
  | [] => []
  | event :: rest =>
    let (timed, cursor) := ofEvent channel cursor event
    timed ++ ofEvents channel cursor rest

/-- By tick; at one tick notes end before anything else happens. -/
def precedes (a b : Timed) : Bool :=
  a.tick < b.tick ∨ a.tick = b.tick ∧ (a.message.isNoteOff ∨ ¬ b.message.isNoteOff)

def delays (previous : Nat) : List Timed → List (Nat × Message)
  | [] => []
  | t :: rest => (t.tick - previous, t.message) :: delays t.tick rest

/-- Channels are counted from 1, and from 0 in messages; the conductor writes as the first. -/
def messages (track : Track) : List (Nat × Message) :=
  let channel := (track.channel.getD 0) - 1
  delays 0 ((ofEvents channel 0 track.events).mergeSort precedes) ++ [(0, .endOfTrack)]

/-- A four-letter type, the length of the content, and the content. -/
def chunk (type : String) (content : List UInt8) : List UInt8 :=
  type.toUTF8.toList ++ bigEndian 4 content.length ++ content

def trackChunk (track : Track) : List UInt8 :=
  chunk "MTrk" (encodeMessages none (messages track))

def header (tracks : Nat) : List UInt8 :=
  chunk "MThd" (bigEndian 2 1 ++ bigEndian 2 tracks ++ bigEndian 2 Duration.ticksPerBeat)

/-- The header counts tracks in two bytes. -/
def mostTracks : Nat := 65535

def write (tracks : List Track) : List UInt8 :=
  header tracks.length ++ tracks.flatMap trackChunk

end TextScore.Midi
