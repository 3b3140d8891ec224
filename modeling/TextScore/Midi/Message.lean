import TextScore.Track

/-! MIDI messages and the bytes that carry them. Data bytes have seven bits, channels four and
bends fourteen; what does not fit loses its high bits. -/
namespace TextScore.Midi

inductive ChannelMessage where
  | noteOff (key : Nat)
  | noteOn (key velocity : Nat)
  | controller (number value : Nat)
  | program (number : Nat)
  | bend (value : Nat)
  deriving DecidableEq, Repr

inductive Message where
  | channel (channel : Nat) (message : ChannelMessage)
  /-- Microseconds of a beat. -/
  | tempo (micros : Nat)
  /-- The denominator is given by its power of two. -/
  | timeSignature (numerator power : Nat)
  | endOfTrack
  deriving DecidableEq, Repr

def byte (n : Nat) : UInt8 := UInt8.ofNat n

def dataByte (n : Nat) : UInt8 := byte (n % 128)

/-- So many bytes, the most significant first. -/
def bigEndian : (width : Nat) → Nat → List UInt8
  | 0, _ => []
  | width + 1, n => bigEndian width (n / 256) ++ [byte (n % 256)]

theorem length_bigEndian (width n : Nat) : (bigEndian width n).length = width := by
  induction width generalizing n with
  | zero => rfl
  | succ width ih => simp only [bigEndian, List.length_append, ih, List.length_singleton]

namespace ChannelMessage

/-- The high half of the status byte. -/
def statusNibble : ChannelMessage → Nat
  | noteOff _ => 8
  | noteOn .. => 9
  | controller .. => 11
  | program _ => 12
  | bend _ => 14

def status (channel : Nat) (m : ChannelMessage) : UInt8 :=
  byte (16 * m.statusNibble + channel % 16)

def data : ChannelMessage → List UInt8
  | noteOff key => [dataByte key, 0]
  | noteOn key velocity => [dataByte key, dataByte velocity]
  | controller number value => [dataByte number, dataByte value]
  | program number => [dataByte number]
  | bend value => [dataByte value, dataByte (value / 128)]

end ChannelMessage

/-- The groups of seven bits of a number but the last, each marked as being followed. -/
def leadingGroups (n : Nat) : List UInt8 :=
  if h : n = 0 then []
  else
    have : n / 128 < n := Nat.div_lt_self (Nat.pos_of_ne_zero h) (by decide)
    leadingGroups (n / 128) ++ [byte (128 + n % 128)]

/-- A number of up to 28 bits in groups of seven. -/
def variableLength (n : Nat) : List UInt8 :=
  let n := n % 0x10000000
  leadingGroups (n / 128) ++ [dataByte n]

/-- A message after a delay. The status byte is left out if the message before had the same one;
messages that belong to no channel cancel it. -/
def encodeMessage (running : Option UInt8) : Message → Option UInt8 × List UInt8
  | .channel channel m =>
    let status := m.status channel
    (some status, if running = some status then m.data else status :: m.data)
  | .tempo micros => (none, [0xff, 0x51, 3] ++ bigEndian 3 micros)
  | .timeSignature numerator power => (none, [0xff, 0x58, 4, byte numerator, byte power, 24, 8])
  | .endOfTrack => (none, [0xff, 0x2f, 0])

def encodeMessages (running : Option UInt8) : List (Nat × Message) → List UInt8
  | [] => []
  | (delay, m) :: rest =>
    let (running, bytes) := encodeMessage running m
    variableLength delay ++ bytes ++ encodeMessages running rest

end TextScore.Midi
