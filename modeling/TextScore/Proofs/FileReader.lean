import Mathlib.Algebra.GroupWithZero.Nat
import TextScore.Midi.File

/-! Reading Standard MIDI Files. A reader takes what it knows off the front of some bytes and refuses
everything else. Each part of a file that the writer can write is read back, whatever follows it. -/
namespace TextScore.Midi

/-- Takes a value off the front of some bytes, or refuses them. -/
abbrev FileReader (α : Type) := StateT (List UInt8) Option α

/-- What a file tells: messages at the ticks of their tracks. -/
structure Contents where
  format : Nat
  division : Nat
  tracks : List (List Timed)
  deriving DecidableEq, Repr

namespace FileReader
variable {α β : Type}

def refuse : FileReader α := fun _ => none

def nextByte : FileReader Nat
  | [] => none
  | b :: rest => some (b.toNat, rest)

def exactly (expected : Nat) : FileReader Unit := do
  if (← nextByte) = expected then return else refuse

/-- A number of so many bytes, the most significant first. -/
def number : (width : Nat) → FileReader Nat
  | 0 => return 0
  | width + 1 => do
    let high ← number width
    return 256 * high + (← nextByte)

/-- A number in at most so many groups of seven bits; each group but the last is marked. -/
def grouped : (groups high : Nat) → FileReader Nat
  | 0, _ => refuse
  | groups + 1, high => do
    let b ← nextByte
    if b < 128 then return 128 * high + b else grouped groups (128 * high + (b - 128))

def delay : FileReader Nat := grouped 4 0

/-- Data bytes have seven bits. -/
def datum : FileReader Nat := do
  let b ← nextByte
  if b < 128 then return b else refuse

def channelMessage : (nibble : Nat) → FileReader ChannelMessage
  | 8 => do
    let key ← datum
    exactly 0
    return .noteOff key
  | 9 => do
    let key ← datum
    return .noteOn key (← datum)
  | 11 => do
    let controller ← datum
    return .controller controller (← datum)
  | 12 => return .program (← datum)
  | 14 => do
    let low ← datum
    return .bend (low + 128 * (← datum))
  | _ => refuse

/-- Messages that belong to no channel say how long they are. -/
def metaMessage : FileReader Message := do
  let kind ← nextByte
  let length ← delay
  match kind, length with
  | 0x51, 3 => return .tempo (← number 3)
  | 0x58, 4 =>
    let numerator ← nextByte
    let power ← nextByte
    exactly 24
    exactly 8
    return .timeSignature numerator power
  | 0x2f, 0 => return .endOfTrack
  | _, _ => refuse

/-- The next byte if it is a status byte, and otherwise the status that goes on. -/
def status (running : Option Nat) : FileReader Nat
  | [] => none
  | b :: rest => if b.toNat < 128 then running.map (·, b :: rest) else some (b.toNat, rest)

/-- A message, and the status that goes on after it: messages of no channel end it. -/
def message (running : Option Nat) : FileReader (Option Nat × Message) := do
  let s ← status running
  if s = 0xff then return (none, ← metaMessage)
  else return (some s, .channel (s % 16) (← channelMessage (s / 16)))

/-- The messages of a track from a tick on, up to the one that ends it. -/
def messages : (limit tick : Nat) → (running : Option Nat) → FileReader (List Timed)
  | 0, _, _ => refuse
  | limit + 1, tick, running => do
    let tick := tick + (← delay)
    let (running, m) ← message running
    if m = .endOfTrack then return [⟨tick, m⟩]
    else return ⟨tick, m⟩ :: (← messages limit tick running)

def letters : List UInt8 → FileReader Unit
  | [] => return
  | letter :: rest => do
    exactly letter.toNat
    letters rest

/-- A reader of exactly the next `length` bytes, all of which it must take. -/
def confined (length : Nat) (content : FileReader α) : FileReader α := fun bytes =>
  if length ≤ bytes.length then match content.run (bytes.take length) with
    | some (a, []) => some (a, bytes.drop length)
    | _ => none
  else none

/-- A chunk of some type; what reads its content is told how long it is. -/
def chunk (type : String) (content : (length : Nat) → FileReader α) : FileReader α := do
  letters type.toUTF8.toList
  let length ← number 4
  confined length (content length)

/-- Each message takes at least one byte, so the length of a track bounds their number. -/
def track : FileReader (List Timed) := chunk "MTrk" fun length => messages length 0 none

def tracks : (count : Nat) → FileReader (List (List Timed))
  | 0 => return []
  | count + 1 => do
    let first ← track
    return first :: (← tracks count)

def file : FileReader Contents := do
  let (format, count, division) ← chunk "MThd" fun _ => do
    let format ← number 2
    let count ← number 2
    return (format, count, ← number 2)
  return ⟨format, division, ← tracks count⟩

end FileReader

/-- The contents of a whole file. -/
def read (bytes : List UInt8) : Option Contents :=
  match FileReader.file.run bytes with
  | some (contents, []) => some contents
  | _ => none

/-- Numbers that their data bytes can hold. -/
def ChannelMessage.Fits : ChannelMessage → Prop
  | noteOff key => key < 128
  | noteOn key velocity => key < 128 ∧ velocity < 128
  | controller number value => number < 128 ∧ value < 128
  | program number => number < 128
  | bend value => value < 128 * 128

def Message.Fits : Message → Prop
  | channel c m => c < 16 ∧ m.Fits
  | tempo micros => micros < 256 ^ 3
  | timeSignature numerator power => numerator < 256 ∧ power < 256
  | endOfTrack => True

/-- Whatever follows, the reader takes exactly these bytes and answers this value. -/
def Reads {α : Type} (p : FileReader α) (bytes : List UInt8) (a : α) : Prop :=
  ∀ rest, p.run (bytes ++ rest) = some (a, rest)

namespace Reads
open FileReader
variable {α β : Type} {p : FileReader α} {f : α → FileReader β} {a : α} {b : β}
  {bytes more : List UInt8}

theorem pure (a : α) : Reads (Pure.pure a) [] a := fun _ => rfl

theorem bind (first : Reads p bytes a) (second : Reads (f a) more b) :
    Reads (p >>= f) (bytes ++ more) b := by
  intro rest
  rw [StateT.run_bind, List.append_assoc, first]
  exact second rest

/-- The answer of a reader that takes no more bytes after its first part. -/
theorem map {g : α → β} (first : Reads p bytes a) :
    Reads (p >>= fun a => Pure.pure (g a)) bytes (g a) := by
  have done := first.bind (f := fun a => Pure.pure (g a)) (pure (g a))
  rwa [List.append_nil] at done

theorem nextByte (n : Nat) (small : n < 256) : Reads nextByte [byte n] n := by
  intro rest
  have same : (byte n).toNat = n := Nat.mod_eq_of_lt small
  exact congrArg (fun n => some (n, rest)) same

theorem exactly (n : Nat) (small : n < 256) : Reads (exactly n) [byte n] () := by
  intro rest
  simp only [FileReader.exactly, StateT.run_bind, nextByte n small rest, Option.bind_eq_bind,
    Option.bind_some, ↓reduceIte]
  rfl

theorem letters (bytes : List UInt8) : Reads (letters bytes) bytes () := by
  induction bytes with
  | nil => exact pure ()
  | cons letter rest ih =>
    have same : byte letter.toNat = letter := UInt8.ofNat_toNat
    have first := exactly letter.toNat letter.toNat_lt
    rw [same] at first
    exact first.bind ih

theorem datum (n : Nat) (small : n < 128) : Reads datum [dataByte n] n := by
  intro rest
  have seven : dataByte n = byte n := congrArg byte (Nat.mod_eq_of_lt small)
  simp only [FileReader.datum, seven, StateT.run_bind, nextByte n (by omega) rest,
    Option.bind_eq_bind, Option.bind_some, if_pos small]
  rfl

theorem number (width : Nat) {n : Nat} (small : n < 256 ^ width) :
    Reads (number width) (bigEndian width n) n := by
  induction width generalizing n with
  | zero =>
    obtain rfl : n = 0 := by simpa using small
    exact pure 0
  | succ width ih =>
    have high : n / 256 < 256 ^ width :=
      (Nat.div_lt_iff_lt_mul (by decide)).mpr (by rwa [Nat.pow_succ] at small)
    have done := (ih high).bind (f := fun high => FileReader.nextByte >>= fun low =>
      Pure.pure (256 * high + low)) (nextByte (n % 256) (Nat.mod_lt _ (by decide))).map
    rwa [Nat.div_add_mod] at done

theorem leadingGroups_of_ne {n : Nat} (positive : n ≠ 0) :
    leadingGroups n = leadingGroups (n / 128) ++ [byte (128 + n % 128)] := by
  rw [leadingGroups, dif_neg positive]

theorem length_leadingGroups {n k : Nat} (small : n < 128 ^ k) : (leadingGroups n).length ≤ k := by
  induction k generalizing n with
  | zero =>
    obtain rfl : n = 0 := by simpa using small
    rw [leadingGroups, dif_pos rfl]
    exact Nat.le_refl 0
  | succ k ih =>
    by_cases zero : n = 0
    · rw [leadingGroups, dif_pos zero]
      exact Nat.zero_le _
    · have high : n / 128 < 128 ^ k :=
        (Nat.div_lt_iff_lt_mul (by decide)).mpr (by rwa [Nat.pow_succ] at small)
      rw [leadingGroups_of_ne zero, List.length_append, List.length_singleton]
      exact Nat.succ_le_succ (ih high)

/-- A marked group leaves the rest of the number to the groups after it. -/
theorem grouped_marked {n left high : Nat} (small : n < 128) (rest : List UInt8) :
    (grouped (left + 1) high).run (byte (128 + n) :: rest) =
      (grouped left (128 * high + n)).run rest := by
  have taken : FileReader.nextByte.run (byte (128 + n) :: rest) = some (128 + n, rest) :=
    nextByte (128 + n) (by omega) rest
  have marked : ¬ 128 + n < 128 := by omega
  simp only [grouped, StateT.run_bind, taken, Option.bind_eq_bind, Option.bind_some, if_neg marked,
    Nat.add_sub_cancel_left]

theorem grouped_leading (n : Nat) {left : Nat} (rest : List UInt8) :
    (grouped (left + (leadingGroups n).length) 0).run (leadingGroups n ++ rest) =
      (grouped left n).run rest := by
  induction n using Nat.strongRecOn generalizing left rest with
  | ind n ih =>
    by_cases zero : n = 0
    · subst zero
      rw [leadingGroups, dif_pos rfl]
      rfl
    · have smaller : n / 128 < n := Nat.div_lt_self (Nat.pos_of_ne_zero zero) (by decide)
      rw [leadingGroups_of_ne zero, List.length_append, List.length_singleton, List.append_assoc,
        Nat.add_comm _ 1, ← Nat.add_assoc, ih (n / 128) smaller, List.singleton_append,
        grouped_marked (Nat.mod_lt n (by decide)), Nat.div_add_mod]

/-- Delays that the writer need not cut are read back. -/
theorem delay {n : Nat} (short : n < 0x10000000) : Reads delay (variableLength n) n := by
  intro rest
  have high : n / 128 < 128 ^ 3 := by omega
  have few := length_leadingGroups high
  have last : dataByte n = byte (n % 128) := rfl
  obtain ⟨left, groups⟩ : ∃ left, 4 = left + 1 + (leadingGroups (n / 128)).length :=
    ⟨3 - (leadingGroups (n / 128)).length, by omega⟩
  rw [FileReader.delay, groups, variableLength, Nat.mod_eq_of_lt short, List.append_assoc,
    grouped_leading, last]
  have taken : FileReader.nextByte.run (byte (n % 128) :: rest) = some (n % 128, rest) :=
    nextByte (n % 128) (by omega) rest
  simp only [grouped, List.singleton_append, StateT.run_bind, taken, Option.bind_eq_bind,
    Option.bind_some, if_pos (Nat.mod_lt n (by decide : 0 < 128)), Nat.div_add_mod]
  rfl

/-- What a channel message says after its status byte. -/
theorem channelMessage {m : ChannelMessage} (fits : m.Fits) :
    Reads (channelMessage m.statusNibble) m.data m := by
  cases m with
  | noteOff key =>
    exact (datum key fits).bind (f := fun key => FileReader.exactly 0 >>= fun _ =>
      Pure.pure (ChannelMessage.noteOff key)) ((exactly 0 (by decide)).map (g := fun _ => _))
  | noteOn key velocity =>
    exact (datum key fits.1).bind (f := fun key => FileReader.datum >>= fun velocity =>
      Pure.pure (ChannelMessage.noteOn key velocity)) (datum velocity fits.2).map
  | controller number value =>
    exact (datum number fits.1).bind (f := fun number => FileReader.datum >>= fun value =>
      Pure.pure (ChannelMessage.controller number value)) (datum value fits.2).map
  | program number => exact (datum number fits).map
  | bend value =>
    have low : dataByte value = dataByte (value % 128) :=
      congrArg byte (Nat.mod_mod value 128).symm
    have joined : value % 128 + 128 * (value / 128) = value := Nat.mod_add_div value 128
    have done := (datum (value % 128) (Nat.mod_lt _ (by decide))).bind
      (f := fun low => FileReader.datum >>= fun high =>
        Pure.pure (ChannelMessage.bend (low + 128 * high)))
      (datum (value / 128) (Nat.div_lt_of_lt_mul fits)).map
    rw [joined, ← low] at done
    exact done

theorem metaMessage_tempo {micros : Nat} (fits : micros < 256 ^ 3) :
    Reads metaMessage ([0x51, 3] ++ bigEndian 3 micros) (.tempo micros) := by
  intro rest
  have told := (number 3 fits).map (g := Message.tempo) rest
  exact told

theorem metaMessage_timeSignature {numerator power : Nat} (beats : numerator < 256)
    (unit : power < 256) :
    Reads metaMessage [0x58, 4, byte numerator, byte power, 24, 8]
      (.timeSignature numerator power) := by
  intro rest
  have told := (nextByte numerator beats).bind
    (f := fun numerator => FileReader.nextByte >>= fun power => FileReader.exactly 24 >>= fun _ =>
      FileReader.exactly 8 >>= fun _ => Pure.pure (Message.timeSignature numerator power))
    ((nextByte power unit).bind ((exactly 24 (by decide)).bind
      ((exactly 8 (by decide)).map (g := fun _ => _)))) rest
  exact told

theorem metaMessage_endOfTrack : Reads metaMessage [0x2f, 0] .endOfTrack := fun _ => rfl

theorem data_cons (m : ChannelMessage) :
    ∃ n rest, m.data = byte n :: rest ∧ n < 128 := by
  cases m with
  | noteOff key => exact ⟨_, _, rfl, Nat.mod_lt _ (by decide)⟩
  | noteOn key => exact ⟨_, _, rfl, Nat.mod_lt _ (by decide)⟩
  | controller number => exact ⟨_, _, rfl, Nat.mod_lt _ (by decide)⟩
  | program number => exact ⟨_, _, rfl, Nat.mod_lt _ (by decide)⟩
  | bend value => exact ⟨_, _, rfl, Nat.mod_lt _ (by decide)⟩

theorem statusNibble_bounds (m : ChannelMessage) : 8 ≤ m.statusNibble ∧ m.statusNibble < 15 := by
  cases m <;> simp only [ChannelMessage.statusNibble] <;> decide

theorem toNat_status {channel : Nat} (m : ChannelMessage) (real : channel < 16) :
    (m.status channel).toNat = 16 * m.statusNibble + channel := by
  have small := (statusNibble_bounds m).2
  rw [ChannelMessage.status, Nat.mod_eq_of_lt real]
  exact Nat.mod_eq_of_lt (by omega)

/-- A status byte that was left out is the one that goes on. -/
theorem status {channel : Nat} (running : Option UInt8) (m : ChannelMessage) (real : channel < 16)
    (rest : List UInt8) :
    (status (running.map UInt8.toNat)).run
        ((encodeMessage running (.channel channel m)).2 ++ rest) =
      some (16 * m.statusNibble + channel, m.data ++ rest) := by
  rw [← toNat_status m real]
  obtain ⟨n, more, data, small⟩ := data_cons m
  have first : (byte n).toNat = n := Nat.mod_eq_of_lt (by omega)
  simp only [encodeMessage]
  split
  · next same =>
    rw [same, data]
    exact if_pos (Nat.lt_of_le_of_lt (Nat.le_of_eq first) small)
  · have marked : ¬ (m.status channel).toNat < 128 := by
      have high := (statusNibble_bounds m).1
      rw [toNat_status m real]
      omega
    exact if_neg marked

theorem message (running : Option UInt8) {m : Message} (fits : m.Fits) :
    Reads (message (running.map UInt8.toNat)) (encodeMessage running m).2
      ((encodeMessage running m).1.map UInt8.toNat, m) := by
  have other {bytes : List UInt8} (told : Reads metaMessage bytes m) :
      Reads (FileReader.message (running.map UInt8.toNat)) (0xff :: bytes) (none, m) :=
    fun rest => told.map (g := fun m => (none, m)) rest
  cases m with
  | channel channel m =>
    intro rest
    have high := (statusNibble_bounds m).2
    have real := fits.1
    have plain : 16 * m.statusNibble + channel ≠ 0xff := by omega
    have number : (16 * m.statusNibble + channel) % 16 = channel := by omega
    have nibble : (16 * m.statusNibble + channel) / 16 = m.statusNibble := by omega
    simp only [FileReader.message, StateT.run_bind, status running m real, Option.bind_eq_bind,
      Option.bind_some, if_neg plain, number, nibble, channelMessage fits.2 rest]
    exact congrArg (fun s => some ((some s, _), rest)) (toNat_status m real).symm
  | tempo micros => exact other (metaMessage_tempo fits)
  | timeSignature numerator power => exact other (metaMessage_timeSignature fits.1 fits.2)
  | endOfTrack => exact other metaMessage_endOfTrack

end Reads
end TextScore.Midi
