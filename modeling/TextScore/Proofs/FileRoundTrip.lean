import Mathlib
import TextScore.Proofs.FileReader
import TextScore.Proofs.Placement

/-! Files tell what the tracks say. What is written is read back as the messages of every track at
their ticks: in the order of the log, but earlier ticks first, and at one tick ends of notes
first. -/
namespace TextScore

/-- Numbers that a file has room for. -/
def TrackEvent.Fits : TrackEvent → Prop
  | .note pitches _ _ velocity => (∀ p ∈ pitches, p ≤ 127) ∧ velocity ≤ 127
  | .program number bank => number ≤ 127 ∧ ∀ b ∈ bank, b ≤ 127
  | .controller number value => number ≤ 127 ∧ value ≤ 127
  | .timeSignature numerator _ => numerator ≤ 255
  | .filler _ | .tempo _ | .bend .. => True

instance : DecidablePred TrackEvent.Fits
  | .note .. | .program .. | .controller .. => inferInstanceAs (Decidable (_ ∧ _))
  | .timeSignature .. => inferInstanceAs (Decidable (_ ≤ _))
  | .filler _ | .tempo _ | .bend .. => inferInstanceAs (Decidable True)

structure Track.Fits (track : Track) : Prop where
  channel : ∀ c ∈ track.channel, 1 ≤ c ∧ c ≤ 16
  events : ∀ event ∈ track.events, event.Fits

instance (track : Track) : Decidable track.Fits :=
  decidable_of_iff ((∀ c ∈ track.channel, 1 ≤ c ∧ c ≤ 16) ∧ ∀ event ∈ track.events, event.Fits)
    ⟨fun fits => ⟨fits.1, fits.2⟩, fun fits => ⟨fits.channel, fits.events⟩⟩

namespace Midi

/-- How often a denominator can be halved, up to the eight times of a byte: the greatest power of two
that divides it. Zero can be halved for ever. -/
def halvings (denominator : Nat) : Nat := Nat.findGreatest (2 ^ · ∣ denominator) 8

/-- What an event says if it comes at a cursor. A bend is a number of fourteen bits. -/
def said (channel cursor : Nat) : TrackEvent → List Timed
  | .note pitches wait duration velocity => pitches.flatMap fun p =>
    [⟨cursor + wait, .channel channel (.noteOn p velocity)⟩,
      ⟨cursor + wait + duration, .channel channel (.noteOff p)⟩]
  | .program program none => [⟨cursor, .channel channel (.program program)⟩]
  | .program program (some bank) =>
    [⟨cursor, .channel channel (.controller 0 bank)⟩, ⟨cursor, .channel channel (.program program)⟩]
  | .controller controller value => [⟨cursor, .channel channel (.controller controller value)⟩]
  | .filler _ => []
  | .tempo bpm => [⟨cursor, .tempo (beatMicros bpm)⟩]
  | .timeSignature numerator denominator =>
    [⟨cursor, .timeSignature numerator (halvings denominator)⟩]
  | .bend wait value => [⟨cursor + wait, .channel channel (.bend (bendValue value % 128 ^ 2))⟩]

/-- What a track says, in the order of its log. Each event comes at the cursor that the waits and
durations before it add up to. -/
def log (track : Track) : List Timed :=
  track.events.zipIdx.flatMap fun (event, index) =>
    said (track.channel.getD 0 - 1) (Track.span (track.events.take index)) event

/-- The message lets a key go. -/
def Message.Releases (m : Message) : Prop := ∃ channel key, m = .channel channel (.noteOff key)

theorem isNoteOff_iff {m : Message} : m.isNoteOff = true ↔ m.Releases := by
  constructor
  · intro off
    unfold Message.isNoteOff at off
    split at off
    · exact ⟨_, _, rfl⟩
    · cases off
  · rintro ⟨channel, key, rfl⟩
    rfl

instance : DecidablePred Message.Releases := fun _ => decidable_of_iff _ isNoteOff_iff

/-- The order in which messages are sent: by tick, and at one tick those that end a note first.
Otherwise nothing changes places. -/
structure Arranged (log sent : List Timed) : Prop where
  perm : sent.Perm log
  ordered : sent.Pairwise fun a b =>
    a.tick < b.tick ∨ a.tick = b.tick ∧ (b.message.Releases → a.message.Releases)
  stable : ∀ tick releases,
    sent.filter (fun t => t.tick = tick ∧ decide t.message.Releases = releases) =
      log.filter fun t => t.tick = tick ∧ decide t.message.Releases = releases

/-- The tick of the last message. -/
def lastTick : (previous : Nat) → List Timed → Nat
  | previous, [] => previous
  | _, t :: rest => lastTick t.tick rest

/-- All that a track says, in the order in which it is sent, and the end of the track. -/
def Transcribes (track : Track) (chunk : List Timed) : Prop :=
  ∃ sent, Arranged (log track) sent ∧ chunk = sent ++ [⟨lastTick 0 sent, .endOfTrack⟩]

section Order

theorem precedes_iff {a b : Timed} : precedes a b = true ↔
    a.tick < b.tick ∨ a.tick = b.tick ∧ (b.message.Releases → a.message.Releases) := by
  simp only [precedes, decide_eq_true_eq, Bool.not_eq_true, ← isNoteOff_iff]
  cases a.message.isNoteOff <;> cases b.message.isNoteOff <;> simp

theorem precedes_trans (a b c : Timed) (first : precedes a b = true) (second : precedes b c = true) :
    precedes a c = true := by
  rw [precedes_iff] at first second ⊢
  rcases first with earlier | ⟨same, ends⟩ <;> rcases second with earlier' | ⟨same', ends'⟩
  · exact .inl (Nat.lt_trans earlier earlier')
  · exact .inl (same' ▸ earlier)
  · exact .inl (same ▸ earlier')
  · exact .inr ⟨same.trans same', fun off => ends (ends' off)⟩

theorem precedes_total (a b : Timed) : (precedes a b || precedes b a) = true := by
  rw [Bool.or_eq_true, precedes_iff, precedes_iff]
  rcases Nat.lt_trichotomy a.tick b.tick with earlier | same | later
  · exact .inl (.inl earlier)
  · by_cases releases : a.message.Releases
    · exact .inl (.inr ⟨same, fun _ => releases⟩)
    · exact .inr (.inr ⟨same.symm, fun first => absurd first releases⟩)
  · exact .inr (.inl later)

/-- Sorting arranges messages. -/
theorem arranged_mergeSort (log : List Timed) : Arranged log (log.mergeSort precedes) := by
  have perm := List.mergeSort_perm log precedes
  refine ⟨perm, ?_, fun tick releases => ?_⟩
  · exact (List.pairwise_mergeSort precedes_trans precedes_total log).imp precedes_iff.mp
  · refine filter_mergeSort precedes_trans precedes_total (fun a b first second => ?_) log
    obtain ⟨there, ends⟩ := of_decide_eq_true first
    obtain ⟨there', ends'⟩ := of_decide_eq_true second
    have same := decide_eq_decide.mp (ends'.trans ends.symm)
    exact precedes_iff.mpr (.inr ⟨there.trans there'.symm, same.mp⟩)

end Order

section Halving
variable {n power : Nat}

/-- One power of two divides a denominator while the next one does not. -/
theorem halvings_eq (few : power ≤ 8) (divides : 2 ^ power ∣ n) (most : ¬ 2 ^ (power + 1) ∣ n) :
    halvings n = power :=
  Nat.findGreatest_eq_iff.mpr ⟨few, fun _ => divides, fun _ more _ whole =>
    most ((Nat.pow_dvd_pow 2 more).trans whole)⟩

/-- All powers that a byte can have divide zero. -/
theorem halvings_eq_eight (divides : 2 ^ 8 ∣ n) : halvings n = 8 := Nat.findGreatest_eq divides

theorem halvings_lt (n : Nat) : halvings n < 256 :=
  Nat.lt_of_le_of_lt (Nat.findGreatest_le 8) (by decide)

/-- Low bits that are all zero make a multiple of a power of two. -/
theorem two_pow_dvd (zeros : ∀ i < power, ¬ (n >>> i) % 2 = 1) : 2 ^ power ∣ n := by
  induction power with
  | zero => exact Nat.one_dvd n
  | succ power ih =>
    obtain ⟨rest, rfl⟩ := ih fun i low => zeros i (Nat.lt_succ_of_lt low)
    have even := zeros power (Nat.lt_succ_self power)
    rw [Nat.shiftRight_eq_div_pow, Nat.mul_div_cancel_left rest (Nat.two_pow_pos power)] at even
    rw [Nat.pow_succ]
    exact Nat.mul_dvd_mul_left _ (Nat.dvd_of_mod_eq_zero (by omega))

/-- The lowest bit of a denominator tells how often it can be halved. -/
theorem powerOfTwo_eq (n : Nat) : powerOfTwo n = halvings n := by
  unfold powerOfTwo
  cases found : (List.range 8).find? fun i => (n >>> i) % 2 = 1 with
  | none =>
    have divides : 2 ^ 8 ∣ n := by
      apply two_pow_dvd
      intro i low odd
      exact List.find?_eq_none.mp found i (List.mem_range.mpr low) (decide_eq_true odd)
    exact (halvings_eq_eight divides).symm
  | some i =>
    obtain ⟨odd, low, before⟩ := List.find?_range_eq_some.mp found
    have divides : 2 ^ i ∣ n := by
      apply two_pow_dvd
      intro j lower odd
      simpa only [odd, decide_true, Bool.not_true, Bool.false_eq_true] using before j lower
    have most : ¬ 2 ^ (i + 1) ∣ n := by
      rintro ⟨rest, rfl⟩
      have even : ((2 ^ (i + 1) * rest) >>> i) % 2 = 0 := by
        rw [Nat.shiftRight_eq_div_pow, Nat.pow_succ, Nat.mul_assoc,
          Nat.mul_div_cancel_left _ (Nat.two_pow_pos i), Nat.mul_mod_right]
      exact Nat.zero_ne_one (even.symm.trans (of_decide_eq_true odd))
    exact (halvings_eq (Nat.le_of_lt (List.mem_range.mp low)) divides most).symm

example : [0, 1, 6, 8, 128].map halvings = [8, 0, 1, 3, 7] := by decide

end Halving

section Carried

/-- Of a bend, the fourteen bits that are written. -/
def Message.carried : Message → Message
  | .channel c (.bend value) => .channel c (.bend (value % 128 ^ 2))
  | m => m

def Timed.carried (t : Timed) : Timed := { t with message := t.message.carried }

theorem isNoteOff_carried (m : Message) : m.carried.isNoteOff = m.isNoteOff := by
  cases m with
  | channel c m => cases m <;> rfl
  | tempo | timeSignature | endOfTrack => rfl

theorem precedes_carried (a b : Timed) : precedes a b = precedes a.carried b.carried := by
  simp only [precedes, Timed.carried, isNoteOff_carried]

theorem encodeMessage_carried (running : Option UInt8) (m : Message) :
    encodeMessage running m.carried = encodeMessage running m := by
  cases m with
  | tempo | timeSignature | endOfTrack => rfl
  | channel c m => cases m with
    | noteOff | noteOn | controller | program => rfl
    | bend value =>
      have low : dataByte (value % 128 ^ 2) = dataByte value := congrArg byte (by omega)
      have high : dataByte (value % 128 ^ 2 / 128) = dataByte (value / 128) :=
        congrArg byte (by omega)
      have data : (ChannelMessage.bend (value % 128 ^ 2)).data = (ChannelMessage.bend value).data := by
        rw [ChannelMessage.data, low, high, ChannelMessage.data]
      simp only [Message.carried, encodeMessage, data]
      rfl

theorem encodeMessages_carried (running : Option UInt8) (delayed : List (Nat × Message)) :
    encodeMessages running (delayed.map (Prod.map id Message.carried)) =
      encodeMessages running delayed := by
  induction delayed generalizing running with
  | nil => rfl
  | cons first rest ih =>
    simp only [List.map_cons, Prod.map, id, encodeMessages, encodeMessage_carried, ih]

theorem delays_carried (previous : Nat) (sent : List Timed) :
    delays previous (sent.map Timed.carried) =
      (delays previous sent).map (Prod.map id Message.carried) := by
  induction sent generalizing previous with
  | nil => rfl
  | cons t rest ih =>
    simp only [List.map_cons, delays, ih]
    rfl

theorem ofEvent_carried (channel cursor : Nat) (event : TrackEvent) :
    (ofEvent channel cursor event).1.map Timed.carried = said channel cursor event := by
  cases event with
  | note pitches wait duration velocity =>
    simp only [ofEvent, said, List.map_flatMap, List.map_cons, List.map_nil]
    rfl
  | program program bank => cases bank <;> rfl
  | timeSignature numerator denominator =>
    rw [ofEvent, said, powerOfTwo_eq]
    rfl
  | controller | filler | tempo | bend => rfl

theorem ofEvents_carried (channel cursor : Nat) (events : List TrackEvent) :
    (ofEvents channel cursor events).map Timed.carried =
      events.zipIdx.flatMap fun (event, index) =>
        said channel (cursor + Track.span (events.take index)) event := by
  induction events generalizing cursor with
  | nil => rfl
  | cons event events ih =>
    simp only [ofEvents, List.map_append, ofEvent_carried, Track.ofEvent_cursor, ih,
      List.zipIdx_cons', List.flatMap_cons, List.flatMap_map, Prod.map, id, List.take_zero,
      Track.span, Nat.add_zero, List.take_succ_cons, Nat.add_assoc]

/-- The messages of a track are the sorted log. -/
theorem sorted_carried (track : Track) :
    ((ofEvents (track.channel.getD 0 - 1) 0 track.events).mergeSort precedes).map Timed.carried =
      (log track).mergeSort precedes := by
  rw [List.map_mergeSort (fun a _ b _ => precedes_carried a b), ofEvents_carried]
  simp only [Nat.zero_add, log]

end Carried

section Reading

theorem beatMicros_lt (bpm : Binary64) : beatMicros bpm < 256 ^ 3 := by
  have small : ∀ micros : Binary64, micros.toNat 16777215 ≤ 16777215 := by
    intro micros
    unfold Binary64.toNat
    split
    · exact Nat.min_le_left ..
    · exact Nat.le_refl _
    · exact Nat.zero_le _
  unfold beatMicros
  split
  · decide
  · have micros := small (.ofNat 60000000 / bpm)
    omega

/-- Whatever an event that fits says, its messages have room for it. -/
theorem said_fits {channel : Nat} (real : channel < 16) (cursor : Nat) {event : TrackEvent}
    (fits : event.Fits) {t : Timed} (told : t ∈ said channel cursor event) :
    t.message.Fits ∧ t.message ≠ .endOfTrack := by
  cases event with
  | note pitches wait duration velocity =>
    obtain ⟨p, listed, told⟩ := List.mem_flatMap.mp told
    have pitch := Nat.lt_succ_of_le (fits.1 p listed)
    have loud := Nat.lt_succ_of_le fits.2
    simp only [List.mem_cons, List.not_mem_nil, or_false] at told
    rcases told with rfl | rfl
    · exact ⟨⟨real, pitch, loud⟩, Message.noConfusion⟩
    · exact ⟨⟨real, pitch⟩, Message.noConfusion⟩
  | program program bank =>
    have number := Nat.lt_succ_of_le fits.1
    cases bank with
    | none =>
      obtain rfl := List.mem_singleton.mp told
      exact ⟨⟨real, number⟩, Message.noConfusion⟩
    | some bank =>
      have select := Nat.lt_succ_of_le (fits.2 bank rfl)
      simp only [said, List.mem_cons, List.not_mem_nil, or_false] at told
      rcases told with rfl | rfl
      · exact ⟨⟨real, by decide, select⟩, Message.noConfusion⟩
      · exact ⟨⟨real, number⟩, Message.noConfusion⟩
  | controller controller value =>
    obtain rfl := List.mem_singleton.mp told
    exact ⟨⟨real, Nat.lt_succ_of_le fits.1, Nat.lt_succ_of_le fits.2⟩, Message.noConfusion⟩
  | filler wait => exact nomatch told
  | tempo bpm =>
    obtain rfl := List.mem_singleton.mp told
    exact ⟨beatMicros_lt bpm, Message.noConfusion⟩
  | timeSignature numerator denominator =>
    obtain rfl := List.mem_singleton.mp told
    exact ⟨⟨Nat.lt_succ_of_le fits, halvings_lt denominator⟩, Message.noConfusion⟩
  | bend wait value =>
    obtain rfl := List.mem_singleton.mp told
    exact ⟨⟨real, Nat.mod_lt _ (by decide)⟩, Message.noConfusion⟩

theorem log_fits {track : Track} (fits : track.Fits) {t : Timed} (told : t ∈ log track) :
    t.message.Fits ∧ t.message ≠ .endOfTrack := by
  obtain ⟨⟨event, index⟩, listed, told⟩ := List.mem_flatMap.mp told
  have real : track.channel.getD 0 - 1 < 16 := by
    cases channel : track.channel with
    | none => decide
    | some c =>
      have bounds := fits.channel c channel
      simp only [Option.getD_some]
      omega
  exact said_fits real _ (fits.events event (List.fst_mem_of_mem_zipIdx listed)) told

/-- One message is read; what follows it depends on whether it ends the track. -/
theorem reads_message {delay tick limit : Nat} {running : Option UInt8} {m : Message}
    {delayed : List (Nat × Message)} {sent : List Timed} (short : delay < 2 ^ 28) (fits : m.Fits)
    (rest : Reads (if m = .endOfTrack then return [⟨tick + delay, m⟩] else do
      return ⟨tick + delay, m⟩ :: (← FileReader.messages limit (tick + delay)
        ((encodeMessage running m).1.map UInt8.toNat)))
      (encodeMessages (encodeMessage running m).1 delayed) sent) :
    Reads (FileReader.messages (limit + 1) tick (running.map UInt8.toNat))
      (encodeMessages running ((delay, m) :: delayed)) sent := by
  have split : encodeMessages running ((delay, m) :: delayed) = variableLength delay ++
      ((encodeMessage running m).2 ++ encodeMessages (encodeMessage running m).1 delayed) :=
    List.append_assoc ..
  rw [split]
  exact (Reads.delay short).bind ((Reads.message running fits).bind rest)

/-- Messages whose delays are not cut are read back at their ticks. -/
theorem reads_messages {previous : Nat} {sent : List Timed} (running : Option UInt8) {limit : Nat}
    (fits : ∀ t ∈ sent, t.message.Fits ∧ t.message ≠ .endOfTrack)
    (ordered : (previous :: sent.map Timed.tick).Pairwise (· ≤ ·))
    (close : ∀ delayed ∈ delays previous sent, delayed.1 < 2 ^ 28) (many : sent.length ≤ limit) :
    Reads (FileReader.messages (limit + 1) previous (running.map UInt8.toNat))
      (encodeMessages running (delays previous sent ++ [(0, .endOfTrack)]))
      (sent ++ [⟨lastTick previous sent, .endOfTrack⟩]) := by
  induction sent generalizing previous running limit with
  | nil =>
    apply reads_message (m := .endOfTrack) (show 0 < 2 ^ 28 by decide) trivial
    rw [if_pos rfl]
    exact .pure _
  | cons t rest ih =>
    obtain ⟨first, ordered⟩ := List.pairwise_cons.mp ordered
    have later : previous + (t.tick - previous) = t.tick :=
      Nat.add_sub_cancel' (first t.tick List.mem_cons_self)
    obtain ⟨limit, rfl⟩ := Nat.exists_eq_add_one_of_ne_zero (Nat.ne_zero_of_lt many)
    have told := fits t List.mem_cons_self
    apply reads_message (close _ List.mem_cons_self) told.1
    rw [if_neg told.2, later]
    refine Reads.map (ih _ (fun t listed => fits t (List.mem_cons_of_mem _ listed)) ordered
      (fun delayed listed => close delayed (List.mem_cons_of_mem _ listed)) ?_)
    exact Nat.le_of_succ_le_succ many

/-- A chunk whose length fits four bytes is read to its end. -/
theorem reads_chunk {α : Type} {type : String} {content : List UInt8} (told : Nat → FileReader α)
    {a : α} (short : content.length < 2 ^ 32) (inside : Reads (told content.length) content a) :
    Reads (FileReader.chunk type told) (chunk type content) a := by
  have all : Reads (FileReader.confined content.length (told content.length)) content a := by
    intro rest
    have whole : (told content.length).run content = some (a, []) := by
      have done := inside []
      rwa [List.append_nil] at done
    have enough : content.length ≤ (content ++ rest).length := by
      rw [List.length_append]
      exact Nat.le_add_right ..
    simp only [FileReader.confined, StateT.run, if_pos enough, List.take_left', List.drop_left']
    rw [StateT.run] at whole
    rw [whole]
  have split : chunk type content =
      type.toUTF8.toList ++ (bigEndian 4 content.length ++ content) := List.append_assoc ..
  rw [split]
  exact (Reads.letters _).bind ((Reads.number 4 short).bind all)

theorem length_encodeMessages (running : Option UInt8) (delayed : List (Nat × Message)) :
    delayed.length ≤ (encodeMessages running delayed).length := by
  induction delayed generalizing running with
  | nil => exact Nat.le_refl 0
  | cons first rest ih =>
    have delay : 1 ≤ (variableLength first.1).length := by
      rw [variableLength, List.length_append, List.length_singleton]
      exact Nat.le_add_left ..
    have more := ih (encodeMessage running first.2).1
    simp only [encodeMessages, List.length_append, List.length_cons]
    omega

theorem length_delays (previous : Nat) (sent : List Timed) :
    (delays previous sent).length = sent.length := by
  induction sent generalizing previous with
  | nil => rfl
  | cons t rest ih => exact congrArg (· + 1) (ih t.tick)

/-- The messages of a track with their delays, once bends are cut to what is written. -/
theorem messages_carried (track : Track) :
    (messages track).map (Prod.map id Message.carried) =
      delays 0 ((log track).mergeSort precedes) ++ [(0, .endOfTrack)] := by
  rw [messages, List.map_append, ← delays_carried, sorted_carried]
  rfl

theorem reads_track {track : Track} (fits : track.Fits)
    (close : ∀ delayed ∈ messages track, delayed.1 < 2 ^ 28)
    (short : (encodeMessages none (messages track)).length < 2 ^ 32) :
    ∃ chunk, Reads FileReader.track (trackChunk track) chunk ∧ Transcribes track chunk := by
  have arranged := arranged_mergeSort (log track)
  have same := encodeMessages_carried none (messages track)
  rw [messages_carried] at same
  have close' : ∀ delayed ∈ delays 0 ((log track).mergeSort precedes), delayed.1 < 2 ^ 28 := by
    intro delayed listed
    have listed := List.mem_append_left [(0, Message.endOfTrack)] listed
    rw [← messages_carried] at listed
    obtain ⟨original, found, rfl⟩ := List.mem_map.mp listed
    exact close original found
  generalize (log track).mergeSort precedes = sent at arranged same close'
  have told : ∀ t ∈ sent, t.message.Fits ∧ t.message ≠ .endOfTrack :=
    fun t listed => log_fits fits (arranged.perm.mem_iff.mp listed)
  have ordered : (0 :: sent.map Timed.tick).Pairwise (· ≤ ·) := by
    refine List.pairwise_cons.mpr ⟨fun tick _ => Nat.zero_le tick, List.pairwise_map.mpr ?_⟩
    exact arranged.ordered.imp fun before => before.elim Nat.le_of_lt fun same => Nat.le_of_eq same.1
  have many : sent.length + 1 ≤ (encodeMessages none (messages track)).length := by
    have each := length_encodeMessages none (delays 0 sent ++ [(0, .endOfTrack)])
    rwa [same, List.length_append, length_delays] at each
  refine ⟨_, reads_chunk (fun length => FileReader.messages length 0 none)
    short ?_, sent, arranged, rfl⟩
  obtain ⟨limit, length⟩ := Nat.exists_eq_add_one_of_ne_zero (Nat.ne_zero_of_lt many)
  rw [length] at many ⊢
  have done := reads_messages none told ordered close' (Nat.le_of_succ_le_succ many)
  rwa [same] at done

theorem reads_tracks {tracks : List Track} {chunks : List (List Timed)}
    (each : List.Forall₂ (fun track => Reads FileReader.track (trackChunk track)) tracks chunks) :
    Reads (FileReader.tracks tracks.length) (tracks.flatMap trackChunk) chunks := by
  induction each with
  | nil => exact .pure _
  | cons first _ ih => exact first.bind ih.map

theorem reads_header {count : Nat} (few : count ≤ mostTracks) :
    Reads (FileReader.chunk "MThd" fun _ => do
      let format ← FileReader.number 2
      let count ← FileReader.number 2
      return (format, count, ← FileReader.number 2))
      (header count) (1, count, Duration.ticksPerBeat) := by
  have small : count < 256 ^ 2 := Nat.lt_succ_of_le few
  refine reads_chunk _ ?_ ?_
  · simp only [List.length_append, length_bigEndian]
    decide
  · rw [List.append_assoc]
    exact (Reads.number 2 (by decide)).bind
      ((Reads.number 2 small).bind (Reads.number 2 (by decide)).map)

end Reading

/-- What is written is read back, if the delays are short enough to be written whole. A byte holds
the numerator of a time signature, and a chunk tells its length in four: there is no file with a
longer one. -/
theorem read_write {tracks : List Track} (few : tracks.length ≤ 65535)
    (fits : ∀ track ∈ tracks, track.Fits)
    (close : ∀ track ∈ tracks, ∀ delayed ∈ messages track, delayed.1 < 2 ^ 28)
    (short : ∀ track ∈ tracks, (encodeMessages none (messages track)).length < 2 ^ 32) :
    ∃ chunks, read (write tracks) = some ⟨1, 128, chunks⟩ ∧
      List.Forall₂ Transcribes tracks chunks := by
  obtain ⟨chunks, each, told⟩ : ∃ chunks,
      List.Forall₂ (fun track => Reads FileReader.track (trackChunk track)) tracks chunks ∧
        List.Forall₂ Transcribes tracks chunks := by
    clear few
    induction tracks with
    | nil => exact ⟨[], .nil, .nil⟩
    | cons track tracks ih =>
      obtain ⟨chunk, first, told⟩ := reads_track (fits track List.mem_cons_self)
        (close track List.mem_cons_self) (short track List.mem_cons_self)
      obtain ⟨chunks, rest, told'⟩ := ih (fun track listed => fits track (.tail _ listed))
        (fun track listed => close track (.tail _ listed))
        (fun track listed => short track (.tail _ listed))
      exact ⟨chunk :: chunks, .cons first rest, .cons told told'⟩
  refine ⟨chunks, ?_, told⟩
  have done : Reads FileReader.file (write tracks) ⟨1, 128, chunks⟩ :=
    (reads_header few).bind (reads_tracks each).map
  have whole := done []
  rw [List.append_nil] at whole
  rw [read, whole]

/-- A meter after a long silence, and a chord that ends where its upper key is struck again. -/
def struckAgain : List Track :=
  [⟨none, [.filler 268435455, .timeSignature 255 8]⟩,
    ⟨some 16, [.program 127 (some 5), .note [60, 127] 7 16384 127, .controller 64 127,
      .note [127] 0 1 0]⟩]

theorem read_write_of_struckAgain :
    ∃ chunks, read (write struckAgain) = some ⟨1, 128, chunks⟩ ∧
      List.Forall₂ Transcribes struckAgain chunks := by
  have sent : struckAgain.map messages =
      [[(268435455, .timeSignature 255 3), (0, .endOfTrack)],
        [(0, .channel 15 (.controller 0 5)), (0, .channel 15 (.program 127)),
          (7, .channel 15 (.noteOn 60 127)), (0, .channel 15 (.noteOn 127 127)),
          (16384, .channel 15 (.noteOff 60)), (0, .channel 15 (.noteOff 127)),
          (0, .channel 15 (.controller 64 127)), (0, .channel 15 (.noteOn 127 0)),
          (1, .channel 15 (.noteOff 127)), (0, .endOfTrack)]] := by cbv
  have close : ∀ delays ∈ struckAgain.map messages, ∀ d ∈ delays, d.1 < 2 ^ 28 := by
    rw [sent]
    decide
  have short : ∀ delays ∈ struckAgain.map messages, (encodeMessages none delays).length < 2 ^ 32 := by
    rw [sent]
    decide +kernel
  exact read_write (by decide) (by decide) (List.forall_mem_map.mp close)
    (List.forall_mem_map.mp short)

end Midi
end TextScore
