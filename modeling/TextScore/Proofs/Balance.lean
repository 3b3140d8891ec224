import Mathlib
import TextScore.Proofs.FileRoundTrip

/-! No note hangs and none is swallowed. As messages are sent a key never ends more often than it has
started, at the end of the track it has ended as often, and a note has ended before a later one
starts. -/
namespace TextScore

/-- Only notes have to last. -/
def TrackEvent.Lasts : TrackEvent → Prop
  | .note _ _ duration _ => 1 ≤ duration
  | _ => True

instance : DecidablePred TrackEvent.Lasts
  | .note .. => inferInstanceAs (Decidable (_ ≤ _))
  | .program .. | .controller .. | .filler _ | .tempo _ | .timeSignature .. | .bend .. =>
    inferInstanceAs (Decidable True)

namespace Midi

/-- Whether the message starts this key. Of a key the low seven bits are sent. -/
def Message.starts (key : Nat) : Message → Bool
  | .channel _ (.noteOn k _) => k % 128 = key
  | _ => false

/-- Whether the message ends this key. -/
def Message.ends (key : Nat) : Message → Bool
  | .channel _ (.noteOff k) => k % 128 = key
  | _ => false

def Message.isNoteOn : Message → Bool
  | .channel _ (.noteOn ..) => true
  | _ => false

section Keys
variable {channel key k velocity : Nat}

theorem Message.not_releases_of_isNoteOn {m : Message} (on : m.isNoteOn) : ¬ m.Releases := by
  rintro ⟨channel, key, rfl⟩
  cases on

@[simp] theorem Message.starts_noteOn :
    (Message.channel channel (.noteOn k velocity)).starts key = decide (k % 128 = key) := rfl

@[simp] theorem Message.starts_noteOff :
    (Message.channel channel (.noteOff k)).starts key = false := rfl

@[simp] theorem Message.ends_noteOn :
    (Message.channel channel (.noteOn k velocity)).ends key = false := rfl

@[simp] theorem Message.ends_noteOff :
    (Message.channel channel (.noteOff k)).ends key = decide (k % 128 = key) := rfl

end Keys

/-- Messages that leave no key down and let none go that is up. -/
structure Balanced (sent : List Message) : Prop where
  /-- Along the way. -/
  sane : ∀ key begun, begun <+: sent →
    begun.countP (Message.ends key) ≤ begun.countP (Message.starts key)
  settled : ∀ key, sent.countP (Message.ends key) = sent.countP (Message.starts key)

/-- What an event says, wherever the cursor is. -/
def saying (channel : Nat) (event : TrackEvent) : List Message :=
  (said channel 0 event).map Timed.message

/-- The messages of a track, each with the index of the event that says it. Of a bend an event says
no more than is written. -/
structure Attributes (track : Track) (told : List (Message × Nat)) : Prop where
  whole : (messages track).map Prod.snd = told.map Prod.fst ++ [.endOfTrack]
  own : ∀ index, ((told.filter (·.2 = index)).map (·.1.carried)).Perm
    ((track.events[index]?).toList.flatMap (saying (track.channel.getD 0 - 1)))

section Counts
variable {channel cursor key : Nat} {event : TrackEvent} {events : List TrackEvent}
  {sent begun : List Timed}

/-- Up to a tick a lasting event has ended a key no more often than it has started it before. -/
theorem ended_ofEvent (lasts : event.Lasts) (tick : Nat) :
    (ofEvent channel cursor event).1.countP (fun t => t.message.ends key && t.tick ≤ tick) ≤
      (ofEvent channel cursor event).1.countP fun t => t.message.starts key && t.tick < tick := by
  cases event with
  | note pitches wait duration velocity =>
    have later : cursor + wait < cursor + wait + duration := Nat.lt_add_of_pos_right lasts
    clear lasts
    simp only [ofEvent]
    induction pitches with
    | nil => exact Nat.le_refl 0
    | cons pitch pitches ih =>
      simp only [List.flatMap_cons, List.countP_append, List.countP_cons, List.countP_nil,
        Message.starts_noteOn, Message.starts_noteOff, Message.ends_noteOn, Message.ends_noteOff,
        Bool.false_and, Bool.and_eq_true, decide_eq_true_eq]
      refine Nat.add_le_add ?_ ih
      split_ifs <;> omega
  | program program bank => cases bank <;> exact Nat.zero_le _
  | controller | filler | tempo | timeSignature | bend => exact Nat.zero_le _

theorem ended_ofEvents (lasts : ∀ event ∈ events, event.Lasts) (tick : Nat) :
    (ofEvents channel cursor events).countP (fun t => t.message.ends key && t.tick ≤ tick) ≤
      (ofEvents channel cursor events).countP fun t => t.message.starts key && t.tick < tick := by
  induction events generalizing cursor with
  | nil => exact Nat.le_refl 0
  | cons event events ih =>
    obtain ⟨first, rest⟩ := List.forall_mem_cons.mp lasts
    simp only [ofEvents, List.countP_append]
    exact Nat.add_le_add (ended_ofEvent first tick) (ih rest)

theorem settled_ofEvent (event : TrackEvent) :
    (ofEvent channel cursor event).1.countP (·.message.ends key) =
      (ofEvent channel cursor event).1.countP (·.message.starts key) := by
  cases event with
  | note pitches wait duration velocity =>
    simp only [ofEvent]
    induction pitches with
    | nil => rfl
    | cons pitch pitches ih =>
      simp only [List.flatMap_cons, List.countP_append, List.countP_cons, List.countP_nil, ih,
        Message.starts_noteOn, Message.starts_noteOff, Message.ends_noteOn, Message.ends_noteOff,
        Bool.false_eq_true, if_false, Nat.zero_add, Nat.add_zero]
      split_ifs <;> rfl
  | program program bank => cases bank <;> rfl
  | controller | filler | tempo | timeSignature | bend => rfl

theorem settled_ofEvents (events : List TrackEvent) :
    (ofEvents channel cursor events).countP (·.message.ends key) =
      (ofEvents channel cursor events).countP (·.message.starts key) := by
  induction events generalizing cursor with
  | nil => rfl
  | cons event events ih => simp only [ofEvents, List.countP_append, settled_ofEvent, ih]

/-- Whoever has ended by the last message has started before it: what is sent later is later. -/
theorem sane_of_ordered (ordered : sent.Pairwise fun a b => a.tick ≤ b.tick)
    (ended : ∀ tick, sent.countP (fun t => t.message.ends key && t.tick ≤ tick) ≤
      sent.countP fun t => t.message.starts key && t.tick < tick) (within : begun <+: sent) :
    begun.countP (·.message.ends key) ≤ begun.countP (·.message.starts key) := by
  induction begun using List.reverseRecOn with
  | nil => exact Nat.le_refl 0
  | append_singleton before last ih =>
    have so_far := ih ((List.prefix_append ..).trans within)
    by_cases ends : last.message.ends key
    · obtain ⟨after, rfl⟩ := within
      obtain ⟨among, -, later⟩ := List.pairwise_append.mp ordered
      have early : ∀ t ∈ before ++ [last], t.tick ≤ last.tick := by
        intro t listed
        rcases List.mem_append.mp listed with first | same
        · exact (List.pairwise_append.mp among).2.2 t first last (List.mem_singleton_self last)
        · exact Nat.le_of_eq (congrArg Timed.tick (List.mem_singleton.mp same))
      have late : ∀ t ∈ after, last.tick ≤ t.tick := fun t listed =>
        later last (List.mem_append_right before (List.mem_singleton_self last)) t listed
      have none_late : after.countP (fun t => t.message.starts key && t.tick < last.tick) = 0 := by
        refine List.countP_eq_zero.mpr fun t listed both => ?_
        have before := of_decide_eq_true (Bool.and_eq_true_iff.mp both).2
        exact Nat.not_lt_of_le (late t listed) before
      calc (before ++ [last]).countP (·.message.ends key)
          ≤ (before ++ [last]).countP fun t => t.message.ends key && t.tick ≤ last.tick :=
            List.countP_mono_left fun t listed ends =>
              Bool.and_eq_true_iff.mpr ⟨ends, decide_eq_true (early t listed)⟩
        _ ≤ (before ++ [last] ++ after).countP fun t => t.message.ends key && t.tick ≤ last.tick :=
            (List.sublist_append_left ..).countP_le
        _ ≤ (before ++ [last] ++ after).countP fun t => t.message.starts key && t.tick < last.tick :=
            ended last.tick
        _ = (before ++ [last]).countP fun t => t.message.starts key && t.tick < last.tick := by
            rw [List.countP_append, none_late, Nat.add_zero]
        _ ≤ (before ++ [last]).countP (·.message.starts key) :=
            List.countP_mono_left fun t _ both => (Bool.and_eq_true_iff.mp both).1
    · rw [List.countP_append, List.countP_append, List.countP_singleton, if_neg ends, Nat.add_zero]
      exact Nat.le_add_right_of_le so_far

end Counts

theorem map_delays (previous : Nat) (sent : List Timed) :
    (delays previous sent).map Prod.snd = sent.map Timed.message := by
  induction sent generalizing previous with
  | nil => rfl
  | cons t rest ih => exact congrArg (t.message :: ·) (ih t.tick)

theorem map_messages (track : Track) : (messages track).map Prod.snd =
    ((ofEvents (track.channel.getD 0 - 1) 0 track.events).mergeSort precedes).map Timed.message ++
      [.endOfTrack] := by
  rw [messages, List.map_append, map_delays]
  rfl

/-- The end of the track concerns no key. -/
theorem Balanced.close {sent : List Message} (balanced : Balanced sent) :
    Balanced (sent ++ [.endOfTrack]) := by
  have apart (key : Nat) : (sent ++ [Message.endOfTrack]).countP (Message.ends key) =
        sent.countP (Message.ends key) ∧
      (sent ++ [Message.endOfTrack]).countP (Message.starts key) =
        sent.countP (Message.starts key) := by
    rw [List.countP_append, List.countP_append]
    exact ⟨rfl, rfl⟩
  refine ⟨fun key begun within => ?_, fun key => ?_⟩
  · rcases List.prefix_concat_iff.mp within with rfl | inside
    · rw [(apart key).1, (apart key).2]
      exact Nat.le_of_eq (balanced.settled key)
    · exact balanced.sane key begun inside
  · rw [(apart key).1, (apart key).2]
    exact balanced.settled key

theorem balanced_messages {track : Track} (lasts : ∀ event ∈ track.events, event.Lasts) :
    Balanced ((messages track).map Prod.snd) := by
  rw [map_messages]
  refine Balanced.close ?_
  have arranged := arranged_mergeSort (ofEvents (track.channel.getD 0 - 1) 0 track.events)
  generalize (ofEvents (track.channel.getD 0 - 1) 0 track.events).mergeSort precedes = sent at arranged
  have ordered : sent.Pairwise fun a b => a.tick ≤ b.tick :=
    arranged.ordered.imp fun before => before.elim Nat.le_of_lt fun same => Nat.le_of_eq same.1
  refine ⟨fun key begun within => ?_, fun key => ?_⟩
  · have ended (tick : Nat) : sent.countP (fun t => t.message.ends key && t.tick ≤ tick) ≤
        sent.countP fun t => t.message.starts key && t.tick < tick := by
      rw [arranged.perm.countP_eq, arranged.perm.countP_eq]
      exact ended_ofEvents lasts tick
    rw [List.prefix_iff_eq_take.mp within, ← List.map_take, List.countP_map, List.countP_map]
    exact sane_of_ordered ordered ended (List.take_prefix ..)
  · rw [List.countP_map, List.countP_map]
    refine (arranged.perm.countP_eq _).trans (Eq.trans ?_ (arranged.perm.countP_eq _).symm)
    exact settled_ofEvents track.events

section Origins

/-- The messages of events, each with the index of its event. -/
def attributed (channel cursor index : Nat) : List TrackEvent → List (Timed × Nat)
  | [] => []
  | event :: rest => (ofEvent channel cursor event).1.map (·, index) ++
    attributed channel (ofEvent channel cursor event).2 (index + 1) rest

variable {channel cursor index : Nat} {events : List TrackEvent}

theorem map_attributed (channel cursor index : Nat) (events : List TrackEvent) :
    (attributed channel cursor index events).map Prod.fst = ofEvents channel cursor events := by
  induction events generalizing cursor index with
  | nil => rfl
  | cons event events ih =>
    simp only [attributed, ofEvents, List.map_append, ih, List.map_map]
    exact congrArg (· ++ _) (List.map_id _)

/-- Whatever an event says it says between its cursor and the next one. -/
theorem tick_ofEvent {event : TrackEvent} {t : Timed} (told : t ∈ (ofEvent channel cursor event).1) :
    cursor ≤ t.tick ∧ t.tick ≤ (ofEvent channel cursor event).2 := by
  cases event with
  | note pitches wait duration velocity =>
    obtain ⟨pitch, -, either⟩ := List.mem_flatMap.mp told
    simp only [List.mem_cons, List.not_mem_nil, or_false] at either
    rcases either with rfl | rfl <;> simp only [ofEvent] <;> omega
  | program program bank =>
    cases bank <;> simp only [ofEvent, List.nil_append, List.cons_append, List.mem_cons,
      List.not_mem_nil, or_false] at told
    · rw [told]
      exact ⟨Nat.le_refl _, Nat.le_refl _⟩
    · rcases told with rfl | rfl <;> exact ⟨Nat.le_refl _, Nat.le_refl _⟩
  | filler => exact absurd told List.not_mem_nil
  | controller | tempo | timeSignature =>
    rw [List.mem_singleton.mp told]
    exact ⟨Nat.le_refl _, Nat.le_refl _⟩
  | bend =>
    rw [List.mem_singleton.mp told]
    exact ⟨Nat.le_add_right .., Nat.le_refl _⟩

theorem from_attributed {x : Timed × Nat} (told : x ∈ attributed channel cursor index events) :
    cursor ≤ x.1.tick ∧ index ≤ x.2 := by
  induction events generalizing cursor index with
  | nil => exact nomatch told
  | cons event events ih =>
    rcases List.mem_append.mp told with own | later
    · obtain ⟨t, among, rfl⟩ := List.mem_map.mp own
      exact ⟨(tick_ofEvent among).1, Nat.le_refl _⟩
    · obtain ⟨tick, after⟩ := ih later
      rw [Track.ofEvent_cursor] at tick
      exact ⟨Nat.le_of_add_right_le tick, Nat.le_of_succ_le after⟩

/-- Earlier events say everything no later than later ones. -/
theorem attributed_ordered {x y : Timed × Nat} (told : x ∈ attributed channel cursor index events)
    (told' : y ∈ attributed channel cursor index events) (earlier : x.2 < y.2) :
    x.1.tick ≤ y.1.tick := by
  induction events generalizing cursor index with
  | nil => exact nomatch told
  | cons event events ih =>
    rcases List.mem_append.mp told with own | later <;>
      rcases List.mem_append.mp told' with own' | later'
    · obtain ⟨t, -, rfl⟩ := List.mem_map.mp own
      obtain ⟨u, -, rfl⟩ := List.mem_map.mp own'
      exact absurd earlier (Nat.lt_irrefl _)
    · obtain ⟨t, among, rfl⟩ := List.mem_map.mp own
      exact Nat.le_trans (tick_ofEvent among).2 (from_attributed later').1
    · obtain ⟨u, -, rfl⟩ := List.mem_map.mp own'
      exact absurd (Nat.lt_of_le_of_lt (from_attributed later).2 earlier) (Nat.not_succ_lt_self)
    · exact ih later later'

/-- Where the cursor is makes no difference to what is said. -/
theorem map_message_said (channel cursor : Nat) (event : TrackEvent) :
    (said channel cursor event).map Timed.message = saying channel event := by
  cases event with
  | note => simp only [saying, said, List.map_flatMap, List.map_cons, List.map_nil]
  | program program bank => cases bank <;> rfl
  | controller | filler | tempo | timeSignature | bend => rfl

theorem map_carried_ofEvent (channel cursor : Nat) (event : TrackEvent) :
    (ofEvent channel cursor event).1.map (·.message.carried) = saying channel event := by
  rw [← map_message_said channel cursor event, ← ofEvent_carried, List.map_map]
  rfl

theorem filter_attributed (channel cursor start index : Nat) (events : List TrackEvent) :
    ((attributed channel cursor start events).filter (·.2 = start + index)).map
        (·.1.message.carried) = (events[index]?).toList.flatMap (saying channel) := by
  induction events generalizing cursor start index with
  | nil => rfl
  | cons event events ih =>
    simp only [attributed, List.filter_append, List.map_append, List.filter_map]
    cases index with
    | zero =>
      have others : (attributed channel (ofEvent channel cursor event).2 (start + 1) events).filter
          (·.2 = start + 0) = [] := by
        refine List.filter_eq_nil_iff.mpr fun x listed same => ?_
        have after := (from_attributed listed).2
        have same := of_decide_eq_true same
        omega
      rw [others, List.map_nil, List.append_nil]
      simp [Function.comp_def, map_carried_ofEvent]
    | succ index =>
      have more := ih (ofEvent channel cursor event).2 (start + 1) index
      rw [Nat.add_right_comm, Nat.add_assoc] at more
      rw [more]
      simp [Function.comp_def]

end Origins

/-- Keys are let go as often as they are struck and never before, and notes end before later notes
start. -/
theorem notes_end {track : Track} (lasts : ∀ event ∈ track.events, event.Lasts) :
    Balanced ((messages track).map Prod.snd) ∧ ∃ told, Attributes track told ∧
      told.Pairwise fun a b => a.1.isNoteOn → b.1.Releases → a.2 ≤ b.2 := by
  refine ⟨balanced_messages lasts, ?_⟩
  have perm := List.mergeSort_perm (attributed (track.channel.getD 0 - 1) 0 0 track.events)
    fun a b => precedes a.1 b.1
  have sorted : ((attributed (track.channel.getD 0 - 1) 0 0 track.events).mergeSort fun a b =>
      precedes a.1 b.1).Pairwise fun a b => precedes a.1 b.1 :=
    List.pairwise_mergeSort (fun a b c => precedes_trans a.1 b.1 c.1)
      (fun a b => precedes_total a.1 b.1) _
  have same : ((attributed (track.channel.getD 0 - 1) 0 0 track.events).mergeSort fun a b =>
      precedes a.1 b.1).map Prod.fst =
        (ofEvents (track.channel.getD 0 - 1) 0 track.events).mergeSort precedes := by
    rw [List.map_mergeSort (s := precedes) fun a _ b _ => rfl, map_attributed]
  generalize (attributed (track.channel.getD 0 - 1) 0 0 track.events).mergeSort
    (fun a b => precedes a.1 b.1) = sent at perm sorted same
  refine ⟨sent.map fun x => (x.1.message, x.2), ⟨?_, fun index => ?_⟩, ?_⟩
  · rw [map_messages, ← same, List.map_map, List.map_map]
    rfl
  · have own := filter_attributed (track.channel.getD 0 - 1) 0 0 index track.events
    rw [Nat.zero_add] at own
    rw [List.filter_map, List.map_map, ← own]
    exact (perm.filter _).map _
  · refine List.pairwise_map.mpr (sorted.imp_of_mem fun {a b} first second before starts ends => ?_)
    -- A later note starts no earlier than this one ends, and at one tick ends are sent first.
    refine Nat.le_of_not_lt fun earlier => ?_
    have tick := attributed_ordered (perm.mem_iff.mp second) (perm.mem_iff.mp first) earlier
    rcases precedes_iff.mp before with sooner | ⟨-, first⟩
    · exact Nat.not_lt_of_le tick sooner
    · exact Message.not_releases_of_isNoteOn starts (first ends)

/-- A chord with a key twice, struck again as it ends, with changes in between. -/
def unison : Track :=
  ⟨some 2, [.note [60, 60, 64] 3 8 90, .program 5 (some 1), .note [60] 0 1 90, .filler 4,
    .controller 64 127, .note [64, 60] 0 2 80]⟩

theorem notes_end_unison : (∀ event ∈ unison.events, event.Lasts) ∧
    Balanced ((messages unison).map Prod.snd) ∧ ∃ told, Attributes unison told ∧
      told.Pairwise fun a b => a.1.isNoteOn → b.1.Releases → a.2 ≤ b.2 := by
  have lasts : ∀ event ∈ unison.events, event.Lasts := by decide
  exact ⟨lasts, notes_end lasts⟩

end Midi
end TextScore
