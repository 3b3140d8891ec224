import TextScore.Compiler
import TextScore.Proofs.Onsets

/-! Tracks and highlights tell the same performance. Tracks walk the forest of timelines and count
from waits and durations; highlights read the notes of the whole arena. -/
namespace TextScore

/-- Sorting does not move what the order does not tell apart. -/
theorem filter_mergeSort {α : Type} {le : α → α → Bool} (trans : ∀ a b c, le a b → le b c → le a c)
    (total : ∀ a b, le a b || le b a) {p : α → Bool} (alike : ∀ a b, p a → p b → le a b)
    (l : List α) : (l.mergeSort le).filter p = l.filter p := by
  have sorted : (l.filter p).Pairwise fun a b => le a b :=
    List.pairwise_of_forall_mem_list fun a first b second =>
      alike a b (List.mem_filter.mp first).2 (List.mem_filter.mp second).2
  have within := (List.sublist_mergeSort trans total sorted List.filter_sublist).filter p
  rw [List.filter_filter, funext fun a => Bool.and_self (p a)] at within
  exact (within.eq_of_length ((List.mergeSort_perm l le).filter p).length_eq.symm).symm

/-- What is heard of a note: who plays which pitches, how loud, and between which ticks. -/
structure Sounding where
  channel : Option Nat
  start : Nat
  stop : Nat
  pitches : List Nat
  velocity : Nat
  deriving DecidableEq, Repr

def Sounding.ofNote (channel : Nat) (n : Note) : Sounding :=
  ⟨some channel, n.start, n.stop, n.pitches, n.velocity⟩

/-- All that is heard, timeline by timeline. -/
def Arena.soundings (arena : Arena) : List Sounding :=
  arena.timelines.toList.flatMap fun t => t.notes.map (Sounding.ofNote t.channel)

/-- By how much an event moves the cursor of a track on. -/
def TrackEvent.span : TrackEvent → Nat
  | .note _ wait duration _ => wait + duration
  | .filler wait | .bend wait _ => wait
  | .program .. | .controller .. | .tempo _ | .timeSignature .. => 0

def TrackEvent.sounding? (channel : Option Nat) (cursor : Nat) : TrackEvent → Option Sounding
  | .note pitches wait duration velocity =>
    some ⟨channel, cursor + wait, cursor + wait + duration, pitches, velocity⟩
  | _ => none

namespace Track

/-- What is heard of a track from a cursor on. -/
def soundingsFrom (channel : Option Nat) : (cursor : Nat) → List TrackEvent → List Sounding
  | _, [] => []
  | cursor, event :: rest =>
    (event.sounding? channel cursor).toList ++ soundingsFrom channel (cursor + event.span) rest

def soundings (track : Track) : List Sounding := soundingsFrom track.channel 0 track.events

theorem soundingsFrom_silent {channel : Option Nat} {events : List TrackEvent}
    (silent : ∀ event ∈ events, ∀ cursor, event.sounding? channel cursor = none) (cursor : Nat) :
    soundingsFrom channel cursor events = [] := by
  induction events generalizing cursor with
  | nil => rfl
  | cons event rest ih =>
    rw [soundingsFrom, silent event List.mem_cons_self,
      ih fun e member => silent e (List.mem_cons_of_mem event member)]
    rfl

/-- Counting from waits and durations gives the onsets that chained notes have. -/
theorem soundingsFrom_events (channel : Nat) {cursor : Nat} {events : List Event}
    (chained : Note.Chained cursor (events.filterMap Event.note?)) :
    soundingsFrom (some channel) cursor (events.map ofEvent) =
      (events.filterMap Event.note?).map (Sounding.ofNote channel) := by
  induction events generalizing cursor with
  | nil => rfl
  | cons event rest ih =>
    cases event with
    | note n =>
      simp only [List.filterMap_cons, Event.note?] at chained ⊢
      obtain ⟨onset, chained⟩ := chained
      have stop : cursor + (n.wait + n.duration) = n.stop := by
        simp only [Note.stop, onset, Nat.add_assoc]
      have heard : (ofEvent (.note n)).sounding? (some channel) cursor =
          some (Sounding.ofNote channel n) := by
        simp only [ofEvent, TrackEvent.sounding?, Sounding.ofNote, Note.stop, ← onset]
      rw [List.map_cons, soundingsFrom, heard, ofEvent, TrackEvent.span, stop, ih chained]
      rfl
    | program | controller => exact ih chained

theorem soundings_ofConductor (c : Conductor) : (ofConductor c).soundings = [] := by
  refine soundingsFrom_silent (fun event member cursor => ?_) 0
  obtain ⟨e, -, rfl⟩ := List.mem_map.mp member
  cases e <;> rfl

theorem bendEvents_bend {cursor : Nat} {bends : List (Nat × Binary64)} {event : TrackEvent}
    (listed : event ∈ bendEvents cursor bends) : ∃ wait value, event = .bend wait value := by
  induction bends generalizing cursor with
  | nil => exact nomatch listed
  | cons bend bends ih =>
    rcases List.mem_cons.mp listed with rfl | later
    · exact ⟨_, _, rfl⟩
    · exact ih later

theorem soundings_ofBends (channel : Nat) (bends : List (Nat × Binary64)) :
    (ofBends channel bends).soundings = [] := by
  refine soundingsFrom_silent (fun event member cursor => ?_) 0
  obtain ⟨wait, value, rfl⟩ := bendEvents_bend member
  rfl

theorem soundings_ofTimeline {t : Timeline} (sequential : t.Sequential) :
    (ofTimeline t).flatMap soundings = t.notes.map (Sounding.ofNote t.channel) := by
  have events : soundings ⟨some t.channel, t.events.toList.map ofEvent⟩ =
      t.notes.map (Sounding.ofNote t.channel) := soundingsFrom_events t.channel sequential.chained
  have none (silent : t.events.isEmpty = true) : t.notes = [] := by
    rw [Timeline.notes, Array.isEmpty_iff.mp silent]
    rfl
  simp only [ofTimeline, List.flatMap_append]
  split <;> split
  · next silent => rw [none silent]; rfl
  · simp only [List.flatMap_nil, List.nil_append, List.flatMap_cons, events, List.append_nil]
  · next silent =>
    rw [none silent]
    simp only [List.flatMap_cons, soundings_ofBends, List.flatMap_nil, List.append_nil, List.map_nil]
  · simp only [List.flatMap_cons, soundings_ofBends, List.flatMap_nil, List.append_nil,
      List.nil_append, events]

end Track

namespace Arena
variable {roots : List TimelineId} {arena : Arena}

/-- What a timeline lists below it. -/
def below (arena : Arena) (id : TimelineId) : List TimelineId :=
  ((arena.timeline id).children ++ (arena.timeline id).voices).toList

/-- The timelines of a walk as deep as tracks are collected. -/
def family (arena : Arena) : (depth : Nat) → TimelineId → List TimelineId
  | 0, _ => []
  | depth + 1, id => id :: (arena.below id).flatMap (family arena depth)

theorem ofTree_eq (arena : Arena) (depth : Nat) (id : TimelineId) : Track.ofTree arena depth id =
    (arena.family depth id).flatMap fun id => Track.ofTimeline (arena.timeline id) := by
  induction depth generalizing id with
  | zero => rfl
  | succ depth ih =>
    simp only [Track.ofTree, family, below, List.flatMap_cons, List.flatMap_assoc, ← ih]

namespace Forest

/-- The roots and what all timelines list are all timelines. -/
theorem roots_below (forest : Forest roots arena) :
    (roots ++ (List.range arena.timelines.size).flatMap arena.below).Perm
      (List.range arena.timelines.size) := by
  refine List.Perm.trans ?_ forest.once
  rw [List.append_assoc]
  apply List.Perm.append_left roots
  have split : arena.below = fun id =>
      (arena.timeline id).children.toList ++ (arena.timeline id).voices.toList :=
    funext fun _ => Array.toList_append
  rw [branches, voices, listed_eq, listed_eq, split]
  exact (List.flatMap_append_perm ..).symm

theorem below_lt (forest : Forest roots arena) {id child : TimelineId}
    (inside : id < arena.timelines.size) (member : child ∈ arena.below id) :
    id < child ∧ child < arena.timelines.size := by
  have listed : child ∈ (List.range arena.timelines.size).flatMap arena.below :=
    List.mem_flatMap.mpr ⟨id, List.mem_range.mpr inside, member⟩
  rw [below, Array.mem_toList_iff, Array.mem_append] at member
  exact ⟨forest.younger id child member,
    List.mem_range.mp (forest.roots_below.mem_iff.mp (List.mem_append_right roots listed))⟩

/-- Children are younger, so a walk ends within as many levels as there are younger timelines. -/
theorem family_stable (forest : Forest roots arena) {depth : Nat} {id : TimelineId}
    (inside : id < arena.timelines.size) (deep : arena.timelines.size ≤ id + depth) :
    arena.family (depth + 1) id = arena.family depth id := by
  induction depth generalizing id with
  | zero => exact absurd inside (Nat.not_lt.mpr deep)
  | succ depth ih =>
    have same : (arena.below id).map (arena.family (depth + 1)) =
        (arena.below id).map (arena.family depth) := by
      apply List.map_congr_left
      intro child member
      obtain ⟨younger, inside⟩ := forest.below_lt inside member
      have younger : @LE.le Nat _ (id + 1) child := younger
      exact ih inside (by omega)
    rw [family, family, List.flatMap_def, List.flatMap_def, same]

theorem family_deeper (forest : Forest roots arena) {depth depth' : Nat} {id : TimelineId}
    (inside : id < arena.timelines.size) (deep : arena.timelines.size ≤ depth)
    (deeper : depth ≤ depth') : arena.family depth' id = arena.family depth id := by
  induction deeper with
  | refl => rfl
  | @step depth' deeper ih =>
    have deep' : arena.timelines.size ≤ id + depth' :=
      Nat.le_trans deep (Nat.le_trans deeper (Nat.le_add_left ..))
    exact (forest.family_stable inside deep').trans ih

/-- Walks from the roots reach every timeline once. -/
theorem walk_perm (forest : Forest roots arena) {depth : Nat}
    (deep : arena.timelines.size ≤ depth) :
    (roots.flatMap (arena.family depth)).Perm (List.range arena.timelines.size) := by
  let all := List.range arena.timelines.size
  have stable : all.flatMap (arena.family (depth + 1)) = all.flatMap (arena.family depth) := by
    rw [List.flatMap_def, List.flatMap_def]
    refine congrArg List.flatten (List.map_congr_left fun id member => ?_)
    exact forest.family_stable (List.mem_range.mp member) (by omega)
  -- All families together are all timelines and the families of what they list.
  have unfolded : (all.flatMap (arena.family (depth + 1))).Perm
      (all ++ (all.flatMap arena.below).flatMap (arena.family depth)) := by
    rw [List.flatMap_assoc]
    have split := List.flatMap_append_perm all (fun id => [id])
      fun id => (arena.below id).flatMap (arena.family depth)
    rw [List.flatMap_singleton'] at split
    exact split.symm
  have rooted : (all.flatMap (arena.family depth)).Perm
      (roots.flatMap (arena.family depth) ++
        (all.flatMap arena.below).flatMap (arena.family depth)) := by
    rw [← List.flatMap_append]
    exact forest.roots_below.symm.flatMap_right _
  rw [stable] at unfolded
  exact (List.perm_append_right_iff _).mp (rooted.symm.trans unfolded)

end Forest

/-- Every track is that of the conductor or one of those of a timeline. -/
theorem Sound.mem_assemble (sound : Sound roots [] arena) {conductor : Conductor} {track : Track}
    (listed : track ∈ Track.assemble conductor arena roots) : track = Track.ofConductor conductor ∨
      ∃ id < arena.timelines.size, track ∈ Track.ofTimeline (arena.timeline id) := by
  refine (List.mem_cons.mp listed).imp_right fun listed => ?_
  obtain ⟨root, member, listed⟩ := List.mem_flatMap.mp listed
  rw [ofTree_eq] at listed
  obtain ⟨id, below, listed⟩ := List.mem_flatMap.mp listed
  have walked := (sound.forest.walk_perm (Nat.le_refl _)).mem_iff.mp
    (List.mem_flatMap.mpr ⟨root, member, below⟩)
  exact ⟨id, List.mem_range.mp walked, listed⟩

/-- Tracks collected from a sound arena sound what its notes do. -/
theorem Sound.soundings_perm (sound : Sound roots [] arena) (conductor : Conductor) :
    ((Track.assemble conductor arena roots).flatMap Track.soundings).Perm arena.soundings := by
  have heard (id : TimelineId) : (Track.ofTimeline (arena.timeline id)).flatMap Track.soundings =
      (arena.timeline id).notes.map (Sounding.ofNote (arena.timeline id).channel) :=
    Track.soundings_ofTimeline (sound.orderly id).toSequential
  have walk := (sound.forest.walk_perm (Nat.le_refl _)).flatMap_right fun id =>
    (arena.timeline id).notes.map (Sounding.ofNote (arena.timeline id).channel)
  rw [soundings, toList_eq, List.flatMap_map]
  refine List.Perm.trans (.of_eq ?_) walk
  simp only [Track.assemble, List.flatMap_cons, Track.soundings_ofConductor, List.nil_append,
    List.flatMap_assoc, ofTree_eq, heard]

end Arena

namespace Compiler
variable {settings : Settings} {source : String} {s : Session} {stripped : Text.Stripped}

theorem parse_read {score : List Node} (parsed : parse source = .ok (score, stripped)) :
    Score.read (Text.strip source.toList).text = .ok score := by
  simp only [parse] at parsed
  split at parsed
  · next read =>
    cases parsed
    exact read
  · exact nomatch parsed

/-- A session that succeeds has performed what its source reads as. -/
theorem session_parsed (performed : session settings source = .ok (s, stripped)) :
    ∃ score, parse source = .ok (score, stripped) ∧ Session.Plays score settings.gas s := by
  simp only [session, bind, Except.bind] at performed
  split at performed
  · exact nomatch performed
  · next pair parsed =>
    split at performed
    · next done =>
      cases performed
      exact ⟨pair.1, parsed, done⟩
    · exact nomatch performed

theorem session_plays (performed : session settings source = .ok (s, stripped)) :
    ∃ score, Session.Plays score settings.gas s :=
  (session_parsed performed).imp fun _ => And.right

theorem tracks_session {all : List Track} (done : tracks settings source = .ok all) :
    ∃ s stripped, session settings source = .ok (s, stripped) ∧ all = Track.ofSession s := by
  simp only [tracks, bind, Except.bind] at done
  split at done
  · exact nomatch done
  · next performed =>
    cases done
    exact ⟨_, _, performed, rfl⟩

/-- Whatever source is performed, its tracks sound the notes that its highlights show: each timeline
is collected once, and collecting deeper finds nothing more. -/
theorem tracks_sound_highlights (performed : session settings source = .ok (s, stripped)) :
    tracks settings source = .ok (Track.ofSession s) ∧
    ((Track.ofSession s).flatMap Track.soundings).Perm s.arena.soundings ∧
    (Highlight.ofArena s.arena s.conductor).Perm
      ((s.arena.timelines.toList.flatMap Timeline.notes).map
        (Highlight.ofNote s.conductor.tempos.toList)) ∧
    ∀ depth, s.arena.timelines.size ≤ depth →
      (s.channels.toList.flatMap (s.arena.family depth)).Perm
        (List.range s.arena.timelines.size) ∧
      s.channels.toList.flatMap (Track.ofTree s.arena depth) =
        s.channels.toList.flatMap (Track.ofTree s.arena s.arena.timelines.size) := by
  obtain ⟨score, plays⟩ := session_plays performed
  obtain ⟨last, held⟩ := plays.held Session.lasts_true trivial
  have sound := held.tended.sound
  refine ⟨?_, sound.soundings_perm s.conductor, List.mergeSort_perm .., fun depth deep => ?_⟩
  · simp only [tracks, performed, bind, Except.bind, pure, Except.pure]
  · constructor
    · exact sound.forest.walk_perm deep
    · rw [List.flatMap_def, List.flatMap_def]
      refine congrArg List.flatten (List.map_congr_left fun root member => ?_)
      have inside := sound.forest.lt_size
        (List.mem_append_left _ (List.mem_append_left _ member))
      rw [Arena.ofTree_eq, Arena.ofTree_eq,
        sound.forest.family_deeper inside (Nat.le_refl _) deep]

/-- An arpeggio on two voices and a passage with a second branch: four timelines in all. -/
theorem tracks_sound_highlights_of_branches : ∃ s stripped,
    session {} "[|ce][[c|d]]" = .ok (s, stripped) ∧ s.arena.timelines.size = 4 ∧
      ((Track.ofSession s).flatMap Track.soundings).Perm s.arena.soundings := by
  have performed : (session {} "[|ce][[c|d]]").toOption.map (·.1.arena.timelines.size) = some 4 := by
    decide +kernel
  cases done : session {} "[|ce][[c|d]]" with
  | ok pair =>
    rw [done] at performed
    exact ⟨pair.1, pair.2, rfl, Option.some.inj performed, (tracks_sound_highlights done).2.1⟩
  | error fault =>
    rw [done] at performed
    exact nomatch performed

end Compiler
end TextScore
