import TextScore.Highlight
import TextScore.Proofs.CheckedTimelines
import TextScore.Proofs.Lengths
import TextScore.Proofs.Tempi

/-! What a performance is written to, with every operation checked. Bends and messages are sorted
before they are told apart by waits, changes of tempo come in order, and a walk through the timelines
comes by none that there is not. -/
namespace TextScore
open Checked

namespace Binary64

def isZero : Binary64 → Bool
  | finite _ mantissa _ => mantissa = 0
  | _ => false

def divide? (x y : Binary64) : Option Binary64 := if y.isZero then none else some (x / y)

theorem divide?_eq {y : Binary64} (positive : y.isPositive) (x : Binary64) :
    x.divide? y = some (x / y) := by
  refine if_neg fun zero => ?_
  cases y with
  | finite negative mantissa exponent =>
    cases negative with
    | false => exact of_decide_eq_true positive (of_decide_eq_true zero)
    | true => exact nomatch positive
  | infinite | nan => exact nomatch positive

end Binary64

namespace Tempo
variable {τ υ : Type} {start tick : Nat}

def segments? (start : Nat) (current : τ) (tick : Nat) :
    List (Nat × τ) → Option (List (Nat × τ))
  | [] => do return [(← minus? tick start, current)]
  | (position, next) :: changes =>
    if tick ≤ position then do return [(← minus? tick start, current)]
    else do
      let length ← minus? position start
      return (length, current) :: (← segments? position next tick changes)

/-- No tempo that a score sets is zero. The standard one is a constant, given as `none`. -/
def msPerTick? : Option Binary64 → Option Binary64
  | none => some (msPerTick standard)
  | some bpm => (.ofNat 60000 / .ofNat Duration.ticksPerBeat : Binary64).divide? bpm

def ms? (changes : List (Nat × Binary64)) (tick : Nat) : Option Binary64 := do
  let stretches ← segments? 0 none tick (changes.map (Prod.map id some))
  stretches.foldlM (fun total (length, bpm) => do
    return total + .ofNat length * (← msPerTick? bpm)) (.ofNat 0)

theorem segments?_eq {current : τ} {changes : List (Nat × τ)}
    (ordered : (start :: changes.map Prod.fst).Pairwise (· ≤ ·)) (before : start ≤ tick) :
    segments? start current tick changes = some (segments start current tick changes) := by
  induction changes generalizing start current with
  | nil =>
    simp only [segments?, segments, minus?_eq before, Option.bind_eq_bind, Option.bind_some,
      Option.pure_def]
  | cons change changes ih =>
    obtain ⟨after, ordered⟩ := List.pairwise_cons.mp ordered
    rw [segments?, segments]
    split
    · simp only [minus?_eq before, Option.bind_eq_bind, Option.bind_some, Option.pure_def]
    · next late =>
      simp only [minus?_eq (after change.1 List.mem_cons_self), ih ordered (Nat.le_of_not_le late),
        Option.bind_eq_bind, Option.bind_some, Option.pure_def]

theorem segments_map (f : τ → υ) (current : τ) (changes : List (Nat × τ)) :
    (segments start current tick changes).map (Prod.map id f) =
      segments start (f current) tick (changes.map (Prod.map id f)) := by
  induction changes generalizing start current with
  | nil => rfl
  | cons change changes ih =>
    simp only [List.map_cons, segments, Prod.map_fst, Prod.map_snd, id_eq]
    split
    · rfl
    · rw [List.map_cons, ih]
      rfl

theorem mem_segments {current : τ} {changes : List (Nat × τ)} {stretch : Nat × τ}
    (listed : stretch ∈ segments start current tick changes) :
    stretch.2 = current ∨ ∃ change ∈ changes, stretch.2 = change.2 := by
  induction changes generalizing start current with
  | nil => exact .inl (congrArg Prod.snd (List.mem_singleton.mp listed))
  | cons change changes ih =>
    rw [segments] at listed
    split at listed
    · exact .inl (congrArg Prod.snd (List.mem_singleton.mp listed))
    · rcases List.mem_cons.mp listed with rfl | later
      · exact .inl rfl
      · refine .inr ?_
        rcases ih later with same | ⟨other, member, same⟩
        · exact ⟨change, List.mem_cons_self, same⟩
        · exact ⟨other, List.mem_cons_of_mem change member, same⟩

theorem ms?_eq {changes : List (Nat × Binary64)}
    (ordered : (changes.map Prod.fst).Pairwise (· ≤ ·))
    (positive : ∀ change ∈ changes, change.2.isPositive) (tick : Nat) :
    ms? changes tick = some (ms changes tick) := by
  let told := changes.map (Prod.map id some)
  have ordered : (0 :: told.map Prod.fst).Pairwise (· ≤ ·) := by
    refine List.pairwise_cons.mpr ⟨fun _ _ => Nat.zero_le _, ?_⟩
    rw [List.map_map]
    exact ordered
  have each (total : Binary64) (stretch : Nat × Option Binary64)
      (listed : stretch ∈ segments 0 none tick told) : (do
        return total + .ofNat stretch.1 * (← msPerTick? stretch.2) : Option Binary64) =
      some (total + .ofNat stretch.1 * msPerTick (stretch.2.getD standard)) := by
    obtain ⟨length, bpm⟩ := stretch
    cases bpm with
    | none => rfl
    | some bpm =>
      rcases mem_segments listed with first | ⟨change, among, same⟩
      · exact nomatch first
      · obtain ⟨given, member, rfl⟩ := List.mem_map.mp among
        cases same
        simp only [msPerTick?, Binary64.divide?_eq (positive given member), Option.bind_eq_bind,
          Option.bind_some, Option.pure_def]
        rfl
  have back : told.map (Prod.map id (Option.getD · standard)) = changes := by
    rw [List.map_map]
    exact List.map_id changes
  have whole : segments 0 standard tick changes =
      (segments 0 none tick told).map (Prod.map id (Option.getD · standard)) := by
    rw [segments_map, back, Option.getD_none]
  rw [ms?, segments?_eq ordered (Nat.zero_le tick), Option.bind_eq_bind, Option.bind_some,
    foldlM_defined each, ms]
  rw [whole, List.foldl_map]
  rfl

end Tempo

namespace Highlight

def ofNote? (changes : List (Nat × Binary64)) (n : Note) : Option Highlight := do
  return ⟨n.offset, ← Tempo.ms? changes n.start, ← Tempo.ms? changes (n.start + n.duration)⟩

def ofArena? (arena : Arena) (conductor : Conductor) : Option (List Highlight) := do
  let notes := arena.timelines.toList.flatMap Timeline.notes
  return (← notes.mapM (ofNote? conductor.tempos.toList)).mergeSort precedes

theorem ofArena?_eq (arena : Arena) {conductor : Conductor} (timely : conductor.Timely) :
    ofArena? arena conductor = some (ofArena arena conductor) := by
  have positive : ∀ change ∈ conductor.tempos.toList, change.2.isPositive := fun change listed =>
    timely.positive change (Array.mem_toList_iff.mp listed)
  have each (n : Note) : ofNote? conductor.tempos.toList n =
      some (ofNote conductor.tempos.toList n) := by
    simp only [ofNote?, ofNote, Tempo.ms?_eq timely.ordered positive, Option.bind_eq_bind,
      Option.bind_some, Option.pure_def]
  simp only [ofArena?, ofArena, mapM_defined fun n _ => each n, Option.bind_eq_bind,
    Option.bind_some, Option.pure_def]

end Highlight

namespace Track
variable {arena : Arena} {roots : List TimelineId}

def bendEvents? (cursor : Nat) : List (Nat × Binary64) → Option (List TrackEvent)
  | [] => some []
  | (tick, value) :: rest => do
    let wait ← minus? tick cursor
    return .bend wait value :: (← bendEvents? tick rest)

def ofBends? (channel : Nat) (bends : List (Nat × Binary64)) : Option Track := do
  return ⟨some channel, ← bendEvents? 0 (bends.mergeSort fun a b => a.1 ≤ b.1)⟩

def ofTimeline? (t : Timeline) : Option (List Track) := do
  let bends ← ofBends? t.channel t.bends.toList
  return (if t.bends.isEmpty then [] else [bends]) ++
    (if t.events.isEmpty then [] else [⟨some t.channel, t.events.toList.map ofEvent⟩])

def ofTree? (arena : Arena) : (depth : Nat) → TimelineId → Option (List Track)
  | 0, _ => some []
  | depth + 1, here => do
    let t ← arena.timelines[here]?
    let below ← (t.children ++ t.voices).toList.mapM (ofTree? arena depth)
    return (← ofTimeline? t) ++ below.flatten

def assemble? (conductor : Conductor) (arena : Arena) (channels : List TimelineId) :
    Option (List Track) := do
  let trees ← channels.mapM (ofTree? arena arena.timelines.size)
  return ofConductor conductor :: trees.flatten

theorem bendEvents?_eq {cursor : Nat} {bends : List (Nat × Binary64)}
    (ordered : (cursor :: bends.map Prod.fst).Pairwise (· ≤ ·)) :
    bendEvents? cursor bends = some (bendEvents cursor bends) := by
  induction bends generalizing cursor with
  | nil => rfl
  | cons bend bends ih =>
    obtain ⟨before, ordered⟩ := List.pairwise_cons.mp ordered
    simp only [bendEvents?, bendEvents, minus?_eq (before bend.1 List.mem_cons_self), ih ordered,
      Option.bind_eq_bind, Option.bind_some, Option.pure_def]

theorem ofTimeline?_eq (t : Timeline) : ofTimeline? t = some (ofTimeline t) := by
  simp only [ofTimeline?, ofTimeline, ofBends?, ofBends, bendEvents?_eq (ordered_mergeSort _),
    Option.bind_eq_bind, Option.bind_some, Option.pure_def]

theorem ofTree?_eq (forest : Arena.Forest roots arena) {depth : Nat} {here : TimelineId}
    (inside : here < arena.timelines.size) :
    ofTree? arena depth here = some (ofTree arena depth here) := by
  induction depth generalizing here with
  | zero => rfl
  | succ depth ih =>
    have below : (arena.below here).mapM (ofTree? arena depth) =
        some ((arena.below here).map (ofTree arena depth)) :=
      mapM_defined fun child listed => ih (forest.below_lt inside listed).2
    unfold Arena.below at below
    simp only [ofTree?, ofTree, Arena.getElem?_timelines inside, ofTimeline?_eq, List.flatMap_def,
      below, Option.bind_eq_bind, Option.bind_some, Option.pure_def]

theorem assemble?_eq (forest : Arena.Forest roots arena) (conductor : Conductor) :
    assemble? conductor arena roots = some (assemble conductor arena roots) := by
  have each : ∀ root ∈ roots, ofTree? arena arena.timelines.size root =
      some (ofTree arena arena.timelines.size root) := fun root listed =>
    ofTree?_eq forest (forest.lt_size (List.mem_append_left _ (List.mem_append_left _ listed)))
  simp only [assemble?, assemble, mapM_defined each, List.flatMap_def, Option.bind_eq_bind,
    Option.bind_some, Option.pure_def]

end Track

namespace Midi

def beatMicros? (bpm : Binary64) : Option Nat := do
  match ← (.ofNat 60000000 : Binary64).divide? bpm with
  | .nan _ => return 0
  | micros => return max 1 (micros.toNat 16777215)

def ofEvent? (channel cursor : Nat) : TrackEvent → Option (List Timed × Nat)
  | .tempo bpm => do return ([⟨cursor, .tempo (← beatMicros? bpm)⟩], cursor)
  | event => some (ofEvent channel cursor event)

def ofEvents? (channel cursor : Nat) : List TrackEvent → Option (List Timed)
  | [] => some []
  | event :: rest => do
    let (timed, cursor) ← ofEvent? channel cursor event
    return timed ++ (← ofEvents? channel cursor rest)

def delays? (previous : Nat) : List Timed → Option (List (Nat × Message))
  | [] => some []
  | t :: rest => do
    let delay ← minus? t.tick previous
    return (delay, t.message) :: (← delays? t.tick rest)

def messages? (track : Track) : Option (List (Nat × Message)) := do
  let channel := (track.channel.getD 0) - 1
  let timed ← ofEvents? channel 0 track.events
  return (← delays? 0 (timed.mergeSort precedes)) ++ [(0, .endOfTrack)]

def trackChunk? (track : Track) : Option (List UInt8) := do
  return chunk "MTrk" (encodeMessages none (← messages? track))

def write? (tracks : List Track) : Option (List UInt8) := do
  return header tracks.length ++ (← tracks.mapM trackChunk?).flatten

theorem beatMicros?_eq {bpm : Binary64} (positive : bpm.isPositive) :
    beatMicros? bpm = some (beatMicros bpm) := by
  rw [beatMicros?, beatMicros, Binary64.divide?_eq positive, Option.bind_eq_bind, Option.bind_some]
  cases (.ofNat 60000000 / bpm : Binary64) <;> rfl

theorem ofEvents?_eq {channel cursor : Nat} {events : List TrackEvent}
    (positive : ∀ bpm, .tempo bpm ∈ events → bpm.isPositive) :
    ofEvents? channel cursor events = some (ofEvents channel cursor events) := by
  induction events generalizing cursor with
  | nil => rfl
  | cons event events ih =>
    have one : ofEvent? channel cursor event = some (ofEvent channel cursor event) := by
      cases event with
      | tempo bpm =>
        rw [ofEvent?, beatMicros?_eq (positive bpm List.mem_cons_self)]
        rfl
      | _ => rfl
    have rest (cursor : Nat) :
        ofEvents? channel cursor events = some (ofEvents channel cursor events) :=
      ih fun bpm listed => positive bpm (List.mem_cons_of_mem event listed)
    simp only [ofEvents?, ofEvents, one, rest, Option.bind_eq_bind, Option.bind_some,
      Option.pure_def]

theorem delays?_eq {previous : Nat} {sent : List Timed}
    (ordered : (previous :: sent.map Timed.tick).Pairwise (· ≤ ·)) :
    delays? previous sent = some (delays previous sent) := by
  induction sent generalizing previous with
  | nil => rfl
  | cons t sent ih =>
    obtain ⟨before, ordered⟩ := List.pairwise_cons.mp ordered
    simp only [delays?, delays, minus?_eq (before t.tick List.mem_cons_self), ih ordered,
      Option.bind_eq_bind, Option.bind_some, Option.pure_def]

theorem ordered_mergeSort (sent : List Timed) :
    (0 :: (sent.mergeSort precedes).map Timed.tick).Pairwise (· ≤ ·) := by
  refine List.pairwise_cons.mpr ⟨fun _ _ => Nat.zero_le _, List.pairwise_map.mpr ?_⟩
  refine (List.pairwise_mergeSort precedes_trans precedes_total sent).imp fun {a b} order => ?_
  rcases precedes_iff.mp order with earlier | ⟨same, -⟩
  · exact Nat.le_of_lt earlier
  · exact Nat.le_of_eq same

theorem write?_eq {tracks : List Track}
    (positive : ∀ track ∈ tracks, ∀ bpm, .tempo bpm ∈ track.events → bpm.isPositive) :
    write? tracks = some (write tracks) := by
  have each : ∀ track ∈ tracks, trackChunk? track = some (trackChunk track) := by
    intro track listed
    simp only [trackChunk?, trackChunk, messages?, messages, ofEvents?_eq (positive track listed),
      delays?_eq (ordered_mergeSort _), Option.bind_eq_bind, Option.bind_some, Option.pure_def]
  simp only [write?, write, mapM_defined each, List.flatMap_def, Option.bind_eq_bind,
    Option.bind_some, Option.pure_def]

end Midi

namespace Track
variable {arena : Arena} {roots : List TimelineId}

theorem ofTimeline_untold {t : Timeline} {track : Track} (listed : track ∈ ofTimeline t)
    (bpm : Binary64) : .tempo bpm ∉ track.events := by
  intro told
  rcases List.mem_append.mp listed with bends | log
  · split at bends
    · exact nomatch bends
    · cases List.mem_singleton.mp bends
      obtain ⟨wait, value, same⟩ := bendEvents_bend told
      exact nomatch same
  · split at log
    · exact nomatch log
    · cases List.mem_singleton.mp log
      obtain ⟨event, -, same⟩ := List.mem_map.mp told
      cases event <;> exact nomatch same

/-- Only the conductor's track tells tempos. -/
theorem assemble_positive (sound : arena.Sound roots []) {conductor : Conductor}
    (timely : conductor.Timely) {track : Track} (listed : track ∈ assemble conductor arena roots)
    (bpm : Binary64) (told : .tempo bpm ∈ track.events) : bpm.isPositive := by
  rcases sound.mem_assemble listed with rfl | ⟨id, -, collected⟩
  · obtain ⟨event, member, same⟩ := List.mem_map.mp told
    cases event with
    | tempo => exact timely.told bpm (Array.mem_toList_iff.mp (TrackEvent.tempo.inj same ▸ member))
    | filler | timeSignature => exact nomatch same
  · exact absurd told (ofTimeline_untold collected bpm)

end Track
end TextScore
