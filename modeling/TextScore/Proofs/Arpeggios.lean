import Mathlib.Algebra.GroupWithZero.Nat
import TextScore.Proofs.Graces
import TextScore.Proofs.Ties

/-! How an arpeggio sounds. Its graces come first, on the timeline itself. Then each voice has one pitch
of the chord, later than the voice before, and all of them are released at one tick; ties that follow
put that tick off for all of them alike. -/
namespace TextScore

/-- What is staged for a chord besides the graces before it. -/
def Staged.mains (staged : Staged) : List Draft := staged.notes.filter fun d => !d.grace

def Staged.graces (staged : Staged) : List Draft := staged.notes.filter (·.grace)

/-- How long an arpeggio is held. What a tuplet owes is added where no silence follows. -/
def Staged.held (extra : Nat) (staged : Staged) : Nat :=
  Draft.sum Draft.duration staged.mains + if staged.rest = 0 then extra else 0

/-- The silence after an arpeggio. What a tuplet owes is added where there is some. -/
def Staged.silence (extra : Nat) (staged : Staged) : Nat :=
  staged.rest + if staged.rest = 0 then 0 else extra

namespace Timeline
variable {t t' : Timeline} {pitch start stop cursor : Nat}

/-- A voice has one note more, of one pitch alone. -/
structure Sings (pitch start stop cursor : Nat) (t t' : Timeline) : Prop where
  note : ∃ n, t'.notes = t.notes ++ [n] ∧ n.pitches = [pitch] ∧ n.start = start ∧ n.stop = stop
  cursor : t'.position = cursor
  latest : ∃ (before : Array Event) (n : Note), t'.events = before.push (.note n) ∧ t'.last = .note before.size

theorem notes_of_push {before : Array Event} {n : Note} (pushed : t.events = before.push (.note n)) :
    t.notes = before.toList.filterMap Event.note? ++ [n] := by
  simp [notes, pushed, Event.note?]

theorem sings_playVoice {offset held velocity rest delay : Nat} (early : delay ≤ held) (t : Timeline) :
    t.Sings pitch (t.position + delay) (t.position + held) (t.position + held + rest)
      (Arena.playVoice offset held velocity rest delay pitch t) := by
  have start : (t.pad delay).position = t.position + delay := position_pad delay t
  let n : Note :=
    ⟨offset, [pitch], (t.pad delay).rests, (t.pad delay).position, held - delay, velocity, false, true⟩
  have pushed : (Arena.playVoice offset held velocity rest delay pitch t).events =
      (t.pad delay).events.push (.note n) := rfl
  have kept : (t.pad delay).events.toList.filterMap Event.note? = t.notes := notes_pad delay
  refine ⟨⟨n, ?_, rfl, start, ?_⟩, Arena.Level.position_playVoice early t, _, n, pushed, rfl⟩
  · rw [notes_of_push pushed, kept]
  · simp only [Note.stop, n, start]
    omega

theorem Sings.of_notes {u : Timeline} (sings : t.Sings pitch start stop cursor t')
    (same : t.notes = u.notes) : u.Sings pitch start stop cursor t' :=
  ⟨same ▸ sings.note, sings.cursor, sings.latest⟩

/-- A tie puts the end of the note off. -/
theorem Sings.lengthenLast (sings : t.Sings pitch start stop cursor t') (ticks : Nat) :
    t.Sings pitch start (stop + ticks) (cursor + ticks) (t'.lengthenLast ticks) := by
  obtain ⟨⟨n, noted, pitched, starts, stops⟩, stands, before, n', pushed, last⟩ := sings
  have same := (notes_of_push pushed).symm.trans noted
  obtain ⟨kept, same⟩ := List.append_inj' same rfl
  cases same
  have longer : (t'.lengthenLast ticks).events =
      before.push (.note { n with duration := n.duration + ticks }) := by
    apply Array.toList_inj.mp
    simp only [Timeline.lengthenLast, last, lengthenNote, pushed, Array.toList_modify,
      Array.toList_push]
    rw [← Array.length_toList, modify_append, Event.lengthen]
  refine ⟨⟨{ n with duration := n.duration + ticks }, ?_, pitched, starts, ?_⟩, ?_, before, _, longer,
    ?_⟩
  · rw [notes_of_push longer, kept]
  · simp only [Note.stop] at stops ⊢
    omega
  · rw [Arena.Level.position_lengthenLast, stands]
  · simp only [Timeline.lengthenLast, last, lengthenNote]

end Timeline

namespace Arena
variable {roots : List TimelineId} {arena arena' arena'' : Arena} {here : TimelineId}
  {offset interval ticks onset held silence : Nat} {graces : List Note} {pitches : List Nat}

/-- Graces have been played on a timeline, and then an arpeggio by its first voices. It began at
`onset`, is held for `held` ticks, and silence follows. -/
structure Rolls (here : TimelineId) (graces : List Note) (pitches : List Nat)
    (onset interval held silence : Nat) (arena arena' : Arena) : Prop where
  graces : (arena'.timeline here).notes = (arena.timeline here).notes ++ graces
  cursor : (arena'.timeline here).position = onset + held + silence
  last : (arena'.timeline here).last = .arpeggio pitches.length
  voices : ∀ (i pitch : Nat), pitches[i]? = some pitch → ∃ voice,
    (arena'.timeline here).voices[i]? = some voice ∧
    (arena.timeline voice).Sings pitch (onset + interval * i) (onset + held)
      (onset + held + silence) (arena'.timeline voice)
  others : ∀ id, id ≠ here → id ∉ (arena'.timeline here).voices.toList.take pitches.length →
    (arena'.timeline id).notes = (arena.timeline id).notes

theorem tie_admits {count : Nat} (last : (arena.timeline here).last = .arpeggio count) (offset : Nat) :
    ∃ ticks arena', (tie here offset).run arena = .ok ticks arena' := by
  have inside : here < arena.timelines.size := by
    by_contra out
    rw [timeline_out (Nat.le_of_not_lt out)] at last
    exact nomatch last
  have known : ((arena.adjust here fun t =>
      (t.calibrate (arena.timeline here).state.quantization).2).timeline here).last =
        .arpeggio count := by
    rw [timeline_adjust_self _ _ _ inside, (Timeline.calibrate_still ..).last, last]
  simp only [Arena.tie, EStateM.run_bind, EStateM.run_get, update_run, known]
  exact ⟨_, _, rfl⟩

/-- Voices in the first slots are among those that a tie lengthens. -/
theorem mem_take_voices {t : Timeline} {i count : Nat} {voice : TimelineId}
    (found : t.voices[i]? = some voice) (early : i < count) : voice ∈ t.voices.toList.take count := by
  refine List.mem_of_getElem? (i := i) ?_
  rw [List.getElem?_take_of_lt early, Array.getElem?_toList, found]

/-- A tie holds all of an arpeggio for longer. -/
theorem Rolls.tie (rolls : Rolls here graces pitches onset interval held silence arena arena')
    (forest : Forest roots arena') (done : (Arena.tie here offset).run arena' = .ok ticks arena'') :
    Rolls here graces pitches onset interval (held + ticks) silence arena arena'' := by
  obtain ⟨delayed, lengthened, rest⟩ := tie_voices forest rolls.last done
  have extended := delayed.extended
  have voices : (arena''.timeline here).voices = (arena'.timeline here).voices := by rw [extended]
  constructor
  · rw [← rolls.graces, Timeline.notes, delayed.events, Timeline.notes]
  · rw [extended, rolls.cursor]
    dsimp only
    omega
  · rw [extended]
    exact rolls.last
  · intro i pitch found
    obtain ⟨voice, slot, sings⟩ := rolls.voices i pitch found
    obtain ⟨early, -⟩ := List.getElem?_eq_some_iff.mp found
    refine ⟨voice, voices ▸ slot, ?_⟩
    have stop : onset + (held + ticks) = onset + held + ticks := by omega
    rw [lengthened voice (mem_take_voices slot early), stop, Nat.add_right_comm _ ticks]
    exact sings.lengthenLast ticks
  · intro id other free
    rw [voices] at free
    rw [rest id other free]
    exact rolls.others id other free

/-- So do ties one after the other, and none of them is refused. -/
theorem Rolls.ties (rolls : Rolls here graces pitches onset interval held silence arena arena')
    (forest : Forest roots arena') (offsets : List Nat) :
    ∃ lengths last, (offsets.mapM (Arena.tie here)).run arena' = .ok lengths last ∧
      Rolls here graces pitches onset interval (held + lengths.sum) silence arena last := by
  induction offsets generalizing arena' held with
  | nil => exact ⟨[], arena', rfl, rolls⟩
  | cons offset offsets ih =>
    obtain ⟨ticks, next, done⟩ := tie_admits rolls.last offset
    obtain ⟨lengths, last, more, rolls⟩ := ih (rolls.tie forest done)
      (forest.tie (inside_of_tie done) done)
    refine ⟨ticks :: lengths, last, ?_, ?_⟩
    · rw [List.mapM_cons, EStateM.run_bind, done]
      dsimp only
      rw [EStateM.run_bind, more]
      rfl
    · rwa [List.sum_cons, ← Nat.add_assoc]

theorem voices_claimed {claimed : List TimelineId} {t : Timeline} {count : Nat}
    (length : claimed.length = count)
    (slots : ∀ (i : Nat) (voice : TimelineId), claimed[i]? = some voice → t.voices[i]? = some voice) :
    claimed = t.voices.toList.take count := by
  apply List.ext_getElem?
  intro i
  by_cases early : i < count
  · have found : claimed[i]? = some claimed[i] := List.getElem?_eq_getElem (length ▸ early)
    rw [found, List.getElem?_take_of_lt early, Array.getElem?_toList, slots i _ found]
  · have late : count ≤ i := Nat.le_of_not_lt early
    rw [List.getElem?_eq_none (length ▸ late), List.getElem?_eq_none]
    exact Nat.le_trans (List.length_take_le ..) late

/-- Each voice plays the pitch in its place, and no other timeline plays. -/
theorem timeline_playVoices (play : (delay pitch : Nat) → Timeline → Timeline) (interval : Nat)
    (arena : Arena) {voices : List TimelineId} (nodup : voices.Nodup)
    (inside : ∀ voice ∈ voices, voice < arena.timelines.size)
    (length : voices.length = pitches.length) :
    (∀ (i : Nat) (voice : TimelineId) (pitch : Nat), voices[i]? = some voice →
      pitches[i]? = some pitch →
      (playVoices play interval 0 (voices.zip pitches) arena).timeline voice =
        play (interval * i) pitch (arena.timeline voice)) ∧
    ∀ id, id ∉ voices →
      (playVoices play interval 0 (voices.zip pitches) arena).timeline id = arena.timeline id := by
  let moves := (voices.zip pitches).mapIdx fun i pair =>
    (pair.1, play (0 + interval * i) pair.2)
  have ids : moves.map Prod.fst = voices := by
    rw [← List.map_fst_zip (Nat.le_of_eq length)]
    apply List.ext_getElem?
    intro i
    simp only [moves, List.getElem?_map, List.getElem?_mapIdx, Option.map_map, Function.comp_def]
  have moved := timeline_moves moves arena (ids ▸ nodup) fun move listed =>
    inside move.1 (ids ▸ List.mem_map_of_mem listed)
  rw [Level.playVoices_eq]
  constructor
  · intro i voice pitch own tone
    have listed : (voice, play (interval * i) pitch) ∈ moves := by
      refine List.mem_of_getElem? (i := i) ?_
      have paired : (voices.zip pitches)[i]? = some (voice, pitch) :=
        List.getElem?_zip_eq_some.mpr ⟨own, tone⟩
      simp only [moves, List.getElem?_mapIdx, paired, Option.map_some, Nat.zero_add]
    exact moved.1 _ listed
  · intro id unlisted
    exact moved.2 id (ids ▸ unlisted)

theorem partition_staged {staged : Staged} {graces mains : List Draft}
    (parted : staged.notes.partition (·.grace) = (graces, mains)) :
    staged.graces = graces ∧ staged.mains = mains := by
  rw [List.partition_eq_filter_filter] at parted
  cases parted
  exact ⟨rfl, rfl⟩

/-- The voices that have been claimed roll the pitches of a chord while their timeline is silent. -/
theorem rolls_voices (forest : Forest roots arena) (inside : here < arena.timelines.size)
    {voices : List TimelineId} {middle : Arena} (silence velocity : Nat)
    (long : interval * (pitches.length - 1) < held)
    (claimed : (claimVoices here offset pitches.length).run arena = .ok voices middle) :
    Rolls here [] pitches (arena.timeline here).position interval held silence arena
      (playVoices (playVoice offset held velocity silence) interval 0 (voices.zip pitches)
        (middle.adjust here fun t =>
          { t.trail (held + silence) with last := .arpeggio pitches.length })) := by
  obtain ⟨silent, caught⟩ := claimed_ready forest inside claimed
  obtain ⟨frame, grown, -⟩ := Frame.claimVoices forest inside claimed
  obtain ⟨inside', length, slots⟩ := slots_claimVoices inside claimed
  have ids : voices = (middle.timeline here).voices.toList.take pitches.length :=
    voices_claimed length slots
  let trail (t : Timeline) : Timeline :=
    { t.trail (held + silence) with last := .arpeggio pitches.length }
  have own : (middle.adjust here trail).timeline here = trail (middle.timeline here) :=
    timeline_adjust_self here trail middle inside'
  have waits (id : TimelineId) (other : id ≠ here) :
      (middle.adjust here trail).timeline id = middle.timeline id :=
    timeline_adjust_ne _ _ (Ne.symm other)
  obtain ⟨plays, rests⟩ := timeline_playVoices (playVoice offset held velocity silence) interval
    (middle.adjust here trail) (ids ▸ (List.take_sublist _ _).nodup (grown.voices_nodup here))
    (fun voice listed => (size_adjust ..).symm ▸ (caught voice listed).2.1) length
  have unlisted : here ∉ voices := fun listed => Nat.lt_irrefl here (caught here listed).1
  have here' := (rests here unlisted).trans own
  constructor
  · rw [here', List.append_nil, ← silent here]
    rfl
  · rw [here', Nat.add_assoc]
    exact congrArg (· + (held + silence)) frame.cursor
  · rw [here']
  · intro i pitch tone
    obtain ⟨early, -⟩ := List.getElem?_eq_some_iff.mp tone
    obtain ⟨voice, found⟩ : ∃ voice, voices[i]? = some voice :=
      ⟨_, List.getElem?_eq_getElem (length ▸ early)⟩
    obtain ⟨younger, -, stands⟩ := caught voice (List.mem_of_getElem? found)
    have delay : interval * i ≤ held := by
      have last : interval * i ≤ interval * (pitches.length - 1) := Nat.mul_le_mul_left _ (by omega)
      omega
    refine ⟨voice, ?_, ?_⟩
    · rw [here']
      exact slots i voice found
    · rw [plays i voice pitch found tone, waits voice (Nat.ne_of_gt younger), ← stands]
      exact (Timeline.sings_playVoice delay (middle.timeline voice)).of_notes (silent voice)
  · intro id other free
    rw [here'] at free
    rw [rests id (ids ▸ free), waits id other, silent id]

/-- Graces that are played before an arpeggio are on the timeline itself. -/
theorem Rolls.after_graces {f : Timeline → Timeline} (inside : here < arena.timelines.size)
    (graced : (f (arena.timeline here)).notes = (arena.timeline here).notes ++ graces)
    (rolls : Rolls here [] pitches onset interval held silence (arena.adjust here f) arena')
    (younger : ∀ voice ∈ (arena'.timeline here).voices, here < voice) :
    Rolls here graces pitches onset interval held silence arena arena' := by
  have apart (id : TimelineId) (other : id ≠ here) :
      (arena.adjust here f).timeline id = arena.timeline id :=
    timeline_adjust_ne _ _ (Ne.symm other)
  constructor
  · rw [rolls.graces, timeline_adjust_self here f arena inside, graced, List.append_nil]
  · exact rolls.cursor
  · exact rolls.last
  · intro i pitch tone
    obtain ⟨voice, slot, sings⟩ := rolls.voices i pitch tone
    have other := Nat.ne_of_gt (younger voice (Array.mem_of_getElem? slot))
    exact ⟨voice, slot, apart voice other ▸ sings⟩
  · intro id other free
    rw [rolls.others id other free, apart id other]

/-- An arpeggio that is committed rolls after its graces. -/
theorem rolls_arpeggio (forest : Forest roots arena) (inside : here < arena.timelines.size)
    {staged : Staged} {chord : Draft} (first : staged.mains.head? = some chord)
    (done : (commitArpeggio here offset staged interval).run arena = .ok ticks arena') :
    Rolls here
      (Draft.log offset (arena.timeline here).rests (arena.timeline here).position staged.graces)
      chord.pitches ((arena.timeline here).position + Draft.sum Draft.duration staged.graces) interval
      (staged.held ((arena.timeline here).calibrate staged.ticks).1)
      (staged.silence ((arena.timeline here).calibrate staged.ticks).1) arena arena' := by
  have grown := forest.commitArpeggio inside done
  obtain ⟨extra, tuned, calibrated, -, arpeggiates⟩ := commitArpeggio_ok done
  have still := Timeline.calibrate_still staged.ticks (arena.timeline here)
  have onward := Timeline.Onward.calibrate staged.ticks (arena.timeline here)
  rw [calibrated] at still onward ⊢
  dsimp only at still onward ⊢
  cases arpeggiates with
  | graces only =>
    have none : staged.mains = [] := by simpa [Staged.mains] using only
    rw [none] at first
    exact nomatch first
  | @chord graces mains chord' held rest voices middle parted total long claimed lasts waits =>
    obtain ⟨before, after⟩ := partition_staged parted
    rw [after] at first
    cases first
    have held_eq : staged.held extra = held := by rw [Staged.held, after, lasts]
    have silence_eq : staged.silence extra = rest := by rw [Staged.silence, waits]
    rw [before, held_eq, silence_eq]
    have graced := forest.onward (f := fun _ => tuned.pushNotes offset graces)
      (onward.trans (.pushNotes offset graces tuned))
    have rolls := rolls_voices graced ((size_adjust ..).symm ▸ inside) rest chord.velocity long claimed
    have pushed := Timeline.notes_pushNotes offset graces tuned
    rw [still.notes, still.rests, still.position] at pushed
    rw [timeline_adjust_self _ _ _ inside, Level.position_pushNotes, still.position] at rolls
    exact rolls.after_graces inside pushed fun voice owned => grown.younger here voice (.inr owned)

end Arena

namespace Session
variable {gas : Nat} {score : List Node} {s : Session} {here : TimelineId} {arena : Arena}

/-- Wherever a run comes through, an arpeggio that is committed rolls: graces come first, then each
pitch, `interval` ticks after the one before, and all notes end together. So they do after ties, none of
which is refused. -/
theorem arpeggio_rolls (visits : Visits gas score s) (inside : here < s.arena.timelines.size)
    {offset interval ticks : Nat} {staged : Staged} {chord : Draft}
    (first : staged.mains.head? = some chord)
    (done : (Arena.commitArpeggio here offset staged interval).run s.arena = .ok ticks arena) :
    let t := s.arena.timeline here
    let extra := (t.calibrate staged.ticks).1
    let graces := Draft.log offset t.rests t.position staged.graces
    let onset := t.position + Draft.sum Draft.duration staged.graces
    Arena.Rolls here graces chord.pitches onset interval (staged.held extra) (staged.silence extra)
      s.arena arena ∧
    ∀ ties : List Nat, ∃ lengths last, (ties.mapM (Arena.tie here)).run arena = .ok lengths last ∧
      Arena.Rolls here graces chord.pitches onset interval (staged.held extra + lengths.sum)
        (staged.silence extra) s.arena last := by
  intro t extra graces onset
  obtain ⟨m, live, tended⟩ := visits.tended
  have forest := tended.sound.forest
  have rolls := Arena.rolls_arpeggio forest inside first done
  exact ⟨rolls, rolls.ties (forest.commitArpeggio inside done)⟩

/-- An arpeggio of three pitches with a grace, after one of two pitches, and two ties. -/
theorem three_pitches_roll : ∃ (score : List Node) (s : Session) (arena last : Arena),
    Visits 20 score s ∧ (s.arena.timeline 0).voices.size = 2 ∧
    (Arena.commitArpeggio 0 9 ⟨[⟨[72], 8, 80, true⟩, ⟨[60, 64, 67], 24, 80, false⟩], 0⟩ 8).run s.arena =
      .ok 32 arena ∧
    ([10, 11].mapM (Arena.tie 0)).run arena = .ok [32, 32] last ∧
    Arena.Rolls 0 (Draft.log 9 32 32 [⟨[72], 8, 80, true⟩]) [60, 64, 67] 40 8 88 0 s.arena last := by
  let key (pitch : Nat) : Key := ⟨4, .pitchClass pitch, 0, 0⟩
  let item : Item := .chord ⟨5, true, [key 0, key 4]⟩
  let staged : Staged := ⟨[⟨[72], 8, 80, true⟩, ⟨[60, 64, 67], 24, 80, false⟩], 0⟩
  have played : (do
      let _ ← step none ⟨.item item, false⟩
      let s ← get
      let ticks ← onArena (Arena.commitArpeggio 0 9 staged 8)
      let lengths ← onArena ([10, 11].mapM (Arena.tie 0))
      let t := s.arena.timeline 0
      return ([ticks, s.arena.timelines.size, t.voices.size, t.rests, t.position,
        (t.calibrate staged.ticks).1], lengths) : Play (List Nat × List Nat)).run' { gas := ⟨20⟩ } =
          some ([32, 3, 2, 32, 32, 0], [32, 32]) := by decide +kernel
  obtain ⟨t, played⟩ := Step.exists_of_run' played
  obtain ⟨⟨active, again⟩, s, stepped, played⟩ := Step.bind_ok played
  obtain ⟨_, _, read, played⟩ := Step.bind_ok played
  cases read
  obtain ⟨ticks, _, committed, played⟩ := Step.bind_ok played
  obtain ⟨arena, chord, rfl⟩ := onArena_ok committed
  obtain ⟨lengths, _, tied, played⟩ := Step.bind_ok played
  obtain ⟨last, ties, rfl⟩ := onArena_ok tied
  obtain ⟨told, -⟩ := EStateM.Result.ok.inj played
  simp only [Prod.mk.injEq, List.cons.injEq] at told
  obtain ⟨⟨rfl, size, voices, rests, position, extra, -⟩, rfl⟩ := told
  have visits : Visits 20 [.item item] s := .between (.single (.node stepped))
  have inside : 0 < s.arena.timelines.size := size ▸ Nat.zero_lt_succ 2
  have first : staged.mains.head? = some ⟨[60, 64, 67], 24, 80, false⟩ := rfl
  obtain ⟨-, after⟩ := arpeggio_rolls visits inside first chord
  obtain ⟨_, _, same, rolls⟩ := after [10, 11]
  cases ties.symm.trans same
  rw [rests, position, extra] at rolls
  exact ⟨_, s, arena, last, visits, voices, chord, ties, rolls⟩

end Session
end TextScore
