import TextScore.Proofs.Advances

/-! What ties extend. The last thing a timeline played is a note that ends its log, a rest, or an
arpeggio whose voices are still there and played notes last. So no tie is lost: it holds a note, the
silence that waits, or the notes of an arpeggio for longer, and changes nothing else. -/
namespace TextScore

namespace Timeline
variable {t t' : Timeline} {ticks : Nat}

/-- The event at a place of the log is a note, and no note comes after it. -/
def Latest (t : Timeline) (index : Nat) (n : Note) : Prop :=
  ∃ before after, t.events.toList = before ++ .note n :: after ∧ before.length = index ∧
    after.filterMap Event.note? = []

/-- An arpeggio has voices, and the timeline that played it last has as many. -/
def Counted (t : Timeline) : Prop :=
  ∀ count, t.last = .arpeggio count → 1 ≤ count ∧ count ≤ t.voices.size

theorem counted_new (channel : Nat) : Counted { channel := channel } :=
  fun _ last => nomatch last

/-- No arpeggio has been played since, and no voice is lost. -/
structure Retains (t t' : Timeline) : Prop where
  voices : t'.voices = t.voices
  last : ∀ count, t'.last = .arpeggio count → t.last = .arpeggio count

namespace Retains

theorem refl (t : Timeline) : t.Retains t := ⟨rfl, fun _ => id⟩

theorem trans {t'' : Timeline} (first : t.Retains t') (second : t'.Retains t'') : t.Retains t'' :=
  ⟨second.voices.trans first.voices, fun count last => first.last count (second.last count last)⟩

theorem counted (retains : t.Retains t') (counted : t.Counted) : t'.Counted := by
  intro count last
  rw [retains.voices]
  exact counted count (retains.last count last)

theorem still (still : t.Still t') : t.Retains t' :=
  ⟨still.voices, fun _ last => still.last ▸ last⟩

theorem trail (ticks : Nat) (t : Timeline) : t.Retains (t.trail ticks) := ⟨rfl, fun _ => id⟩

theorem pad (length : Nat) (t : Timeline) : t.Retains (t.pad length) := by
  unfold Timeline.pad
  split
  · exact refl t
  · exact ⟨rfl, fun _ last => nomatch last⟩

theorem pushNotes (offset : Nat) (drafts : List Draft) (t : Timeline) :
    t.Retains (t.pushNotes offset drafts) := by
  induction drafts generalizing t with
  | nil => exact refl t
  | cons draft drafts ih =>
    have first : t.Retains (t.pushNote offset false draft) := ⟨rfl, fun _ last => nomatch last⟩
    exact first.trans (ih _)

theorem lengthenLast (ticks : Nat) (t : Timeline) : t.Retains (t.lengthenLast ticks) := by
  unfold Timeline.lengthenLast
  split <;> exact ⟨rfl, fun _ => id⟩

theorem playVoice (offset held velocity rest delay pitch : Nat) (t : Timeline) :
    t.Retains (Arena.playVoice offset held velocity rest delay pitch t) :=
  ⟨(pad delay t).voices, fun _ last => nomatch last⟩

theorem change {f : Timeline → Timeline} (change : Change f) (t : Timeline) : t.Retains (f t) := by
  cases change with
  | bends bends => exact still (addBends_still bends t)
  | _ => exact ⟨rfl, fun _ => id⟩

/-- Whatever is performed on a timeline alone. -/
theorem played (played : t.Played t') : t.Retains t' := by
  cases played with
  | change tweak => exact change tweak t
  | beginTuplet done => exact still (beginTuplet_still done)
  | reserve => exact ⟨rfl, fun _ => id⟩
  | rest =>
    unfold Timeline.rest restFor
    split
    · exact refl t
    · exact (still (calibrate_still _ t)).trans (pad _ _)
  | note offset staged =>
    exact (still (calibrate_still _ t)).trans ((pushNotes ..).trans (trail ..))

end Retains

theorem calibrate_eq (ticks : Nat) (t : Timeline) :
    (t.calibrate ticks).2 = { t with tuplet := (t.calibrate ticks).2.tuplet } := by
  unfold calibrate
  split <;> rfl

/-- A tie of so many ticks changes no more of a timeline than its log, the silence that waits, and what
its tuplet has paid. -/
def Extended (ticks : Nat) (t t' : Timeline) : Prop :=
  t' = { t with
    events := t'.events
    rests := t'.rests
    position := t.position + ticks
    tuplet := t'.tuplet }

/-- The last note of the log is held for longer. -/
structure Prolonged (ticks : Nat) (t t' : Timeline) : Prop where
  extended : t.Extended ticks t'
  log : ∃ before n after, t.events.toList = before ++ .note n :: after ∧
    after.filterMap Event.note? = [] ∧
    t'.events.toList = before ++ .note { n with duration := n.duration + ticks } :: after
  rests : t'.rests = t.rests

/-- The silence that waits is longer. -/
structure Delayed (ticks : Nat) (t t' : Timeline) : Prop where
  extended : t.Extended ticks t'
  events : t'.events = t.events
  rests : t'.rests = t.rests + ticks

theorem Orderly.prolonged {index : Nat} (orderly : t.Orderly) (last : t.last = .note index)
    (ticks : Nat) (tuplet : Option Tuplet) :
    t.Prolonged ticks { t.lengthenNote index ticks with tuplet := tuplet } := by
  obtain ⟨before, n, after, logged, rfl, silent⟩ := orderly.latest index last
  refine ⟨rfl, ⟨before, n, after, logged, silent, ?_⟩, rfl⟩
  have longer : (t.lengthenNote before.length ticks).events.toList = _ := Array.toList_modify
  simp only [longer, logged, modify_append, Event.lengthen]

end Timeline

namespace Arena
variable {roots : List TimelineId} {arena arena' : Arena} {here id : TimelineId} {ticks offset : Nat}
  {f : Timeline → Timeline}

/-- Every arpeggio that was played last has its voices. -/
def Counted (arena : Arena) : Prop := ∀ id, (arena.timeline id).Counted

namespace Counted

theorem adjust (counted : arena.Counted)
    (kept : (arena.timeline id).Counted → (f (arena.timeline id)).Counted) :
    (arena.adjust id f).Counted := by
  intro other
  rw [timeline_adjust_or]
  split
  · exact kept (counted id)
  · exact counted other

theorem retain (counted : arena.Counted)
    (retains : (arena.timeline id).Retains (f (arena.timeline id))) : (arena.adjust id f).Counted :=
  counted.adjust retains.counted

theorem retainAll (counted : arena.Counted) (moves : List (TimelineId × (Timeline → Timeline)))
    (retains : ∀ move ∈ moves, ∀ t, Timeline.Retains t (move.2 t)) :
    (moves.foldl (fun arena move => arena.adjust move.1 move.2) arena).Counted := by
  induction moves generalizing arena with
  | nil => exact counted
  | cons move moves ih =>
    obtain ⟨first, others⟩ := List.forall_mem_cons.mp retains
    exact ih (counted.retain (first _)) others

theorem create (counted : arena.Counted) (channel : Nat) : (arena.create channel).2.Counted := by
  intro other
  rw [timeline_create]
  split
  · exact Timeline.counted_new channel
  · exact counted other

theorem addChild (counted : arena.Counted) (inside : here < arena.timelines.size) (slot : Slot) :
    (arena.addChild here slot).Counted := by
  intro other
  rw [timeline_addChild inside]
  split
  · have own := counted here
    cases slot with
    | branch => exact own
    | voice =>
      intro count last
      obtain ⟨some, enough⟩ := own count last
      simp only [Slot.push, Array.size_push]
      exact ⟨some, Nat.le_succ_of_le enough⟩
  · split
    · exact Timeline.counted_new _
    · exact counted other

theorem childAt (counted : arena.Counted) (inside : here < arena.timelines.size) {slot : Slot}
    (done : (Arena.childAt here offset slot).run arena = .ok id arena') : arena'.Counted := by
  obtain ⟨-, -, rfl⟩ := childAt_ok done
  have grown : (arena.withChild here slot).Counted :=
    withChild_rule inside slot counted fun inside counted => counted.addChild inside slot
  have adopts (parent child : Timeline) : child.Retains (parent.follow child) := by
    have taught : child.Retains { child with state := parent.state, tuplet := parent.tuplet } :=
      ⟨rfl, fun _ last => last⟩
    exact taught.trans (.pad ..)
  exact grown.retain (adopts ..)

theorem tie (counted : arena.Counted) (inside : here < arena.timelines.size)
    (done : (Arena.tie here offset).run arena = .ok ticks arena') : arena'.Counted := by
  obtain ⟨extra, tuned, calibrated, -, ties⟩ := tie_ok inside done
  have retains := Timeline.Retains.still
    (Timeline.calibrate_still (arena.timeline here).state.quantization (arena.timeline here))
  rw [calibrated] at retains
  have trailed : (arena.adjust here fun _ => tuned.trail ticks).Counted :=
    counted.retain (retains.trans (.trail ticks tuned))
  cases ties with
  | note last => exact counted.retain (retains.trans ⟨rfl, fun _ last => last⟩)
  | rest => exact trailed
  | @arpeggio count =>
    have lengthened := trailed.retainAll
      ((tuned.voices.toList.take count).map fun voice => (voice, Timeline.lengthenLast ticks))
      fun move listed => by
        obtain ⟨voice, -, rfl⟩ := List.mem_map.mp listed
        exact .lengthenLast ticks
    rwa [List.foldl_map] at lengthened

end Counted

theorem inside_childAt (inside : here < arena.timelines.size) {slot : Slot}
    (done : (childAt here offset slot).run arena = .ok id arena') : here < arena'.timelines.size := by
  obtain ⟨-, -, rfl⟩ := childAt_ok done
  rw [size_adjust]
  exact Nat.lt_of_lt_of_le inside (size_list_repeat inside ..).1

/-- A voice that is claimed is in its slot, and those in other slots stay there. -/
theorem slots_claimVoice (inside : here < arena.timelines.size) {index : Nat}
    (done : (childAt here offset (.voice index)).run arena = .ok id arena') :
    (arena'.timeline here).voices[index]? = some id ∧
      ∀ (i : Nat) (voice : TimelineId), (arena.timeline here).voices[i]? = some voice →
        (arena'.timeline here).voices[i]? = some voice := by
  obtain ⟨taken, -, rfl⟩ := childAt_ok done
  rw [voices_adjust (Timeline.follow_strides ..)]
  exact ⟨Level.slot_claimed inside (.voice index) taken,
    fun i voice => Level.list_withChild inside (.voice index)⟩

/-- The voices of an arpeggio are the first ones that the timeline has. -/
theorem slots_claimVoices (inside : here < arena.timelines.size) {count : Nat}
    {claimed : List TimelineId}
    (done : (claimVoices here offset count).run arena = .ok claimed arena') :
    here < arena'.timelines.size ∧ claimed.length = count ∧
      ∀ (i : Nat) (voice : TimelineId), claimed[i]? = some voice →
        (arena'.timeline here).voices[i]? = some voice := by
  induction count generalizing claimed arena' with
  | zero =>
    cases done
    exact ⟨inside, rfl, fun _ _ found => by cases found⟩
  | succ count ih =>
    rw [claimVoices, List.range_succ, List.mapM_append] at done
    obtain ⟨before, middle, first, done⟩ := Step.bind_ok done
    obtain ⟨last, _, second, done⟩ := Step.bind_ok done
    cases done
    simp only [List.mapM_cons, List.mapM_nil, pure_bind] at second
    obtain ⟨voice, _, one, done⟩ := Step.bind_ok second
    cases done
    obtain ⟨inside, length, slots⟩ := ih first
    obtain ⟨own, kept⟩ := slots_claimVoice inside one
    refine ⟨inside_childAt inside one, ?_, fun i voice found => ?_⟩
    · rw [List.length_append, length, List.length_singleton]
    · rcases Nat.lt_or_ge i before.length with early | late
      · rw [List.getElem?_append_left early] at found
        exact kept i voice (slots i voice found)
      · rw [List.getElem?_append_right late, List.getElem?_singleton] at found
        split at found
        · cases found
          have same : i = count := by omega
          exact same ▸ own
        · cases found

theorem Counted.claimVoices (counted : arena.Counted) (inside : here < arena.timelines.size)
    {count : Nat} {claimed : List TimelineId}
    (done : (Arena.claimVoices here offset count).run arena = .ok claimed arena') :
    arena'.Counted := by
  have both := claimVoices_rule
    (motive := fun arena _ => here < arena.timelines.size ∧ arena.Counted) ⟨inside, counted⟩
    (fun ⟨inside, counted⟩ one => ⟨inside_childAt inside one, counted.childAt inside one⟩) done
  exact both.2

/-- The graces of a chord are set apart, and what is left begins with the chord itself. -/
theorem parted_chord {notes graces mains : List Draft} {chord : Draft}
    (parted : notes.partition (·.grace) = (graces, chord :: mains)) : chord ∈ notes ∧ ¬ chord.grace := by
  have sides : notes.filter (not ∘ (·.grace)) = chord :: mains :=
    congrArg Prod.snd ((List.partition_eq_filter_filter ..).symm.trans parted)
  have listed : chord ∈ notes.filter (not ∘ (·.grace)) := by
    rw [sides]
    exact List.mem_cons_self
  simpa using listed

theorem Counted.commitArpeggio (counted : arena.Counted) (inside : here < arena.timelines.size)
    {interval : Nat} {staged : Staged} (sounds : Session.Sounds staged)
    (done : (Arena.commitArpeggio here offset staged interval).run arena = .ok ticks arena') :
    arena'.Counted := by
  obtain ⟨extra, tuned, calibrated, -, arpeggiates⟩ := commitArpeggio_ok done
  have retains := Timeline.Retains.still
    (Timeline.calibrate_still staged.ticks (arena.timeline here))
  rw [calibrated] at retains
  cases arpeggiates with
  | graces only => exact counted.retain (retains.trans ((Timeline.Retains.pushNotes ..).trans (.trail ..)))
  | @chord graces mains chord held rest voices middle parted total long claimed =>
    have inside' : here < (arena.adjust here fun _ => tuned.pushNotes offset graces).timelines.size :=
      (size_adjust ..).symm ▸ inside
    have graced : (arena.adjust here fun _ => tuned.pushNotes offset graces).Counted :=
      counted.retain (retains.trans (.pushNotes ..))
    obtain ⟨-, length, slots⟩ := slots_claimVoices inside' claimed
    obtain ⟨listed, main⟩ := parted_chord parted
    have some : 1 ≤ chord.pitches.length := List.length_pos_iff.mpr (sounds chord listed main)
    have waiting : (middle.adjust here fun t =>
        { t.trail (held + rest) with last := .arpeggio chord.pitches.length }).Counted := by
      refine (graced.claimVoices inside' claimed).adjust fun _ count last => ?_
      cases last
      refine ⟨some, ?_⟩
      have last : chord.pitches.length - 1 < voices.length := by omega
      have found := slots _ _ (List.getElem?_eq_getElem last)
      obtain ⟨there, -⟩ := Array.getElem?_eq_some_iff.mp found
      simp only [Timeline.trail]
      omega
    rw [Level.playVoices_eq]
    refine waiting.retainAll _ fun move listed => ?_
    obtain ⟨i, there, rfl⟩ := List.mem_mapIdx.mp listed
    exact .playVoice _ _ _ _ _ _

theorem Counted.played (counted : arena.Counted) (inside : here < arena.timelines.size)
    (played : arena.Played here arena') : arena'.Counted := by
  cases played with
  | silent => exact counted
  | timeline played => exact counted.retain (.played played)
  | tie done => exact counted.tie inside done
  | arpeggio sounds done => exact counted.commitArpeggio inside sounds done

/-- What a tie finds to extend. -/
inductive Extensible (here : TimelineId) (arena : Arena) : Prop
  | nothing (last : (arena.timeline here).last = .nothing)
  | rest (last : (arena.timeline here).last = .rest)
  | note {index : Nat} {n : Note} (last : (arena.timeline here).last = .note index)
    (latest : (arena.timeline here).Latest index n)
  | arpeggio {count : Nat} (last : (arena.timeline here).last = .arpeggio count) (some : 1 ≤ count)
    (enough : count ≤ (arena.timeline here).voices.size)
    (latest : ∀ voice ∈ (arena.timeline here).voices.toList.take count, ∃ index n,
      (arena.timeline voice).last = .note index ∧ (arena.timeline voice).Latest index n)

/-- What a tie of so many ticks does. -/
inductive Lengthens (here : TimelineId) (ticks : Nat) (arena arena' : Arena) : Prop
  | note {index : Nat} (last : (arena.timeline here).last = .note index)
    (own : (arena.timeline here).Prolonged ticks (arena'.timeline here))
    (others : ∀ id, id ≠ here → arena'.timeline id = arena.timeline id)
  | rest (last : (arena.timeline here).last = .rest)
    (own : (arena.timeline here).Delayed ticks (arena'.timeline here))
    (others : ∀ id, id ≠ here → arena'.timeline id = arena.timeline id)
  | arpeggio {count : Nat} (last : (arena.timeline here).last = .arpeggio count)
    (own : (arena.timeline here).Delayed ticks (arena'.timeline here))
    (voices : ∀ voice ∈ (arena.timeline here).voices.toList.take count,
      (arena.timeline voice).Prolonged ticks (arena'.timeline voice))
    (others : ∀ id, id ≠ here → id ∉ (arena.timeline here).voices.toList.take count →
      arena'.timeline id = arena.timeline id)

theorem Sound.latest {idle : List TimelineId} (sound : Sound roots idle arena) {index : Nat}
    (last : (arena.timeline id).last = .note index) : ∃ n, (arena.timeline id).Latest index n := by
  obtain ⟨before, n, after, logged, place, silent⟩ := (sound.orderly id).latest index last
  exact ⟨n, before, after, logged, place, silent⟩

/-- Whatever the timelines of an arena in order have played last can be extended. -/
theorem Sound.extensible (sound : Sound roots [] arena) (counted : arena.Counted) (here : TimelineId) :
    arena.Extensible here := by
  cases last : (arena.timeline here).last with
  | nothing => exact .nothing last
  | rest => exact .rest last
  | note index =>
    obtain ⟨n, latest⟩ := sound.latest last
    exact .note last latest
  | arpeggio count =>
    obtain ⟨some, enough⟩ := counted here count last
    refine .arpeggio last some enough fun voice listed => ?_
    have owned : voice ∈ (arena.timeline here).voices :=
      Array.mem_toList_iff.mp (List.mem_of_mem_take listed)
    obtain ⟨index, last⟩ := sound.voiced voice (voice_listed owned) List.not_mem_nil
    obtain ⟨n, latest⟩ := sound.latest last
    exact ⟨index, n, last, latest⟩

/-- Where nothing has been played there is nothing to extend. -/
theorem inside_of_tie (done : (Arena.tie here offset).run arena = .ok ticks arena') :
    here < arena.timelines.size := by
  by_contra out
  simp only [Arena.tie, EStateM.run_bind, EStateM.run_get, update_run,
    adjust_out (Nat.le_of_not_lt out), timeline_out (Nat.le_of_not_lt out)] at done
  cases done

/-- Each of some timelines changes once. -/
theorem timeline_moves (moves : List (TimelineId × (Timeline → Timeline))) (arena : Arena)
    (nodup : (moves.map Prod.fst).Nodup) (inside : ∀ move ∈ moves, move.1 < arena.timelines.size) :
    (∀ move ∈ moves, (moves.foldl (fun arena move => arena.adjust move.1 move.2) arena).timeline
      move.1 = move.2 (arena.timeline move.1)) ∧
    ∀ id, id ∉ moves.map Prod.fst →
      (moves.foldl (fun arena move => arena.adjust move.1 move.2) arena).timeline id =
        arena.timeline id := by
  induction moves generalizing arena with
  | nil => exact ⟨nofun, fun _ _ => rfl⟩
  | cons first moves ih =>
    obtain ⟨unlisted, nodup⟩ := List.nodup_cons.mp nodup
    obtain ⟨present, others⟩ := List.forall_mem_cons.mp inside
    have rest := ih (arena.adjust first.1 first.2) nodup
      fun move listed => (size_adjust ..).symm ▸ others move listed
    constructor
    · intro move listed
      rcases List.mem_cons.mp listed with rfl | listed
      · exact (rest.2 _ unlisted).trans (timeline_adjust_self _ _ _ present)
      · have apart : first.1 ≠ move.1 := fun same =>
          unlisted (same ▸ List.mem_map_of_mem listed)
        exact (rest.1 move listed).trans (congrArg move.2 (timeline_adjust_ne _ _ apart))
    · intro id unlisted
      obtain ⟨apart, unlisted⟩ := not_or.mp (mt List.mem_cons.mpr unlisted)
      exact (rest.2 id unlisted).trans (timeline_adjust_ne _ _ (Ne.symm apart))

/-- A tie holds the voices of an arpeggio, while the timeline itself is silent. -/
theorem tie_voices (forest : Forest roots arena) {count : Nat}
    (last : (arena.timeline here).last = .arpeggio count)
    (done : (Arena.tie here offset).run arena = .ok ticks arena') :
    (arena.timeline here).Delayed ticks (arena'.timeline here) ∧
    (∀ voice ∈ (arena.timeline here).voices.toList.take count,
      arena'.timeline voice = (arena.timeline voice).lengthenLast ticks) ∧
    ∀ id, id ≠ here → id ∉ (arena.timeline here).voices.toList.take count →
      arena'.timeline id = arena.timeline id := by
  have inside := inside_of_tie done
  obtain ⟨extra, tuned, calibrated, -, ties⟩ := tie_ok inside done
  have tuplet := Timeline.calibrate_eq (arena.timeline here).state.quantization (arena.timeline here)
  rw [calibrated] at tuplet
  dsimp only at tuplet
  have known : tuned.last = .arpeggio count := by rw [tuplet, last]
  have voices : tuned.voices = (arena.timeline here).voices := by rw [tuplet]
  cases ties with
  | note other | rest other => exact nomatch known.symm.trans other
  | arpeggio same =>
    cases known.symm.trans same
    rw [voices]
    generalize played : (arena.timeline here).voices.toList.take count = ids
    have owned : ∀ voice ∈ ids, voice ∈ (arena.timeline here).voices := fun voice listed =>
      Array.mem_toList_iff.mp (List.mem_of_mem_take (played ▸ listed))
    have younger : here ∉ ids := fun listed =>
      Nat.lt_irrefl here (forest.younger here here (.inr (owned here listed)))
    let moves := ids.map fun voice => (voice, Timeline.lengthenLast ticks)
    have same : moves.map Prod.fst = ids := by simp [moves, Function.comp_def]
    have nodup : ids.Nodup := played ▸ (List.take_sublist count _).nodup (forest.voices_nodup here)
    have moved := timeline_moves moves (arena.adjust here fun _ => tuned.trail ticks) (same ▸ nodup) fun move listed => by
        obtain ⟨voice, member, rfl⟩ := List.mem_map.mp listed
        rw [size_adjust]
        exact forest.lt_size (List.mem_append_right _ (voice_listed (owned voice member)))
    rw [same, List.foldl_map] at moved
    have apart (id : TimelineId) (other : id ≠ here) :
        (arena.adjust here fun _ => tuned.trail ticks).timeline id = arena.timeline id :=
      timeline_adjust_ne _ _ (Ne.symm other)
    refine ⟨?_, fun voice listed => ?_, fun id other free => ?_⟩
    · have delayed : (arena.timeline here).Delayed ticks (tuned.trail ticks) := by
        rw [tuplet]
        exact ⟨rfl, rfl, rfl⟩
      rw [← timeline_adjust_self here (fun _ => tuned.trail ticks) arena inside] at delayed
      exact (moved.2 here younger).symm ▸ delayed
    · have other : voice ≠ here := fun same => younger (same ▸ listed)
      exact (moved.1 _ (List.mem_map_of_mem listed)).trans
        (congrArg (Timeline.lengthenLast ticks) (apart voice other))
    · exact (moved.2 id free).trans (apart id other)

/-- A tie extends what was played last, and nothing else. -/
theorem Sound.lengthens (sound : Sound roots [] arena)
    (done : (Arena.tie here offset).run arena = .ok ticks arena') :
    arena.Lengthens here ticks arena' := by
  have inside := inside_of_tie done
  obtain ⟨extra, tuned, calibrated, -, ties⟩ := tie_ok inside done
  have tuplet := Timeline.calibrate_eq (arena.timeline here).state.quantization (arena.timeline here)
  rw [calibrated] at tuplet
  dsimp only at tuplet
  have still : tuned.last = (arena.timeline here).last := by rw [tuplet]
  have own (f : Timeline → Timeline) :
      (arena.adjust here fun _ => f tuned).timeline here = f tuned :=
    timeline_adjust_self here _ arena inside
  have others (f : Timeline → Timeline) (id : TimelineId) (other : id ≠ here) :
      (arena.adjust here fun _ => f tuned).timeline id = arena.timeline id :=
    timeline_adjust_ne _ _ (Ne.symm other)
  cases ties with
  | @note index last =>
    rw [still] at last
    refine .note last ?_ (others (Timeline.lengthenNote index ticks))
    rw [own (Timeline.lengthenNote index ticks), tuplet]
    exact (sound.orderly here).prolonged last ticks tuned.tuplet
  | rest last =>
    rw [still] at last
    refine .rest last ?_ (others (Timeline.trail ticks))
    rw [own (Timeline.trail ticks), tuplet]
    exact ⟨rfl, rfl, rfl⟩
  | @arpeggio count last =>
    rw [still] at last
    obtain ⟨delayed, lengthened, rest⟩ := tie_voices sound.forest last done
    refine .arpeggio last delayed (fun voice listed => ?_) rest
    have owned : voice ∈ (arena.timeline here).voices :=
      Array.mem_toList_iff.mp (List.mem_of_mem_take listed)
    obtain ⟨index, last⟩ := sound.voiced voice (voice_listed owned) List.not_mem_nil
    rw [lengthened voice listed, Timeline.lengthenLast, last]
    exact (sound.orderly voice).prolonged last ticks (arena.timeline voice).tuplet

end Arena

namespace Session
variable {gas : Nat} {score : List Node} {s t : Session}

theorem upkeep_counted : Upkeep fun m live s => s.Tended m live ∧ s.arena.Counted where
  shrink within h := ⟨upkeep_tended.shrink within h.1, h.2⟩
  primitive {m live here α p s t a} member primitive h done := by
    have inside := h.1.sound.inside (h.1.playable here member)
    have tended := (h.1.primitive member primitive done).2
    exact ⟨tended, h.2.played inside (primitive.played done).arena⟩
  branch {m live here offset index child s t} member h done := by
    have inside := h.1.sound.inside (h.1.playable here member)
    refine ⟨upkeep_tended.branch member h.1 done, ?_⟩
    obtain ⟨arena, claimed, rfl⟩ := onArena_ok done
    exact h.2.childAt inside claimed
  copy h := ⟨upkeep_tended.copy h.1, h.2⟩

theorem handover_counted : Handover (Held Arena.Counted) where
  aside held arena channels measuring gas := by
    obtain ⟨tended, -⟩ := (handover_held lasts_true).aside ⟨held.tended, trivial⟩ arena channels
      measuring gas
    exact ⟨tended, arena ▸ held.holds⟩
  start channel held := by
    obtain ⟨tended, -⟩ := (handover_held lasts_true).start channel ⟨held.tended, trivial⟩
    exact ⟨tended, held.holds.create channel⟩
  resume held root := by
    obtain ⟨tended, -⟩ := (handover_held lasts_true).resume ⟨held.tended, trivial⟩ root
    exact ⟨tended, held.holds⟩
  repeats f held := by
    obtain ⟨tended, -⟩ := (handover_held lasts_true).repeats f ⟨held.tended, trivial⟩
    exact ⟨tended, held.holds.retain ⟨rfl, fun _ last => last⟩⟩
  item held done := by
    obtain ⟨tended, counted⟩ := upkeep_counted.perform List.mem_cons_self
      ⟨held.tended, held.holds⟩ done
    exact ⟨tended, counted⟩

theorem rounds_counted {c : Config} (rounds : Rounds (.start gas score) c) :
    Held Arena.Counted c.active c.session :=
  handover_counted.rounds rounds (held_start (fun _ => Timeline.counted_new 0) gas score)

theorem Reaches.counted {depth : Nat} {call : Call} (reached : Reaches gas score depth call) :
    ∃ m live, call.here ∈ live ∧ call.session.Tended m live ∧ call.session.arena.Counted := by
  induction reached with
  | @node active item again rest s t here rounds approached =>
    have held := handover_counted.approach again (rounds_counted rounds) approached
    exact ⟨false, [here], List.mem_cons_self, held.tended, held.holds⟩
  | inner reached asks ih =>
    obtain ⟨m, live, member, held⟩ := ih
    exact upkeep_counted.asked member held asks

theorem Visits.counted (visits : Visits gas score s) : s.arena.Counted := by
  cases visits with
  | between rounds => exact (rounds_counted rounds).holds
  | before reached =>
    obtain ⟨m, live, -, -, counted⟩ := reached.counted
    exact counted
  | after reached performed =>
    obtain ⟨m, live, member, held⟩ := reached.counted
    exact (upkeep_counted.perform member held performed).2

/-- Wherever a run comes through, what each timeline played last is there to be extended, and a tie that
succeeds extends it. -/
theorem ties_extend (visits : Visits gas score s) : (∀ here, s.arena.Extensible here) ∧
    ∀ here offset ticks t, (onArena (Arena.tie here offset)).run s = .ok ticks t →
      s.arena.Lengthens here ticks t.arena := by
  obtain ⟨m, live, tended⟩ := visits.tended
  constructor
  · exact tended.sound.extensible visits.counted
  · intro here offset ticks t done
    obtain ⟨arena, ran, rfl⟩ := onArena_ok done
    exact tended.sound.lengthens ran

/-- A tie after an arpeggio of three keys. -/
theorem arpeggio_tied : ∃ (score : List Node) (s t : Session), Visits 20 score s ∧
    (onArena (Arena.tie 0 9)).run s = .ok 32 t ∧ (s.arena.timeline 0).last = .arpeggio 3 ∧
    s.arena.Lengthens 0 32 t.arena := by
  let key (pitch : Nat) : Key := ⟨4, .pitchClass pitch, 0, 0⟩
  let chord : Item := .chord ⟨5, true, [key 0, key 4, key 7]⟩
  have played : (do
      let next ← step none ⟨.item chord, false⟩
      let s ← get
      let ticks ← onArena (Arena.tie 0 9)
      return (next.1, next.2.length, ticks, (s.arena.timeline 0).last) :
        Play (Option TimelineId × Nat × Nat × LastUnit)).run' { gas := ⟨20⟩ } =
          some (some 0, 0, 32, .arpeggio 3) := by decide +kernel
  obtain ⟨t, played⟩ := Step.exists_of_run' played
  obtain ⟨⟨active, again⟩, s, stepped, played⟩ := Step.bind_ok played
  obtain ⟨_, _, read, played⟩ := Step.bind_ok played
  cases read
  obtain ⟨ticks, _, tied, played⟩ := Step.bind_ok played
  obtain ⟨told, rfl⟩ := EStateM.Result.ok.inj played
  simp only [Prod.mk.injEq] at told
  obtain ⟨rfl, -, rfl, last⟩ := told
  have visits : Visits 20 [.item chord] s := .between (.single (.node stepped))
  exact ⟨_, s, _, visits, tied, last, (ties_extend visits).2 0 9 32 _ tied⟩

end Session
end TextScore
