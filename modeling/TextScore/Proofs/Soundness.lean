import TextScore.Proofs.Forest

/-! The invariant of an arena between two steps: a forest of timelines in order, in which every
voice has played a note last. A tie on an arpeggio lengthens the latest notes of voices, so it
relies on them. -/
namespace TextScore.Arena
open Relation (ReflTransGen)
variable {roots idle idle' : List TimelineId} {arena arena' : Arena} {id here : TimelineId}

/-- Voices on the list have been claimed by an arpeggio and not played yet. -/
structure Sound (roots idle : List TimelineId) (arena : Arena) : Prop where
  forest : Forest roots arena
  orderly : ∀ id, (arena.timeline id).Orderly
  voiced : ∀ voice ∈ arena.voices, voice ∉ idle → ∃ index, (arena.timeline voice).last = .note index

/-- Items are performed on roots and branches only. -/
def Playable (roots : List TimelineId) (id : TimelineId) (arena : Arena) : Prop :=
  id ∈ roots ++ arena.branches

theorem Playable.grows (playable : arena.Playable roots id) (grows : arena.Grows arena') :
    arena'.Playable roots id := by
  rcases List.mem_append.mp playable with root | branch
  · exact List.mem_append_left _ root
  · exact List.mem_append_right _ (grows.branches branch)

theorem last_addChild (inside : here < arena.timelines.size) (slot : Slot)
    (old : id < arena.timelines.size) :
    ((arena.addChild here slot).timeline id).last = (arena.timeline id).last := by
  rw [timeline_addChild inside, if_neg (Nat.ne_of_lt old)]
  split
  · next same => cases slot <;> exact same ▸ rfl
  · rfl

namespace Sound

theorem inside (sound : Sound roots idle arena) (playable : arena.Playable roots id) :
    id < arena.timelines.size :=
  sound.forest.lt_size (List.mem_append_left _ playable)

/-- A timeline may stride on if it is no voice that must have played a note last, or has. -/
theorem adjust (sound : Sound roots idle arena) {f : Timeline → Timeline}
    (strides : (arena.timeline id).Strides (f (arena.timeline id)))
    (settled : id ∈ arena.voices → id ∈ idle' ∨ ∃ index, (f (arena.timeline id)).last = .note index)
    (others : ∀ voice ∈ idle, voice = id ∨ voice ∈ idle') :
    Sound roots idle' (arena.adjust id f) := by
  have path := adjust_strides id strides
  refine ⟨path.forest sound.forest, path.orderly sound.orderly, fun voice member awake => ?_⟩
  rw [voices, listed_adjust strides.family.2] at member
  by_cases same : voice = id
  · subst same
    rw [timeline_adjust_self _ f arena (sound.forest.lt_size (List.mem_append_right _ member))]
    exact (settled member).resolve_left awake
  · rw [timeline_adjust_ne f arena (Ne.symm same)]
    exact sound.voiced voice member fun idles => (others voice idles).elim same awake

theorem adjust_playable (sound : Sound roots idle arena) (playable : arena.Playable roots id)
    {f : Timeline → Timeline} (strides : (arena.timeline id).Strides (f (arena.timeline id))) :
    arena.Strides (arena.adjust id f) ∧ Sound roots idle (arena.adjust id f) :=
  ⟨adjust_strides id strides, sound.adjust strides
    (fun voice => absurd voice (sound.forest.not_voice playable)) fun _ => .inr⟩

theorem addBranch (sound : Sound roots idle arena) (inside : here < arena.timelines.size)
    (index : Nat) : Sound roots idle (arena.addChild here (.branch index)) := by
  have path : arena.Strides (arena.addChild here (.branch index)) := .single (.child _ inside)
  refine ⟨path.forest sound.forest, path.orderly sound.orderly, fun voice member awake => ?_⟩
  rw [voices, listed_addChild_other (fun _ => rfl) (fun _ _ => rfl)] at member
  have old := sound.forest.lt_size (List.mem_append_right _ member)
  rw [last_addChild inside _ old]
  exact sound.voiced voice member awake

/-- A voice that is added has played nothing yet. -/
theorem addVoice (sound : Sound roots idle arena) (inside : here < arena.timelines.size)
    (index : Nat) :
    Sound roots (arena.timelines.size :: idle) (arena.addChild here (.voice index)) := by
  have path : arena.Strides (arena.addChild here (.voice index)) := .single (.child _ inside)
  refine ⟨path.forest sound.forest, path.orderly sound.orderly, fun voice member awake => ?_⟩
  have member := (listed_addChild inside (.voice index)).mem_iff.mp member
  rcases List.mem_append.mp member with old | new
  · rw [last_addChild inside _ (sound.forest.lt_size (List.mem_append_right _ old))]
    exact sound.voiced voice old fun idles => awake (List.mem_cons_of_mem _ idles)
  · exact absurd (List.mem_cons.mpr (.inl (List.mem_singleton.mp new))) awake

end Sound

/-- The arena in which a slot of a timeline is filled. -/
def withChild (here : TimelineId) (slot : Slot) (arena : Arena) : Arena :=
  Nat.repeat (addChild here slot) (slot.index + 1 - (slot.list (arena.timeline here)).size) arena

theorem size_list_repeat (inside : here < arena.timelines.size) (slot : Slot) (count : Nat) :
    arena.timelines.size ≤ (Nat.repeat (addChild here slot) count arena).timelines.size ∧
      (slot.list ((Nat.repeat (addChild here slot) count arena).timeline here)).size =
        (slot.list (arena.timeline here)).size + count := by
  induction count with
  | zero => exact ⟨Nat.le_refl _, rfl⟩
  | succ count ih =>
    simp only [Nat.repeat]
    rw [size_addChild, timeline_addChild (Nat.lt_of_lt_of_le inside ih.1), if_pos rfl]
    constructor
    · exact Nat.le_succ_of_le ih.1
    · rw [← Nat.add_assoc, ← ih.2]
      cases slot <;> exact Array.size_push _

/-- What holds of an arena and goes on to hold as a child is added holds when the slot is filled. -/
@[elab_as_elim]
theorem withChild_rule {motive : Arena → Prop} (inside : here < arena.timelines.size) (slot : Slot)
    (start : motive arena) (step : ∀ {middle : Arena}, here < middle.timelines.size → motive middle →
      motive (middle.addChild here slot)) : motive (arena.withChild here slot) := by
  have each (count : Nat) : motive (Nat.repeat (addChild here slot) count arena) := by
    induction count with
    | zero => exact start
    | succ count ih =>
      exact step (Nat.lt_of_lt_of_le inside (size_list_repeat inside slot count).1) ih
  exact each _

theorem withChild_strides (inside : here < arena.timelines.size) (slot : Slot) :
    arena.Strides (arena.withChild here slot) :=
  withChild_rule inside slot .refl fun inside path => path.tail (.child slot inside)

theorem Sound.withBranch (sound : Sound roots idle arena) (inside : here < arena.timelines.size)
    (index : Nat) : Sound roots idle (arena.withChild here (.branch index)) :=
  withChild_rule inside _ sound fun inside sound => sound.addBranch inside index

theorem adjust_adjust (id : TimelineId) (f g : Timeline → Timeline) (arena : Arena) :
    (arena.adjust id f).adjust id g = arena.adjust id (g ∘ f) := by
  refine congrArg Arena.mk (Array.ext (by simp only [adjust, Array.size_modify]) fun i _ _ => ?_)
  simp only [adjust, Array.getElem_modify]
  split <;> rfl

theorem position_adopt (id : TimelineId) (state : Performance) (tuplet : Option Tuplet)
    (arena : Arena) : ((arena.adjust id fun child =>
      { child with state := state, tuplet := tuplet }).timeline id).position =
        (arena.timeline id).position := by
  rcases Nat.lt_or_ge id arena.timelines.size with inside | out
  · rw [timeline_adjust_self id _ arena inside]
  · rw [adjust_out out]

/-- A child is taken from its slot and catches up with its parent. -/
theorem childAt_ok {offset : Nat} {slot : Slot}
    (done : (childAt here offset slot).run arena = .ok id arena') :
    (slot.list ((arena.withChild here slot).timeline here))[slot.index]?.getD 0 = id ∧
      ((arena.withChild here slot).timeline id).position ≤
        ((arena.withChild here slot).timeline here).position ∧
      arena' = (arena.withChild here slot).adjust id
        (Timeline.follow ((arena.withChild here slot).timeline here)) := by
  simp only [childAt, EStateM.run_bind, EStateM.run_get, EStateM.run_modify, position_adopt] at done
  split at done
  · exact nomatch done
  · next caught =>
    cases done
    exact ⟨rfl, Nat.le_of_not_lt caught, (adjust_adjust ..).trans (adjust_congr rfl)⟩

/-- Only a child that is ahead of its parent is refused. -/
theorem childAt_error {offset : Nat} {slot : Slot} {fault : Fault}
    (failed : (childAt here offset slot).run arena = .error fault arena') :
    ((arena.withChild here slot).timeline here).position <
      ((arena.withChild here slot).timeline
        ((slot.list ((arena.withChild here slot).timeline here))[slot.index]?.getD 0)).position := by
  simp only [childAt, EStateM.run_bind, EStateM.run_get, EStateM.run_modify, position_adopt]
    at failed
  split at failed
  · next ahead => exact ahead
  · exact nomatch failed

theorem mem_listed {list : Timeline → Array TimelineId} {child : TimelineId}
    (member : child ∈ list (arena.timeline here)) (inside : here < arena.timelines.size) :
    child ∈ arena.listed list := by
  refine List.mem_flatMap.mpr ⟨arena.timeline here, ?_, Array.mem_toList_iff.mpr member⟩
  rw [timeline, Array.getElem?_eq_getElem inside, Option.getD_some]
  exact Array.mem_toList_iff.mpr (Array.getElem_mem inside)

/-- The child of a slot is in its list. -/
theorem withChild_mem (inside : here < arena.timelines.size) (slot : Slot) :
    (slot.list ((arena.withChild here slot).timeline here))[slot.index]?.getD 0 ∈
      (arena.withChild here slot).listed slot.list := by
  have sizes := size_list_repeat inside slot
    (slot.index + 1 - (slot.list (arena.timeline here)).size)
  have filled : slot.index < (slot.list ((arena.withChild here slot).timeline here)).size := by
    have size := sizes.2
    simp only [withChild]
    omega
  rw [Array.getElem?_eq_getElem filled, Option.getD_some]
  exact mem_listed (Array.getElem_mem filled) (Nat.lt_of_lt_of_le inside sizes.1)

/-- A branch that a passage claims is playable. -/
theorem Sound.childAt_branch (sound : Sound roots idle arena) (playable : arena.Playable roots here)
    {offset index : Nat} (done : (childAt here offset (.branch index)).run arena = .ok id arena') :
    arena.Strides arena' ∧ Sound roots idle arena' ∧ arena'.Playable roots id := by
  have inside := sound.inside playable
  obtain ⟨taken, -, rfl⟩ := childAt_ok done
  have path := withChild_strides inside (.branch index)
  have claimed : (arena.withChild here (.branch index)).Playable roots id :=
    List.mem_append_right roots (taken ▸ withChild_mem inside (.branch index))
  obtain ⟨path', sound⟩ := (sound.withBranch inside index).adjust_playable claimed (Timeline.follow_strides ..)
  exact ⟨path.trans path', sound, claimed.grows path'.grows⟩

theorem voices_adjust {f : Timeline → Timeline}
    (strides : (arena.timeline id).Strides (f (arena.timeline id))) (here : TimelineId) :
    ((arena.adjust id f).timeline here).voices = (arena.timeline here).voices := by
  by_cases inside : id < arena.timelines.size
  · rw [timeline_adjust inside]
    split
    · next same => exact same ▸ strides.family.2
    · rfl
  · rw [adjust_out (Nat.le_of_not_lt inside)]

/-- A voice that an arpeggio claims is one of those that its timeline has, or the next one. -/
theorem Sound.childAt_voice (sound : Sound roots idle arena) (inside : here < arena.timelines.size)
    {offset index : Nat} (next : index ≤ (arena.timeline here).voices.size)
    (done : (childAt here offset (.voice index)).run arena = .ok id arena') :
    arena.Strides arena' ∧ Sound roots (id :: idle) arena' ∧
      index + 1 ≤ (arena'.timeline here).voices.size := by
  obtain ⟨taken, -, rfl⟩ := childAt_ok done
  have grown : arena.Strides (arena.withChild here (.voice index)) ∧
      Sound roots (id :: idle) (arena.withChild here (.voice index)) := by
    rcases Nat.lt_or_eq_of_le next with present | missing
    · have none : index + 1 - (arena.timeline here).voices.size = 0 := Nat.sub_eq_zero_of_le present
      simp only [withChild, Slot.index, Slot.list, none, Nat.repeat]
      refine ⟨.refl, sound.forest, sound.orderly, fun voice member awake => ?_⟩
      exact sound.voiced voice member fun idles => awake (List.mem_cons_of_mem id idles)
    · have one : index + 1 - (arena.timeline here).voices.size = 1 := by omega
      simp only [withChild, Slot.index, Slot.list, one, Nat.repeat] at taken ⊢
      have new : id = arena.timelines.size := by
        rw [timeline_addChild inside, if_pos rfl, Slot.push, missing, Array.getElem?_push_size]
          at taken
        exact taken.symm
      exact ⟨.single (.child _ inside), new ▸ sound.addVoice inside index⟩
  have strides := Timeline.follow_strides ((arena.withChild here (.voice index)).timeline here)
    ((arena.withChild here (.voice index)).timeline id)
  refine ⟨grown.1.trans (adjust_strides id strides), grown.2.adjust strides (fun _ => .inl List.mem_cons_self)
    fun _ => .inr, ?_⟩
  have sizes := (size_list_repeat inside (.voice index)
    (index + 1 - (arena.timeline here).voices.size)).2
  rw [voices_adjust strides]
  simp only [withChild, Slot.list, Slot.index] at sizes ⊢
  omega

/-- The voices of an arpeggio are claimed one after the other. -/
theorem Sound.childAt_voices (sound : Sound roots idle arena) (inside : here < arena.timelines.size)
    {offset first count : Nat} {claimed : List TimelineId}
    (next : first ≤ (arena.timeline here).voices.size)
    (done : ((List.range' first count).mapM fun i => childAt here offset (.voice i)).run arena =
      .ok claimed arena') :
    arena.Strides arena' ∧ Sound roots (claimed ++ idle) arena' ∧ claimed.length = count := by
  induction count generalizing first arena claimed idle with
  | zero =>
    cases done
    exact ⟨.refl, sound, rfl⟩
  | succ count ih =>
    rw [List.range'_succ, List.mapM_cons] at done
    obtain ⟨voice, middle, one, done⟩ := Step.bind_ok done
    obtain ⟨rest, last, done, ended⟩ := Step.bind_ok done
    cases ended
    obtain ⟨path, sound, next⟩ := sound.childAt_voice inside next one
    obtain ⟨path', sound, length⟩ := ih sound (Nat.lt_of_lt_of_le inside path.grows.size) next done
    refine ⟨path.trans path', ?_, congrArg (· + 1) length⟩
    refine ⟨sound.forest, sound.orderly, fun v member awake => sound.voiced v member ?_⟩
    intro idles
    apply awake
    simp only [List.cons_append, List.mem_cons, List.mem_append] at idles ⊢
    exact or_left_comm.mp idles

theorem playVoice_strides (offset held velocity rest delay pitch : Nat) (t : Timeline) :
    t.Strides (playVoice offset held velocity rest delay pitch t) :=
  ((Timeline.pad_strides delay t).tail (.note ..)).trans (Timeline.trail_strides ..)

/-- Every voice that was claimed plays a note. -/
theorem Sound.playVoices {offset held velocity rest interval delay : Nat}
    {pairs : List (TimelineId × Nat)} (sound : Sound roots (pairs.map Prod.fst ++ idle) arena) :
    arena.Strides (playVoices (playVoice offset held velocity rest) interval delay pairs arena) ∧
    Sound roots idle
      (Arena.playVoices (playVoice offset held velocity rest) interval delay pairs arena) := by
  induction pairs generalizing delay arena with
  | nil => exact ⟨.refl, sound⟩
  | cons pair pairs ih =>
    have strides (t : Timeline) := playVoice_strides offset held velocity rest delay pair.2 t
    have played := sound.adjust (strides (arena.timeline pair.1))
      (fun _ => .inr ⟨_, rfl⟩) fun voice idles => List.mem_cons.mp idles
    obtain ⟨path, sound⟩ := @ih _ (delay + interval) played
    exact ⟨.head (.within (strides _)) path, sound⟩

/-- What lengthens the latest notes of voices only strides on. -/
theorem Sound.lengthenVoices (sound : Sound roots [] arena) {ids : List TimelineId}
    (members : ids ⊆ arena.voices) (ticks : Nat) :
    arena.Strides (arena.adjustAll ids (·.lengthenLast ticks)) ∧
      Sound roots [] (arena.adjustAll ids (·.lengthenLast ticks)) := by
  induction ids generalizing arena with
  | nil => exact ⟨.refl, sound⟩
  | cons voice ids ih =>
    obtain ⟨index, last⟩ := sound.voiced voice (members List.mem_cons_self) List.not_mem_nil
    have strides : (arena.timeline voice).Strides ((arena.timeline voice).lengthenLast ticks) := by
      simp only [Timeline.lengthenLast, last]
      exact .single (.lengthen ticks last)
    have kept : ((arena.timeline voice).lengthenLast ticks).last = .note index := by
      simp only [Timeline.lengthenLast, last, Timeline.lengthenNote]
    have lengthened : Sound roots [] (arena.adjust voice (·.lengthenLast ticks)) :=
      sound.adjust strides (fun _ => .inr ⟨index, kept⟩) fun _ => .inr
    have same : (arena.adjust voice (·.lengthenLast ticks)).voices = arena.voices :=
      listed_adjust strides.family.2
    have next := ih lengthened
      (same ▸ fun id member => members (List.mem_cons_of_mem voice member))
    exact ⟨.head (.within strides) next.1, next.2⟩

theorem Sound.tie (sound : Sound roots [] arena) (playable : arena.Playable roots here)
    {offset ticks : Nat} (done : (tie here offset).run arena = .ok ticks arena') :
    arena.Strides arena' ∧ Sound roots [] arena' := by
  simp only [Arena.tie, EStateM.run_bind, EStateM.run_get, update_run] at done
  obtain ⟨path, sound⟩ := sound.adjust_playable playable
    (f := fun t => (t.calibrate (arena.timeline here).state.quantization).2)
    (Timeline.calibrate_still ..).strides
  have playable := playable.grows path.grows
  generalize arena.adjust here _ = tuned at *
  cases last : (tuned.timeline here).last with
  | nothing =>
    rw [last] at done
    exact nomatch done
  | note index =>
    rw [last] at done
    cases done
    obtain ⟨path', sound⟩ := sound.adjust_playable playable (.single (.lengthen _ last))
    exact ⟨path.trans path', sound⟩
  | rest =>
    rw [last] at done
    cases done
    obtain ⟨path', sound⟩ := sound.adjust_playable playable (Timeline.trail_strides ..)
    exact ⟨path.trans path', sound⟩
  | arpeggio count =>
    rw [last] at done
    cases done
    have inside := sound.inside playable
    have own (ticks : Nat) : (tuned.timeline here).voices.toList.take count ⊆
        (tuned.adjust here (Timeline.trail ticks)).voices := by
      rw [voices, listed_adjust rfl]
      exact fun id member =>
        mem_listed (Array.mem_toList_iff.mp (List.mem_of_mem_take member)) inside
    obtain ⟨path', sound⟩ := sound.adjust_playable playable (Timeline.trail_strides ..)
    obtain ⟨path'', sound⟩ := sound.lengthenVoices (own _) _
    exact ⟨path.trans (path'.trans path''), sound⟩

/-- Every pitch of an arpeggio goes to a voice that is claimed for it. -/
theorem Sound.arpeggiate (sound : Sound roots [] arena) (playable : arena.Playable roots here)
    {offset held velocity rest interval result ticks : Nat} {pitches : List Nat}
    (done : (do
      let voices ← (List.range pitches.length).mapM fun i => childAt here offset (.voice i)
      modify (Arena.adjust here fun t =>
        { t.trail (held + rest) with last := .arpeggio pitches.length })
      modify (Arena.playVoices (playVoice offset held velocity rest) interval 0
        (voices.zip pitches))
      return result : Step Arena Nat).run arena = .ok ticks arena') :
    arena.Strides arena' ∧ Sound roots [] arena' := by
  obtain ⟨claimed, voiced, mapped, done⟩ := Step.bind_ok done
  rw [List.range_eq_range'] at mapped
  obtain ⟨path, sound, length⟩ := sound.childAt_voices (sound.inside playable) (Nat.zero_le _) mapped
  cases done
  obtain ⟨path', sound⟩ := sound.adjust_playable (playable.grows path.grows)
    (f := fun t => { t.trail (held + rest) with last := .arpeggio pitches.length })
    (.single (.trail _ _ (.inr fun _ => LastUnit.noConfusion)))
  have zipped : (claimed.zip pitches).map Prod.fst = claimed :=
    List.map_fst_zip (Nat.le_of_eq length)
  rw [← zipped] at sound
  obtain ⟨path'', sound⟩ := sound.playVoices
  exact ⟨path.trans (path'.trans path''), sound⟩

theorem Sound.commitArpeggio (sound : Sound roots [] arena) (playable : arena.Playable roots here)
    {offset interval ticks : Nat} {staged : Staged}
    (done : (commitArpeggio here offset staged interval).run arena = .ok ticks arena') :
    arena.Strides arena' ∧ Sound roots [] arena' := by
  obtain ⟨extra, tuned, first, done⟩ := Step.bind_ok done
  rw [update_run] at first
  cases first
  obtain ⟨path, sound⟩ := sound.adjust_playable playable
    (f := fun t => (t.calibrate staged.ticks).2) (Timeline.calibrate_still ..).strides
  have playable := playable.grows path.grows
  rcases parted : staged.notes.partition (·.grace) with ⟨graces, mains⟩
  rw [parted] at done
  obtain ⟨_, graced, second, done⟩ := Step.bind_ok done
  cases second
  obtain ⟨path', sound⟩ := sound.adjust_playable playable
    (Timeline.pushNotes_strides offset graces _)
  have playable := playable.grows path'.grows
  cases mains with
  | nil =>
    cases done
    obtain ⟨path'', sound⟩ := sound.adjust_playable playable (Timeline.trail_strides ..)
    exact ⟨path.trans (path'.trans path''), sound⟩
  | cons chord more =>
    obtain ⟨-, done⟩ := Step.unless_ok done
    obtain ⟨path'', sound⟩ := sound.arpeggiate playable done
    exact ⟨path.trans (path'.trans path''), sound⟩

/-- A channel starts one more root. -/
theorem Sound.create (sound : Sound roots idle arena) (channel : Nat) :
    Sound (roots ++ [arena.timelines.size]) idle (arena.create channel).2 := by
  have size : (arena.create channel).2.timelines.size = arena.timelines.size + 1 :=
    Array.size_push _
  refine ⟨⟨?_, fun parent child member => ?_⟩, fun id => ?_, fun voice member awake => ?_⟩
  · rw [size, List.range_succ, branches, voices, listed_create rfl, listed_create rfl]
    refine List.Perm.trans ?_ (sound.forest.once.append_right [arena.timelines.size])
    simp only [List.append_assoc]
    apply List.Perm.append_left roots
    rw [← List.append_assoc arena.branches]
    exact List.perm_append_comm
  · rw [timeline_create] at member
    split at member
    · simp only [Array.not_mem_empty, or_self] at member
    · exact sound.forest.younger parent child member
  · rw [timeline_create]
    split
    · exact Timeline.orderly_new channel
    · exact sound.orderly id
  · rw [voices, listed_create rfl] at member
    have old := sound.forest.lt_size (List.mem_append_right _ member)
    rw [timeline_create, if_neg (Nat.ne_of_lt old)]
    exact sound.voiced voice member awake

/-- Whatever a primitive step does to the arena, it strides on and stays sound. -/
theorem Sound.played (sound : Sound roots [] arena) (playable : arena.Playable roots here)
    (played : arena.Played here arena') : arena.Strides arena' ∧ Sound roots [] arena' := by
  cases played with
  | silent => exact ⟨.refl, sound⟩
  | timeline played => exact sound.adjust_playable playable played.strides
  | tie done => exact sound.tie playable done
  | arpeggio _ done => exact sound.commitArpeggio playable done

end TextScore.Arena
