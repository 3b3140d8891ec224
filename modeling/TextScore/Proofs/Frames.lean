import TextScore.Proofs.Contracts
import TextScore.Proofs.Levels

/-! What playing on a timeline leaves alone. Only the timeline itself and its voices move, and they
only move on; the timeline moves by the ticks that are answered. -/
namespace TextScore

/-- A timeline has moved on, with the family it had. -/
structure Timeline.Onward (t t' : Timeline) : Prop where
  children : t'.children = t.children
  voices : t'.voices = t.voices
  branchBase : t'.branchBase = t.branchBase
  position : t.position ≤ t'.position

namespace Timeline
variable {t t' : Timeline}

namespace Onward

theorem refl (t : Timeline) : t.Onward t := ⟨rfl, rfl, rfl, Nat.le_refl _⟩

theorem trans {t'' : Timeline} (first : t.Onward t') (second : t'.Onward t'') : t.Onward t'' :=
  ⟨second.children.trans first.children, second.voices.trans first.voices,
    second.branchBase.trans first.branchBase, Nat.le_trans first.position second.position⟩

theorem trail (ticks : Nat) (last : LastUnit) (t : Timeline) :
    t.Onward { t.trail ticks with last := last } := ⟨rfl, rfl, rfl, Nat.le_add_right ..⟩

theorem pad (length : Nat) (t : Timeline) : t.Onward (t.pad length) := by
  unfold Timeline.pad
  split
  · exact refl t
  · exact trail length .rest t

theorem calibrate (ticks : Nat) (t : Timeline) : t.Onward (t.calibrate ticks).2 := by
  unfold Timeline.calibrate
  split
  · exact refl t
  · exact ⟨rfl, rfl, rfl, Nat.le_refl _⟩

theorem pushNote (offset : Nat) (arpeggio : Bool) (draft : Draft) (t : Timeline) :
    t.Onward (t.pushNote offset arpeggio draft) := ⟨rfl, rfl, rfl, Nat.le_add_right ..⟩

theorem pushNotes (offset : Nat) (drafts : List Draft) (t : Timeline) :
    t.Onward (t.pushNotes offset drafts) := by
  induction drafts generalizing t with
  | nil => exact refl t
  | cons draft drafts ih => exact (pushNote offset false draft t).trans (ih _)

theorem commit (offset : Nat) (staged : Staged) (t : Timeline) :
    t.Onward (t.commit offset staged).2 :=
  (calibrate staged.ticks t).trans ((pushNotes ..).trans (trail _ _ _))

theorem rest (t : Timeline) : t.Onward t.rest.2 := by
  unfold Timeline.rest restFor
  split
  · exact refl t
  · exact (calibrate _ t).trans (pad ..)

theorem lengthenLast (ticks : Nat) (t : Timeline) : t.Onward (t.lengthenLast ticks) := by
  unfold Timeline.lengthenLast
  split <;> exact ⟨rfl, rfl, rfl, Nat.le_add_right ..⟩

theorem playVoice (offset held velocity rest delay pitch : Nat) (t : Timeline) :
    t.Onward (Arena.playVoice offset held velocity rest delay pitch t) :=
  (pad delay t).trans ((pushNote ..).trans (trail _ _ _))

theorem adopt (parent child : Timeline) :
    child.Onward { child with state := parent.state, tuplet := parent.tuplet } :=
  ⟨rfl, rfl, rfl, Nat.le_refl _⟩

theorem follow (parent child : Timeline) : child.Onward (parent.follow child) :=
  (adopt parent child).trans (pad ..)

end Onward

/-- What happens to a timeline besides playing leaves its cursor and its family alone. -/
theorem Tweak.onward {f : Timeline → Timeline} (tweak : Tweak f) (t : Timeline) :
    t.Onward (f t) ∧ (f t).position = t.position + 0 := by
  have family := (Played.change tweak.change : t.Played (f t)).strides.family
  have position := (tweak.change.position t).1
  exact ⟨⟨family.1, family.2, tweak.branchBase t, Nat.le_of_eq position.symm⟩, position⟩

theorem beginTuplet_onward {offset size unit : Nat}
    (done : (beginTuplet offset size).run t = .ok unit t') :
    t.Onward t' ∧ t'.position = t.position + 0 := by
  simp only [Timeline.beginTuplet, EStateM.run_bind, EStateM.run_get] at done
  split at done
  · cases done
  · split at done
    · cases done
    · cases done
      exact ⟨⟨rfl, rfl, rfl, Nat.le_refl _⟩, rfl⟩

/-- A rest moves the cursor by the ticks that it answers. -/
theorem position_rest (t : Timeline) : t.rest.2.position = t.position + t.rest.1 := by
  unfold Timeline.rest restFor
  split
  · rfl
  · next some =>
    have still := (calibrate_still t.state.quantization t).position
    simp only [pad]
    rw [if_neg (by omega)]
    exact congrArg (· + _) still

theorem position_answered (offset : Nat) (staged : Staged) (t : Timeline) :
    (t.commit offset staged).2.position = t.position + (t.commit offset staged).1 := by
  have still := (calibrate_still staged.ticks t).position
  simp only [commit, trail, Arena.Level.position_pushNotes]
  omega

end Timeline

namespace Arena
variable {roots idle : List TimelineId} {arena arena' : Arena} {here id : TimelineId}
  {ticks : Nat} {f : Timeline → Timeline}

/-- What is left when so many ticks have been played on a timeline. -/
structure Frame (here : TimelineId) (ticks : Nat) (arena arena' : Arena) : Prop where
  size : arena.timelines.size ≤ arena'.timelines.size
  cursor : (arena'.timeline here).position = (arena.timeline here).position + ticks
  onward : ∀ id, (arena.timeline id).position ≤ (arena'.timeline id).position
  children : ∀ id, (arena'.timeline id).children = (arena.timeline id).children
  branchBase : ∀ id, (arena'.timeline id).branchBase = (arena.timeline id).branchBase
  voices : ∀ id, ∀ voice ∈ (arena.timeline id).voices, voice ∈ (arena'.timeline id).voices
  fresh : ∀ id, ∀ voice ∈ (arena'.timeline id).voices,
    voice ∈ (arena.timeline id).voices ∨ arena.timelines.size ≤ voice
  rest : ∀ id < arena.timelines.size, id ≠ here → id ∉ (arena.timeline here).voices →
    arena'.timeline id = arena.timeline id

namespace Frame

theorem refl (here : TimelineId) (arena : Arena) : Frame here 0 arena arena where
  size := Nat.le_refl _
  cursor := rfl
  onward _ := Nat.le_refl _
  children _ := rfl
  branchBase _ := rfl
  voices _ _ := id
  fresh _ _ := .inl
  rest _ _ _ _ := rfl

theorem trans {more : Nat} {arena'' : Arena} (first : Frame here ticks arena arena')
    (second : Frame here more arena' arena'') : Frame here (ticks + more) arena arena'' where
  size := Nat.le_trans first.size second.size
  cursor := by rw [second.cursor, first.cursor, Nat.add_assoc]
  onward id := Nat.le_trans (first.onward id) (second.onward id)
  children id := (second.children id).trans (first.children id)
  branchBase id := (second.branchBase id).trans (first.branchBase id)
  voices id voice owned := second.voices id voice (first.voices id voice owned)
  fresh id voice owned := by
    rcases second.fresh id voice owned with old | new
    · exact first.fresh id voice old
    · exact .inr (Nat.le_trans first.size new)
  rest id inside other free := by
    have free' : id ∉ (arena'.timeline here).voices := fun owned =>
      (first.fresh here id owned).elim free (Nat.not_le_of_lt inside)
    exact (second.rest id (Nat.lt_of_lt_of_le inside first.size) other free').trans
      (first.rest id inside other free)

/-- One timeline moves on, the one that is played on or a voice of it. -/
theorem adjust (cursor : ((arena.adjust id f).timeline here).position =
      (arena.timeline here).position + ticks)
    (onward : (arena.timeline id).Onward (f (arena.timeline id)))
    (own : id = here ∨ id ∈ (arena.timeline here).voices) :
    Frame here ticks arena (arena.adjust id f) := by
  have each (other : TimelineId) :
      (arena.timeline other).Onward ((arena.adjust id f).timeline other) := by
    rcases Nat.lt_or_ge id arena.timelines.size with inside | out
    · rw [timeline_adjust inside]
      split
      · next same => exact same ▸ onward
      · exact .refl _
    · rw [adjust_out out]
      exact .refl _
  refine ⟨Nat.le_of_eq (size_adjust ..).symm, cursor, fun other => (each other).position,
    fun other => (each other).children, fun other => (each other).branchBase,
    fun other voice owned => ?_, fun other voice owned => ?_, fun other _ different free => ?_⟩
  · rwa [(each other).voices]
  · rw [(each other).voices] at owned
    exact .inl owned
  · refine timeline_adjust_ne f arena ?_
    rintro rfl
    exact own.elim different free

theorem own (inside : here < arena.timelines.size)
    (moved : (arena.timeline here).Onward (f (arena.timeline here)) ∧
      (f (arena.timeline here)).position = (arena.timeline here).position + ticks) :
    Frame here ticks arena (arena.adjust here f) :=
  .adjust ((congrArg _ (timeline_adjust_self here f arena inside)).trans moved.2) moved.1 (.inl rfl)

theorem voice {voice : TimelineId} (owned : voice ∈ (arena.timeline here).voices) (other : voice ≠ here)
    (onward : (arena.timeline voice).Onward (f (arena.timeline voice))) :
    Frame here 0 arena (arena.adjust voice f) :=
  .adjust (congrArg _ (timeline_adjust_ne f arena other)) onward (.inr owned)

theorem addVoice (inside : here < arena.timelines.size) (index : Nat) :
    Frame here 0 arena (arena.addChild here (.voice index)) := by
  have each (other : TimelineId) := timeline_addChild inside (.voice index) other
  have position (other : TimelineId) := Level.position_addChild inside (.voice index) other
  have kept {α : Type} (view : Timeline → α) (new : ∀ channel channel',
        view { channel := channel } = view { channel := channel' })
      (pushed : ∀ t, view (Slot.push arena.timelines.size (.voice index) t) = view t)
      (other : TimelineId) :
      view ((arena.addChild here (.voice index)).timeline other) = view (arena.timeline other) := by
    rw [each]
    split
    · next same => exact same ▸ pushed _
    · split
      · next last =>
        rw [timeline_out (Nat.le_of_eq last.symm)]
        exact new ..
      · rfl
  refine ⟨?_, position here, fun other => Nat.le_of_eq (position other).symm,
    kept Timeline.children (fun _ _ => rfl) fun _ => rfl,
    kept Timeline.branchBase (fun _ _ => rfl) fun _ => rfl, fun other voice owned => ?_,
    fun other voice owned => ?_, fun other old different _ => ?_⟩
  · rw [size_addChild]
    exact Nat.le_succ _
  · rw [each]
    split
    · next same => exact Array.mem_push_of_mem _ (same ▸ owned)
    · split
      · next last =>
        rw [timeline_out (Nat.le_of_eq last.symm)] at owned
        exact absurd owned (Array.not_mem_empty voice)
      · exact owned
  · rw [each] at owned
    split at owned
    · next same =>
      subst same
      exact (Array.mem_push.mp owned).imp id (Nat.le_of_eq ∘ Eq.symm)
    · split at owned
      · exact absurd owned (Array.not_mem_empty voice)
      · exact .inl owned
  · rw [each, if_neg different, if_neg (Nat.ne_of_lt old)]

/-- Voices of a timeline move on one after the other. -/
theorem voiceMoves {moves : List (TimelineId × (Timeline → Timeline))}
    (owned : ∀ move ∈ moves, move.1 ∈ (arena.timeline here).voices ∧ move.1 ≠ here)
    (onward : ∀ move ∈ moves, ∀ t, Timeline.Onward t (move.2 t)) :
    Frame here 0 arena (moves.foldl (fun arena move => arena.adjust move.1 move.2) arena) := by
  induction moves generalizing arena with
  | nil => exact .refl here arena
  | cons move moves ih =>
    obtain ⟨⟨listed, other⟩, owned⟩ := List.forall_mem_cons.mp owned
    obtain ⟨steps, onward⟩ := List.forall_mem_cons.mp onward
    have first := Frame.voice listed other (steps (arena.timeline move.1))
    exact first.trans (ih (fun move listed =>
      (owned move listed).imp_left (first.voices here move.1)) onward)

theorem lengthenVoices {voices : List TimelineId} (ticks : Nat)
    (owned : ∀ voice ∈ voices, voice ∈ (arena.timeline here).voices ∧ voice ≠ here) :
    Frame here 0 arena (arena.adjustAll voices (·.lengthenLast ticks)) := by
  have fold : arena.adjustAll voices (·.lengthenLast ticks) =
      (voices.map fun voice => (voice, Timeline.lengthenLast ticks)).foldl
        (fun arena move => arena.adjust move.1 move.2) arena := by
    rw [List.foldl_map]
    rfl
  rw [fold]
  refine voiceMoves (fun move listed => ?_) fun move listed => ?_
  · obtain ⟨voice, member, rfl⟩ := List.mem_map.mp listed
    exact owned voice member
  · obtain ⟨voice, member, rfl⟩ := List.mem_map.mp listed
    exact .lengthenLast ticks

theorem playVoices_step {offset held velocity rest interval delay : Nat}
    {pairs : List (TimelineId × Nat)}
    (owned : ∀ pair ∈ pairs, pair.1 ∈ (arena.timeline here).voices ∧ pair.1 ≠ here) :
    Frame here 0 arena
      (playVoices (playVoice offset held velocity rest) interval delay pairs arena) := by
  rw [Level.playVoices_eq]
  refine voiceMoves (fun move listed => ?_) fun move listed => ?_
  · obtain ⟨i, there, rfl⟩ := List.mem_mapIdx.mp listed
    exact owned _ (List.getElem_mem there)
  · obtain ⟨i, there, rfl⟩ := List.mem_mapIdx.mp listed
    exact .playVoice _ _ _ _ _ _

theorem tie_step (forest : Forest roots arena) (inside : here < arena.timelines.size) {offset : Nat}
    (done : (Arena.tie here offset).run arena = .ok ticks arena') : Frame here ticks arena arena' := by
  obtain ⟨extra, tuned, calibrated, -, ties⟩ := tie_ok inside done
  have onward := Timeline.Onward.calibrate (arena.timeline here).state.quantization
    (arena.timeline here)
  have still := Timeline.calibrate_still (arena.timeline here).state.quantization
    (arena.timeline here)
  rw [calibrated] at onward still
  have moved {f : Timeline → Timeline} (step : tuned.Onward (f tuned))
      (position : (f tuned).position = tuned.position + ticks) :
      Frame here ticks arena (arena.adjust here fun _ => f tuned) :=
    .own inside ⟨onward.trans step, position.trans (congrArg (· + ticks) still.position)⟩
  cases ties with
  | @note index =>
    exact moved (f := (·.lengthenNote index ticks)) ⟨rfl, rfl, rfl, Nat.le_add_right ..⟩ rfl
  | rest => exact moved (f := (·.trail ticks)) (.trail ticks tuned.last tuned) rfl
  | arpeggio last =>
    have trailed := moved (f := (·.trail ticks)) (.trail ticks tuned.last tuned) rfl
    refine trailed.trans (lengthenVoices ticks fun voice listed => ?_)
    have owned : voice ∈ (arena.timeline here).voices :=
      still.voices ▸ Array.mem_toList_iff.mp (List.mem_of_mem_take listed)
    exact ⟨trailed.voices here voice owned,
      Nat.ne_of_gt (forest.younger here voice (.inr owned))⟩

/-- A voice that is claimed catches up with its timeline. -/
theorem claimVoice (forest : Forest roots arena) (inside : here < arena.timelines.size)
    {offset index : Nat} (done : (childAt here offset (.voice index)).run arena = .ok id arena') :
    Frame here 0 arena arena' ∧ Forest roots arena' ∧ id ∈ (arena'.timeline here).voices := by
  obtain ⟨taken, -, rfl⟩ := childAt_ok done
  have owned := Array.mem_of_getElem? (Level.slot_claimed inside (.voice index) taken)
  have added : Frame here 0 arena (arena.withChild here (.voice index)) :=
    withChild_rule inside _ (.refl here arena) fun inside frame => frame.trans (.addVoice inside index)
  have grown := (Arena.withChild_strides inside (.voice index)).forest forest
  have followed := Frame.voice owned (Nat.ne_of_gt (grown.younger here id (.inr owned)))
    (.follow ((arena.withChild here (.voice index)).timeline here) _)
  exact ⟨added.trans followed, (adjust_strides id (Timeline.follow_strides ..)).forest grown,
    followed.voices here id owned⟩

theorem claimVoices (forest : Forest roots arena) (inside : here < arena.timelines.size)
    {offset count : Nat} {claimed : List TimelineId}
    (done : (Arena.claimVoices here offset count).run arena = .ok claimed arena') :
    Frame here 0 arena arena' ∧ Forest roots arena' ∧
      ∀ voice ∈ claimed, voice ∈ (arena'.timeline here).voices := by
  refine claimVoices_rule (motive := fun arena' claimed => Frame here 0 arena arena' ∧
    Forest roots arena' ∧ ∀ voice ∈ claimed, voice ∈ (arena'.timeline here).voices)
    ⟨.refl here _, forest, nofun⟩ (fun ⟨frame, forest, owned⟩ one => ?_) done
  obtain ⟨more, forest, own⟩ := claimVoice forest (Nat.lt_of_lt_of_le inside frame.size) one
  exact ⟨frame.trans more, forest, List.forall_mem_append.mpr
    ⟨fun voice listed => more.voices here voice (owned voice listed), List.forall_mem_singleton.mpr own⟩⟩

/-- The timeline of an arpeggio is silent while its voices play. -/
theorem arpeggio_step (forest : Forest roots arena) (inside : here < arena.timelines.size)
    {offset interval : Nat} {staged : Staged}
    (done : (commitArpeggio here offset staged interval).run arena = .ok ticks arena') :
    Frame here ticks arena arena' := by
  obtain ⟨extra, tuned, calibrated, rfl, arpeggiates⟩ := commitArpeggio_ok done
  have onward := Timeline.Onward.calibrate staged.ticks (arena.timeline here)
  have still := (Timeline.calibrate_still staged.ticks (arena.timeline here)).position
  rw [calibrated] at onward still
  dsimp only at still
  cases arpeggiates with
  | graces only =>
    refine .own inside ⟨onward.trans ((Timeline.Onward.pushNotes ..).trans (.trail _ _ _)), ?_⟩
    simp only [Timeline.trail, Level.position_pushNotes, Staged.ticks, still]
    omega
  | @chord graces mains chord held rest voices middle parted total long claimed =>
    have sounded : Frame here (Draft.sum Draft.duration graces) arena
        (arena.adjust here fun _ => tuned.pushNotes offset graces) :=
      .own inside ⟨onward.trans (.pushNotes ..), by rw [Level.position_pushNotes, still]⟩
    have inside' := Nat.lt_of_lt_of_le inside sounded.size
    obtain ⟨ready, grown, owned⟩ := claimVoices (forest.adjust
      (onward.trans (.pushNotes ..)).children (onward.trans (.pushNotes ..)).voices) inside' claimed
    have silent : Frame here (held + rest) middle (middle.adjust here fun t =>
        { t.trail (held + rest) with last := .arpeggio chord.pitches.length }) :=
      .own (Nat.lt_of_lt_of_le inside' ready.size) ⟨.trail .., rfl⟩
    have shared := Draft.sum_partition (f := Draft.duration) parted
    have same : Draft.sum Draft.duration graces + (0 + (held + rest + 0)) = staged.ticks + extra := by
      simp only [Staged.ticks]
      omega
    rw [← same]
    refine sounded.trans (ready.trans (silent.trans (playVoices_step fun pair listed => ?_)))
    have voice := owned pair.1 (List.of_mem_zip listed).1
    exact ⟨silent.voices here pair.1 voice, Nat.ne_of_gt (grown.younger here pair.1 (.inr voice))⟩

end Frame

namespace Level
variable {limit : Nat}

/-- A timeline that is no voice may move on. -/
theorem own (level : arena.Level limit) (free : here ∉ arena.voices)
    (onward : (arena.timeline here).Onward (f (arena.timeline here))) :
    ∃ limit, (arena.adjust here f).Level limit :=
  ⟨max limit (f (arena.timeline here)).position, (level.mono (Nat.le_max_left ..)).adjust free
    onward.voices onward.position (Nat.le_max_right ..)⟩

/-- No voice is refused. -/
theorem admits_voice (level : arena.Level limit) (inside : here < arena.timelines.size)
    {offset index : Nat} {fault : Fault} :
    (childAt here offset (.voice index)).run arena ≠ .error fault arena' := by
  intro failed
  have ahead := childAt_error failed
  have owned := Array.mem_of_getElem? (slot_claimed inside (.voice index) rfl)
  exact Nat.not_le_of_lt ahead ((level.withChild inside (.voice index)).voices here _ owned)

theorem admits_arpeggio (level : arena.Level limit) (forest : Forest roots arena)
    (playable : arena.Playable roots here) {offset interval : Nat} {staged : Staged} {fault : Fault}
    (failed : (Arena.commitArpeggio here offset staged interval).run arena = .error fault arena') :
    fault.cause ≠ .childAheadOfParent := by
  let Q (arena : Arena) : Prop :=
    (∃ limit, arena.Level limit) ∧ Forest roots arena ∧ arena.Playable roots here
  have own {f : Timeline → Timeline} (onward : ∀ t, Timeline.Onward t (f t)) {arena : Arena}
      (holds : Q arena) : Q (arena.adjust here f) := by
    obtain ⟨⟨limit, level⟩, forest, playable⟩ := holds
    refine ⟨level.own (forest.not_voice playable) (onward _),
      forest.adjust (onward _).children (onward _).voices, ?_⟩
    rw [Playable, branches, listed_adjust (onward _).children]
    exact playable
  have claims (count : Nat) : Step.Contract (·.cause ≠ .childAheadOfParent) Q
      (Arena.claimVoices here offset count) fun _ => Q := by
    refine (Step.Contract.mapM (G := fun _ => True) fun i _ => .of_results
      (fun {arena id arena'} holds done => ?_) fun {arena fault arena'} holds failed => ?_).mono id
        fun holds => holds.2.2
    · obtain ⟨⟨limit, level⟩, forest, playable⟩ := holds
      have inside := forest.lt_size (List.mem_append_left _ playable)
      have path : arena.Strides arena' := by
        obtain ⟨-, -, rfl⟩ := childAt_ok done
        exact (withChild_strides inside _).trans (adjust_strides _ (Timeline.follow_strides ..))
      exact ⟨trivial, ⟨limit, (level.childAt_voice forest inside done).level⟩, path.forest forest,
        playable.grows path.grows⟩
    · obtain ⟨⟨limit, level⟩, forest, playable⟩ := holds
      exact absurd failed (level.admits_voice (forest.lt_size (List.mem_append_left _ playable)))
  have whole : Step.Contract (·.cause ≠ .childAheadOfParent) Q
      (Arena.commitArpeggio here offset staged interval) fun _ _ => True := by
    refine Step.Contract.bind (Q := fun _ => Q) (.of_results (fun {arena extra arena'} holds done => ?_)
      fun {arena fault arena'} _ failed => ?_) fun extra => ?_
    · rw [update_run] at done
      cases done
      exact own (.calibrate staged.ticks) holds
    · rw [update_run] at failed
      cases failed
    · refine Step.Contract.bind (Q := fun _ => Q) (.modify (own (.pushNotes offset _))) fun _ => ?_
      split
      · exact (blames_modify _).bind (fun _ => blames_pure _) |>.mono (fun _ => trivial) id
      · refine .guarded (by simp) fun _ => (claims _).bind fun voices => ?_
        exact ((blames_modify _).bind fun _ => (blames_modify _).bind fun _ => blames_pure _).mono
          (fun _ => trivial) id
  exact whole.error ⟨⟨limit, level⟩, forest, playable⟩ failed

end Level
end Arena
end TextScore
