import TextScore.Proofs.Onsets
import TextScore.Proofs.Standing

/-! Ticks that are answered. The cursor of a timeline moves on by the ticks that are answered for
what is performed on it, whichever timeline that is and whatever is performed. What happens elsewhere
on the way happens on younger timelines, so it moves neither the timeline nor an older one. -/
namespace TextScore

namespace Timeline

/-- Rests without regard to a tuplet move the cursor by their length. -/
theorem position_pad (length : Nat) (t : Timeline) :
    (t.pad length).position = t.position + length := by
  unfold pad
  split
  · omega
  · rfl

theorem position_restFor (length : Nat) (t : Timeline) :
    (t.restFor length).2.position = t.position + (t.restFor length).1 := by
  unfold restFor
  split
  · rfl
  · exact (position_pad ..).trans (congrArg (· + _) (calibrate_still length t).position)

end Timeline

namespace Arena
variable {roots : List TimelineId} {arena arena' : Arena} {here id : TimelineId} {ticks : Nat}

theorem Frame.older (frame : Frame here ticks arena arena') (forest : Forest roots arena)
    (inside : here < arena.timelines.size) (older : id < here) :
    arena'.timeline id = arena.timeline id :=
  frame.rest id (Nat.lt_trans older inside) (Nat.ne_of_lt older) fun voice =>
    Nat.lt_asymm older (forest.younger here id (.inr voice))

namespace Forest

theorem onward (forest : Forest roots arena) {f : Timeline → Timeline}
    (onward : (arena.timeline id).Onward (f (arena.timeline id))) : Forest roots (arena.adjust id f) :=
  forest.adjust onward.children onward.voices

theorem moves (forest : Forest roots arena) (moves : List (TimelineId × (Timeline → Timeline)))
    (onward : ∀ move ∈ moves, ∀ t, Timeline.Onward t (move.2 t)) :
    Forest roots (moves.foldl (fun arena move => arena.adjust move.1 move.2) arena) := by
  induction moves generalizing arena with
  | nil => exact forest
  | cons move moves ih =>
    obtain ⟨first, others⟩ := List.forall_mem_cons.mp onward
    exact ih (forest.onward (first _)) others

theorem tie (forest : Forest roots arena) (inside : here < arena.timelines.size) {offset : Nat}
    (done : (Arena.tie here offset).run arena = .ok ticks arena') : Forest roots arena' := by
  obtain ⟨extra, tuned, calibrated, -, ties⟩ := tie_ok inside done
  have onward := Timeline.Onward.calibrate (arena.timeline here).state.quantization
    (arena.timeline here)
  rw [calibrated] at onward
  cases ties with
  | @note index =>
    have lengthened : tuned.Onward (tuned.lengthenNote index ticks) :=
      ⟨rfl, rfl, rfl, Nat.le_add_right ..⟩
    exact forest.onward (onward.trans lengthened)
  | rest => exact forest.onward (onward.trans (.trail ticks tuned.last tuned))
  | @arpeggio count =>
    have trailed := forest.onward (f := fun _ => tuned.trail ticks)
      (onward.trans (.trail ticks tuned.last tuned))
    have lengthened := trailed.moves
      ((tuned.voices.toList.take count).map fun voice => (voice, Timeline.lengthenLast ticks))
      fun move listed => by
        obtain ⟨voice, -, rfl⟩ := List.mem_map.mp listed
        exact .lengthenLast ticks
    rwa [List.foldl_map] at lengthened

theorem commitArpeggio (forest : Forest roots arena) (inside : here < arena.timelines.size)
    {offset interval : Nat} {staged : Staged}
    (done : (Arena.commitArpeggio here offset staged interval).run arena = .ok ticks arena') :
    Forest roots arena' := by
  obtain ⟨extra, tuned, calibrated, -, arpeggiates⟩ := commitArpeggio_ok done
  have onward := Timeline.Onward.calibrate staged.ticks (arena.timeline here)
  rw [calibrated] at onward
  cases arpeggiates with
  | graces only =>
    exact forest.onward (onward.trans ((Timeline.Onward.pushNotes ..).trans (.trail _ _ _)))
  | @chord graces mains chord held rest voices middle parted total long claimed =>
    have graced := forest.onward (f := fun _ => tuned.pushNotes offset graces)
      (onward.trans (.pushNotes ..))
    obtain ⟨-, ready, -⟩ := Frame.claimVoices graced ((size_adjust ..).symm ▸ inside) claimed
    rw [Level.playVoices_eq]
    refine (ready.onward (.trail ..)).moves _ fun move listed => ?_
    obtain ⟨i, there, rfl⟩ := List.mem_mapIdx.mp listed
    exact .playVoice _ _ _ _ _ _

end Forest

/-- A branch that is claimed is younger than its parent. No cursor up to that of the parent moves. -/
theorem claimed_branch (forest : Forest roots arena) (inside : here < arena.timelines.size)
    {offset index : Nat} (done : (childAt here offset (.branch index)).run arena = .ok id arena') :
    Forest roots arena' ∧ here < id ∧ id < arena'.timelines.size ∧
      arena.timelines.size ≤ arena'.timelines.size ∧
      ∀ other ≤ here, (arena'.timeline other).position = (arena.timeline other).position := by
  obtain ⟨taken, -, rfl⟩ := childAt_ok done
  have grown := (Arena.withChild_strides inside (.branch index)).forest forest
  have owned := Array.mem_of_getElem? (Level.slot_claimed inside (.branch index) taken)
  have younger := grown.younger here id (.inl owned)
  refine ⟨(adjust_strides id (Timeline.follow_strides ..)).forest grown, younger, ?_, ?_,
    fun other older => ?_⟩
  · rw [size_adjust]
    exact grown.lt_size (List.mem_append_left _ (List.mem_append_right _ (child_listed owned)))
  · rw [size_adjust]
    exact (size_list_repeat inside (.branch index) _).1
  · rw [timeline_adjust_ne _ _ (Nat.ne_of_gt (Nat.lt_of_le_of_lt older younger))]
    exact Level.position_withChild inside (.branch index) other

end Arena

namespace Session
open Arena (Forest Frame)
open Step (Follows)
open Scene
variable {here : TimelineId} {s t : Session} {ticks : Nat} {α : Type} {a : α}
  {roots : List TimelineId}

/-- What a small step on a timeline does that moves its cursor by so many ticks. -/
structure Moves (here : TimelineId) (ticks : Nat) (s t : Session) : Prop where
  frame : Frame here ticks s.arena t.arena
  forest : ∀ {roots}, Forest roots s.arena → Forest roots t.arena

namespace Moves

theorem silent (same : t.arena = s.arena) : s.Moves here 0 t :=
  ⟨same ▸ .refl here s.arena, fun forest => same ▸ forest⟩

theorem own (inside : here < s.arena.timelines.size) {f : Timeline → Timeline}
    (moved : (s.arena.timeline here).Onward (f (s.arena.timeline here)) ∧
      (f (s.arena.timeline here)).position = (s.arena.timeline here).position + ticks) :
    s.Moves here ticks { s with arena := s.arena.adjust here f } :=
  ⟨.own inside moved, fun forest => forest.onward moved.1⟩

end Moves

theorem moves_gesture {p : TimelineId → Play α} (gesture : Gesture p)
    (inside : here < s.arena.timelines.size) (done : (p here).run s = .ok a t) :
    s.Moves here 0 t := by
  cases gesture with
  | burn offset =>
    rw [burn_run] at done
    split at done
    · exact nomatch done
    · cases done
      exact .silent rfl
  | change tweak =>
    cases done
    exact .own inside (tweak.onward _)
  | beginTuplet offset size =>
    obtain ⟨arena, ran, rfl⟩ := onArena_ok done
    rw [Arena.on_run] at ran
    split at ran
    · next begun =>
      cases ran
      exact .own inside (Timeline.beginTuplet_onward begun)
    · exact nomatch ran
  | @definitions _ step request =>
    have known : (onDefinitions step).run s = _ := Step.within_run ..
    rw [known] at done
    split at done
    · cases done
      exact .silent rfl
    · exact nomatch done
  | restore definitions fermata =>
    cases done
    exact .silent rfl

theorem moves_rest (inside : here < s.arena.timelines.size)
    (done : (update here Timeline.rest).run s = .ok ticks t) : s.Moves here ticks t := by
  obtain ⟨arena, ran, rfl⟩ := onArena_ok done
  rw [Arena.update_run] at ran
  cases ran
  exact .own inside ⟨.rest _, Timeline.position_rest _⟩

theorem moves_note (inside : here < s.arena.timelines.size) {offset : Nat} {staged : Staged}
    (done : (update here (Timeline.commit offset staged)).run s = .ok ticks t) :
    s.Moves here ticks t := by
  obtain ⟨arena, ran, rfl⟩ := onArena_ok done
  rw [Arena.update_run] at ran
  cases ran
  exact .own inside ⟨.commit .., Timeline.position_answered ..⟩

theorem moves_tie (forest : Forest roots s.arena) (inside : here < s.arena.timelines.size)
    {offset : Nat} (done : (onArena (Arena.tie here offset)).run s = .ok ticks t) :
    s.Moves here ticks t := by
  obtain ⟨arena, ran, rfl⟩ := onArena_ok done
  exact ⟨.tie_step forest inside ran, fun forest => forest.tie inside ran⟩

theorem moves_arpeggio (forest : Forest roots s.arena) (inside : here < s.arena.timelines.size)
    {offset interval : Nat} {staged : Staged}
    (done : (onArena (Arena.commitArpeggio here offset staged interval)).run s = .ok ticks t) :
    s.Moves here ticks t := by
  obtain ⟨arena, ran, rfl⟩ := onArena_ok done
  exact ⟨.arpeggio_step forest inside ran, fun forest => forest.commitArpeggio inside ran⟩

theorem moves_commit (forest : Forest roots s.arena) (inside : here < s.arena.timelines.size)
    {offset : Nat} {pitches : List Nat} {arpeggio : Bool}
    (done : (commit here offset pitches arpeggio).run s = .ok ticks t) : s.Moves here ticks t := by
  obtain ⟨_, _, read, done⟩ := Step.bind_ok done
  cases read
  obtain ⟨plain, u, staged, done⟩ := Step.bind_ok done
  obtain ⟨rfl, -⟩ := Custody.stage_ok staged
  obtain ⟨_, _, read, done⟩ := Step.bind_ok done
  cases read
  obtain ⟨_, _, heard, done⟩ := Step.bind_ok done
  cases heard
  cases arpeggio with
  | false =>
    have moves := moves_note (by exact inside) done
    exact ⟨moves.frame, moves.forest⟩
  | true =>
    have moves := moves_arpeggio (by exact forest) (by exact inside) done
    exact ⟨moves.frame, moves.forest⟩

theorem moves_sound {p : TimelineId → Play Nat} (sounding : Sounding p)
    (forest : Forest roots s.arena) (inside : here < s.arena.timelines.size)
    (done : (p here).run s = .ok ticks t) : s.Moves here ticks t := by
  cases sounding with
  | rest => exact moves_rest inside done
  | tie offset => exact moves_tie forest inside done
  | commit offset pitches arpeggio => exact moves_commit forest inside done

/-- Where the cursors of a timeline and of all older ones are, and how many timelines there are at
least. -/
structure Watch where
  cursor : Nat
  older : TimelineId → Nat
  size : Nat

instance : Scene Watch where
  after ticks γ := { γ with cursor := γ.cursor + ticks }
  under _ γ := γ
  copied γ := γ
  graced γ := γ
  mixed _ := False
  after_zero _ := rfl
  after_add m n γ := by simp only [Nat.add_assoc]

structure Watched (here : TimelineId) (γ : Watch) (s : Session) : Prop where
  forest : ∃ roots, Forest roots s.arena
  inside : here < s.arena.timelines.size
  cursor : (s.arena.timeline here).position = γ.cursor
  older : ∀ id < here, (s.arena.timeline id).position = γ.older id
  size : γ.size ≤ s.arena.timelines.size

variable {γ : Watch}

namespace Watched

theorem moves (watched : s.Watched here γ) (moves : s.Moves here ticks t) :
    t.Watched here (after ticks γ) := by
  obtain ⟨roots, forest⟩ := watched.forest
  exact ⟨⟨roots, moves.forest forest⟩, Nat.lt_of_lt_of_le watched.inside moves.frame.size,
    moves.frame.cursor.trans (congrArg (· + ticks) watched.cursor),
    fun id older => (congrArg Timeline.position
      (moves.frame.older forest watched.inside older)).trans (watched.older id older),
    Nat.le_trans watched.size moves.frame.size⟩

theorem silent (watched : s.Watched here γ) (same : t.arena = s.arena) : t.Watched here γ :=
  watched.moves (.silent same)

/-- Which slots of a timeline are in use does not matter. -/
theorem slots (watched : s.Watched here γ) {f : Timeline → Timeline}
    (kept : ∀ t : Timeline, (f t).children = t.children ∧ (f t).voices = t.voices ∧
      (f t).position = t.position) :
    Watched here γ { s with arena := s.arena.adjust here f } := by
  obtain ⟨roots, forest⟩ := watched.forest
  refine ⟨⟨roots, forest.adjust (kept _).1 (kept _).2.1⟩, (Arena.size_adjust ..).symm ▸ watched.inside,
    ?_, fun id older => ?_, (Arena.size_adjust ..).symm ▸ watched.size⟩
  · rw [Arena.timeline_adjust_self _ _ _ watched.inside, (kept _).2.2]
    exact watched.cursor
  · rw [Arena.timeline_adjust_ne _ _ (Nat.ne_of_gt older)]
    exact watched.older id older

end Watched

/-- The run is on a timeline, with the cursors up to it where they should be. -/
def watching (here here' : TimelineId) (γ : Watch) : Coupling Session :=
  along (Watched here γ) (here = here')

theorem follows_kept {P : Session → Prop} {Q : α → Session → Prop} {p : Play α} (known : Prop)
    {later : α → Prop}
    (kept : known → ∀ {s t a}, P s → p.run s = .ok a t → later a ∧ Q a t) :
    Follows Eq (along P known) p p fun a => along (Q a) (later a) := by
  refine .provided fun known => ?_
  have same : Follows Eq (Coupling.lockstep P) p p
      fun a => Coupling.lockstep fun t => later a ∧ Q a t :=
    Upkeep.follows_same (fun _ => rfl) False.elim (kept known) False.elim
  exact same.mono (.refl _) fun _ => ⟨fun coupled => ⟨coupled.2.1, coupled.1, coupled.2.2⟩, False.elim⟩

/-- A step on the timeline that both runs are on. -/
theorem follows_watching {here' : TimelineId} {p : TimelineId → Play α} {Q : α → Watch}
    (kept : ∀ {s t a}, Watched here γ s → (p here).run s = .ok a t → Watched here (Q a) t) :
    Follows Eq (watching here here' γ) (p here) (p here') fun a => watching here here' (Q a) := by
  refine .provided fun same => ?_
  subst same
  exact (follows_kept True fun _ s t a watched done =>
    (⟨rfl, kept watched done⟩ : here = here ∧ Watched here (Q a) t)).mono
      ⟨fun coupled => ⟨trivial, coupled⟩, False.elim⟩ fun _ => .refl _

/-- What is known of the children that a passage has claimed. Both runs have the same ones, and each
is younger than its parent. -/
abbrev Offspring (here here' : TimelineId) (pairs : List (TimelineId × TimelineId)) : Prop :=
  here = here' ∧ ∀ pair ∈ pairs, pair.1 = pair.2 ∧ here < pair.1

/-- The timeline of a passage, and the children that it has claimed. -/
def Hosts (here : TimelineId) (γ : Watch) (pairs : List (TimelineId × TimelineId)) (s : Session) :
    Prop :=
  s.Watched here γ ∧ ∀ pair ∈ pairs, pair.1 < s.arena.timelines.size

theorem Hosts.claim {pairs : List (TimelineId × TimelineId)} {offset index : Nat} {child : TimelineId}
    (hosts : s.Hosts here γ pairs)
    (done : (onArena (Arena.childAt here offset (.branch index))).run s = .ok child t) :
    here < child ∧ t.Hosts here γ (pairs ++ [(child, child)]) := by
  obtain ⟨arena, ran, rfl⟩ := onArena_ok done
  obtain ⟨watched, present⟩ := hosts
  obtain ⟨roots, forest⟩ := watched.forest
  obtain ⟨forest, younger, inside, size, still⟩ := Arena.claimed_branch forest watched.inside ran
  refine ⟨younger, ⟨⟨roots, forest⟩, Nat.lt_of_lt_of_le watched.inside size,
    (still here (Nat.le_refl _)).trans watched.cursor,
    fun id older => (still id (Nat.le_of_lt older)).trans (watched.older id older),
    Nat.le_trans watched.size size⟩, ?_⟩
  simp only [List.forall_mem_append, List.forall_mem_singleton]
  exact ⟨fun pair listed => Nat.lt_of_lt_of_le (present pair listed) size, inside⟩

/-- The branches of a passage are played on younger timelines, while that of the passage waits. -/
theorem fork_watching (here here' : TimelineId) (γ : Watch) (count : Nat) :
    Fork Eq watching (watching here here' γ) here here' count
      (fun _ pairs => along (Hosts here γ pairs) (Offspring here here' pairs))
      (fun ticks pairs => along (Hosts here (after ticks γ) pairs) (Offspring here here' pairs))
      fun ticks => watching here here' (after ticks γ) := by
  refine ⟨.provided ?_, ?_, fun {base pairs} _ => ⟨?_, fun left => left.2.elim⟩,
    fun {ticks pair pairs} => ⟨?_, fun left => left.2.elim⟩, ?_, fun left => left.2.elim⟩
  · rintro rfl
    have reserves : Follows Eq (along (Watched here γ) True) (update here (Timeline.reserve count))
        (update here (Timeline.reserve count))
        fun _ => along (Hosts here γ []) (Offspring here here []) := by
      refine follows_kept True fun _ s t base watched done => ?_
      obtain ⟨arena, ran, rfl⟩ := onArena_ok done
      rw [Arena.update_run] at ran
      cases ran
      exact ⟨⟨rfl, nofun⟩, watched.slots fun t => ⟨rfl, rfl, rfl⟩, nofun⟩
    exact reserves.mono ⟨fun coupled => ⟨trivial, coupled⟩, False.elim⟩ fun _ => .refl _
  · rintro α base pairs offset f g R - rest
    refine .provided ?_
    rintro ⟨rfl, offspring⟩
    have claims : Follows Eq (along (Hosts here γ pairs) True)
        (onArena (Arena.childAt here offset (.branch (base + pairs.length))))
        (onArena (Arena.childAt here offset (.branch (base + pairs.length))))
        fun child => along (Hosts here γ (pairs ++ [(child, child)]))
          (Offspring here here (pairs ++ [(child, child)])) := by
      refine follows_kept True fun _ s t child hosts done => ?_
      obtain ⟨younger, hosts⟩ := hosts.claim done
      refine ⟨⟨rfl, ?_⟩, hosts⟩
      simp only [List.forall_mem_append, List.forall_mem_singleton]
      exact ⟨offspring, trivial, younger⟩
    exact (claims.bind fun child => rest child child).mono
      ⟨fun coupled => ⟨trivial, coupled⟩, False.elim⟩ fun _ => .refl _
  · rintro s _ ⟨⟨rfl, offspring⟩, rfl, hosts⟩
    refine ⟨{ γ with size := s.arena.timelines.size }, fun ticks => ?_, rfl, rfl,
      { hosts.1 with size := Nat.le_refl _ }⟩
    refine follows_kept _ fun _ u v _ watched done => ?_
    cases done
    have released := watched.slots (f := Timeline.release base) fun t => ⟨rfl, rfl, rfl⟩
    exact ⟨⟨rfl, offspring⟩, { released with size := Nat.le_trans hosts.1.size released.size },
      fun pair listed => Nat.lt_of_lt_of_le (hosts.2 pair listed) released.size⟩
  · rintro s _ ⟨⟨rfl, offspring⟩, rfl, watched, present⟩
    obtain ⟨⟨own, younger⟩, offspring⟩ := List.forall_mem_cons.mp offspring
    obtain ⟨inside, present⟩ := List.forall_mem_cons.mp present
    refine ⟨⟨(s.arena.timeline pair.1).position, fun id => (s.arena.timeline id).position,
      s.arena.timelines.size⟩, ⟨fun coupled => ?_, fun left => left.2.elim⟩, own, rfl,
      watched.forest, inside, rfl, fun _ _ => rfl, Nat.le_refl _⟩
    obtain ⟨-, rfl, after⟩ := coupled
    refine ⟨⟨rfl, offspring⟩, rfl, ⟨after.forest, Nat.lt_of_lt_of_le watched.inside after.size,
      (after.older here younger).trans watched.cursor,
      fun id older => (after.older id (Nat.lt_trans older younger)).trans (watched.older id older),
      Nat.le_trans watched.size after.size⟩,
      fun other listed => Nat.lt_of_lt_of_le (present other listed) after.size⟩
  · rintro s _ ⟨⟨same, -⟩, rfl, watched, -⟩
    exact ⟨same, rfl, watched⟩

theorem duet_watching : Duet Eq watching where
  fails _ := rfl
  loose left := left.2.elim
  lone left := left.2.elim
  consonant := by
    rintro here _ γ s _ ⟨rfl, rfl, -⟩
    exact ⟨⟨rfl, rfl, rfl⟩, rfl, rfl, rfl, rfl⟩
  measuring _ coupled := congrArg Session.measuring coupled.2.1
  gesture gesture :=
    follows_watching fun watched done => watched.moves (moves_gesture gesture watched.inside done)
  sound sounding := follows_watching fun {s t ticks} watched done => by
    obtain ⟨roots, forest⟩ := watched.forest
    exact watched.moves (moves_sound sounding forest watched.inside done)
  push m := follows_watching (p := fun _ => pushModifier m) fun watched done => by
    cases done
    exact watched.silent rfl
  pop := follows_watching (p := fun _ => popModifier) fun watched done => by
    cases done
    exact watched.silent rfl
  prepare waiting := follows_watching
    (p := fun _ => modify fun s => { s with graces := some waiting }) fun watched done => by
      cases done
      exact watched.silent rfl
  graceful := .refl _
  clear := follows_watching (p := fun _ => modify fun s => { s with graces := none })
    fun watched done => by
      cases done
      exact watched.silent rfl
  copy _ coupled := ⟨coupled.1, congrArg measured coupled.2.1, coupled.2.2.silent rfl⟩
  copyAlone _ _ left := left.2.elim
  onsets coupled := congrArg Session.onsets coupled.2.1
  solo mixed := mixed.elim
  fork here here' γ count := ⟨_, _, fork_watching here here' γ count⟩

/-- Performing an item moves the cursor of its timeline by the ticks that are answered. -/
theorem cursor_performed (forest : Forest roots s.arena) (inside : here < s.arena.timelines.size)
    {depth references : Nat} {item : Item}
    (done : (perform depth here references item).run s = .ok ticks t) :
    (t.arena.timeline here).position = (s.arena.timeline here).position + ticks := by
  let γ : Watch := ⟨(s.arena.timeline here).position, fun id => (s.arena.timeline id).position,
    s.arena.timelines.size⟩
  have watched : s.Watched here γ :=
    ⟨⟨roots, forest⟩, inside, rfl, fun _ _ => rfl, Nat.le_refl _⟩
  have follows : Follows Eq (watching here here γ) _ _ _ :=
    duet_watching.follows_perform depth references item
  obtain ⟨_, -, -, rfl, after⟩ := follows.ok ⟨rfl, rfl, watched⟩ done
  exact after.cursor

/-- What a step on a timeline answers are the ticks by which the cursor of the timeline moves on. -/
def Advances (here : TimelineId) (p : Play Nat) (s : Session) : Prop :=
  ∀ ⦃ticks t⦄, p.run s = .ok ticks t →
    (t.arena.timeline here).position = (s.arena.timeline here).position + ticks

/-- The sessions that a run of a score comes through between two nodes, and before and after each item
that is performed, on copies that are measured, too. -/
inductive Visits (gas : Nat) (score : List Node) : Session → Prop
  | between {active : Option TimelineId} {queue : List Queued} {s : Session}
    (rounds : Rounds (.start gas score) ⟨active, queue, s⟩) : Visits gas score s
  | before {depth : Nat} {call : Call} (reached : Reaches gas score depth call) :
    Visits gas score call.session
  | after {depth ticks : Nat} {call : Call} {t : Session} (reached : Reaches gas score depth call)
    (performed : (perform depth).answer call = .ok ticks t) : Visits gas score t

theorem Visits.tended {gas : Nat} {score : List Node} (visits : Visits gas score s) :
    ∃ m live, s.Tended m live := by
  cases visits with
  | @between active queue _ rounds =>
    have held := (handover_held lasts_true).rounds rounds (held_start trivial gas score)
    exact ⟨false, active.toList, held.tended⟩
  | before reached =>
    obtain ⟨m, live, -, tended, -⟩ := reached.held lasts_true trivial
    exact ⟨m, live, tended⟩
  | after reached performed =>
    obtain ⟨m, live, member, tended, -⟩ := reached.held lasts_true trivial
    exact ⟨m, live, upkeep_tended.perform member tended performed⟩

/-- Whichever session a run comes through, and whichever of its timelines one goes on with: an item of
any shape answers the real advance, and so do rests, with or without regard to a tuplet, committed
notes and arpeggios, and ties. -/
theorem ticks_answered {gas : Nat} {score : List Node} (visits : Visits gas score s)
    (inside : here < s.arena.timelines.size) :
    (∀ depth references item, s.Advances here (perform depth here references item)) ∧
    (∀ length, s.Advances here (update here (Timeline.restFor length))) ∧
    s.Advances here (update here Timeline.rest) ∧
    (∀ length, s.Advances here (update here fun t => (length, t.pad length))) ∧
    (∀ offset staged, s.Advances here (update here (Timeline.commit offset staged))) ∧
    (∀ offset, s.Advances here (onArena (Arena.tie here offset))) ∧
    ∀ offset staged interval,
      s.Advances here (onArena (Arena.commitArpeggio here offset staged interval)) := by
  obtain ⟨m, live, tended⟩ := visits.tended
  have forest := tended.sound.forest
  have updated {change : Timeline → Nat × Timeline}
      (moved : ∀ t, (change t).2.position = t.position + (change t).1) :
      s.Advances here (update here change) := by
    intro ticks t done
    obtain ⟨arena, ran, rfl⟩ := onArena_ok done
    rw [Arena.update_run] at ran
    cases ran
    exact (congrArg _ (Arena.timeline_adjust_self here _ _ inside)).trans (moved _)
  refine ⟨fun _ _ _ _ _ => cursor_performed forest inside, fun length => updated ?_,
    updated Timeline.position_rest, fun length => updated fun t => t.position_pad length,
    fun offset staged => updated (Timeline.position_answered offset staged),
    fun offset _ _ done => (moves_tie forest inside done).frame.cursor,
    fun offset staged interval _ _ done => (moves_arpeggio forest inside done).frame.cursor⟩
  exact fun t => t.position_restFor length

/-- A passage with a triplet of a note, a rest and a tie in one branch and two arpeggios in the
other. -/
def tripletAside : Item :=
  let key : Item := .key ⟨4, .pitchClass 0, 0, 0⟩
  let chord : Item := .chord ⟨5, true, [⟨6, .pitchClass 0, 0, 0⟩, ⟨7, .pitchClass 4, 0, 0⟩]⟩
  .parallel 1 [[.range 2 (.tuplet 3) [key, .rest 3, .tie 4]], [chord, .graced 8 [key] chord]]

/-- After a rest of 32 ticks the passage answers 64 and moves the cursor to 96. -/
theorem ticks_answered_of_passage :
    ∃ s t, Visits 40 [.item (.rest 0), .item tripletAside] s ∧ 0 < s.arena.timelines.size ∧
      (perform 40 0 0 tripletAside).run s = .ok 64 t ∧ (s.arena.timeline 0).position = 32 ∧
      (t.arena.timeline 0).position = 96 := by
  let repeats : Repeats := { performed := #[.item (.rest 0)] }
  let rested : Timeline :=
    { channel := 1, rests := 32, position := 32, last := .rest, repeats := repeats }
  let call : Call := ⟨0, 0, tripletAside, { gas := ⟨39⟩, arena := ⟨#[rested]⟩, channels := #[0] }⟩
  have round : Round (.start 40 [.item (.rest 0), .item tripletAside])
      ⟨some 0, [⟨.item tripletAside, false⟩], call.session⟩ :=
    @Round.node none (some 0) ⟨.item (.rest 0), false⟩ _ [] _ _ rfl
  have reached : Reaches 40 [.item (.rest 0), .item tripletAside] 40 call :=
    Reaches.node (t := call.session) (.single round) rfl
  have performed : (perform 40 0 0 tripletAside).run' call.session = some 64 := by decide +kernel
  obtain ⟨t, done⟩ := Step.exists_of_run' performed
  have inside : 0 < call.session.arena.timelines.size := Nat.zero_lt_one
  exact ⟨call.session, t, .before reached, inside, done, rfl,
    (ticks_answered (.before reached) inside).1 _ _ _ done⟩

end Session
end TextScore
