import TextScore.Proofs.Custody
import TextScore.Proofs.Waiting

/-! A performance, with the timelines that wait while items are performed. What is performed moves no
timeline that waits, and no child is ever ahead of its parent when a passage claims it. -/
namespace TextScore.Session
open Arena (Forest Frame Post)
open Step (Blames Contract Follows Sober)
open Scene

/-- A session in which items are performed on some timelines, under some ornaments. -/
structure Stand where
  measuring : Bool
  live : List TimelineId
  post : Post
  stack : List Modifier
  /-- Graces may wait for their note. -/
  graced : Bool

instance : Scene Stand where
  after ticks γ := { γ with post := γ.post.after ticks }
  under modifier γ := { γ with stack := modifier :: γ.stack }
  copied γ := { γ with measuring := true }
  graced γ := { γ with graced := true }
  mixed _ := False
  after_zero _ := rfl
  after_add m n γ := by simp only [Post.after, Nat.add_assoc]

/-- Items may be performed on the timeline, with others waiting. -/
structure Standing (here : TimelineId) (γ : Stand) (s : Session) : Prop where
  tended : s.Tended γ.measuring γ.live
  member : here ∈ γ.live
  poised : s.arena.Poised γ.post here
  floors : ∀ id, (s.arena.timeline id).branchBase = γ.post.floor id
  modifiers : s.modifiers = γ.stack
  graces : γ.graced ∨ s.graces = none

variable {here : TimelineId} {γ : Stand} {s t : Session} {ticks : Nat} {α : Type}

theorem admits_request {step : Step Definitions α} (request : Definitions.Request step) :
    Blames Fault.Admits (onDefinitions step) := by
  refine blames_within ?_
  cases request with
  | declareGroup id body offset =>
    refine blames_read fun d => blames_unless nofun ?_
    exact .of_results (fun _ _ => trivial) nofun
  | group | template | emoji =>
    refine blames_read fun d => ?_
    split
    · exact blames_pure _
    · exact blames_failAt nofun

namespace Standing

theorem inside (standing : s.Standing here γ) : here < s.arena.timelines.size :=
  standing.tended.sound.inside (standing.tended.playable here standing.member)

theorem free (standing : s.Standing here γ) : here ∉ s.arena.voices :=
  standing.tended.sound.forest.not_voice (standing.tended.playable here standing.member)

/-- A primitive step that frames the arena. -/
theorem step (standing : s.Standing here γ) {p : Play α} {a : α} (primitive : Primitive here p)
    (done : p.run s = .ok a t) (frame : Frame here ticks s.arena t.arena)
    (level : ∃ limit, t.arena.Level limit) (modifiers : t.modifiers = s.modifiers)
    (graces : t.graces = s.graces ∨ t.graces = none) : t.Standing here (after ticks γ) where
  tended := (standing.tended.primitive standing.member primitive done).2
  member := standing.member
  poised := standing.poised.frame standing.tended.sound.forest standing.inside frame level
  floors id := (frame.branchBase id).trans (standing.floors id)
  modifiers := modifiers.trans standing.modifiers
  graces := standing.graces.elim .inl fun none => .inr (graces.elim (·.trans none) id)

/-- A step that leaves the arena alone. -/
theorem silent (standing : s.Standing here γ) {p : Play α} {a : α} (primitive : Primitive here p)
    (done : p.run s = .ok a t) (arena : t.arena = s.arena) (modifiers : t.modifiers = s.modifiers)
    (graces : t.graces = s.graces ∨ t.graces = none) : t.Standing here γ :=
  have frame : Frame here 0 s.arena t.arena := arena ▸ .refl here s.arena
  standing.step primitive done frame (arena ▸ standing.poised.level) modifiers graces

/-- The timeline itself moves on. -/
theorem own (standing : s.Standing here γ) {p : Play α} {a : α} {f : Timeline → Timeline}
    (primitive : Primitive here p) (done : p.run s = .ok a { s with arena := s.arena.adjust here f })
    (moved : (s.arena.timeline here).Onward (f (s.arena.timeline here)) ∧
      (f (s.arena.timeline here)).position = (s.arena.timeline here).position + ticks) :
    Standing here (after ticks γ) { s with arena := s.arena.adjust here f } := by
  obtain ⟨limit, level⟩ := standing.poised.level
  exact standing.step primitive done (.own standing.inside moved) (level.own standing.free moved.1) rfl
    (.inl rfl)

theorem stacked (standing : s.Standing here γ) (f : List Modifier → List Modifier)
    {stack : List Modifier} (same : f γ.stack = stack) :
    Standing here { γ with stack := stack } { s with modifiers := f s.modifiers } :=
  ⟨(standing.tended.primitive (a := ⟨⟩) standing.member (.modifiers f) rfl).2, standing.member,
    standing.poised, standing.floors, standing.modifiers ▸ same, standing.graces⟩

theorem waiting (standing : s.Standing here γ) (graces : Option (Nat × List (List Nat)))
    {graced : Bool} (known : graced ∨ graces = none) :
    Standing here { γ with graced := graced } { s with graces := graces } :=
  ⟨(standing.tended.primitive (a := ⟨⟩) standing.member (.graces graces) rfl).2, standing.member,
    standing.poised, standing.floors, standing.modifiers, known⟩

theorem copied (standing : s.Standing here γ) :
    Standing here { γ with measuring := true } s.measured :=
  ⟨upkeep_tended.copy standing.tended, standing.member, standing.poised, standing.floors,
    standing.modifiers, standing.graces⟩

end Standing

section Steps

theorem standing_gesture {p : TimelineId → Play α} (gesture : Gesture p) :
    Contract Fault.Admits (Standing here γ) (p here) fun _ => Standing here γ := by
  cases gesture with
  | burn offset =>
    refine .of_results (fun standing done => ?_) fun _ failed =>
      (admits_of_sober (sober_burn offset)).error trivial failed
    have known := done
    rw [burn_run] at known
    split at known
    · exact nomatch known
    · cases known
      exact standing.silent (.burn offset) done rfl rfl (.inl rfl)
  | change tweak =>
    exact .modify fun {s} standing =>
      standing.own (p := adjust here _) (a := ⟨⟩) (.change tweak.change) rfl (tweak.onward _)
  | beginTuplet offset size =>
    refine .of_results (fun {s unit t} standing done => ?_) fun _ failed =>
      (admits_of_sober (sober_beginTuplet here offset size)).error trivial failed
    obtain ⟨arena, ran, rfl⟩ := onArena_ok done
    rw [Arena.on_run] at ran
    split at ran
    · next begun =>
      cases ran
      exact standing.own (.beginTuplet offset size) done (Timeline.beginTuplet_onward begun)
    · exact nomatch ran
  | @definitions _ step request =>
    refine .of_results (fun {s a t} standing done => ?_) fun _ failed =>
      (admits_request request).error trivial failed
    have known : (onDefinitions step).run s = _ := Step.within_run ..
    rw [known] at done
    split at done
    · next found =>
      cases done
      exact standing.silent (.definitions request) (known.trans (by rw [found])) rfl rfl (.inl rfl)
    · exact nomatch done
  | restore definitions fermata =>
    exact .modify fun {s} standing =>
      standing.silent (a := ⟨⟩) (.restore definitions fermata) rfl rfl rfl (.inl rfl)

theorem standing_note (offset : Nat) (staged : Staged) :
    Contract Fault.Admits (Standing here γ) (update here (Timeline.commit offset staged))
      fun ticks => Standing here (after ticks γ) := by
  refine .of_results (fun {s ticks t} standing done => ?_) fun _ failed =>
    (blames_onArena (blames_update _)).error trivial failed
  obtain ⟨arena, ran, rfl⟩ := onArena_ok done
  rw [Arena.update_run] at ran
  cases ran
  exact standing.own (.note offset staged) done ⟨.commit .., Timeline.position_answered ..⟩

theorem standing_arpeggio (offset : Nat) {staged : Staged} (interval : Nat) (sounds : Sounds staged) :
    Contract Fault.Admits (Standing here γ)
      (onArena (Arena.commitArpeggio here offset staged interval))
      fun ticks => Standing here (after ticks γ) := by
  refine .of_results (fun {s ticks t} standing done => ?_) fun {s fault t} standing failed => ?_
  · obtain ⟨arena, ran, rfl⟩ := onArena_ok done
    obtain ⟨limit, level⟩ := standing.poised.level
    have room := level.mono (Nat.le_max_left limit ((s.arena.timeline here).position +
      staged.ticks + ((s.arena.timeline here).calibrate staged.ticks).1))
    exact standing.step (.arpeggio offset staged interval sounds) done
      (.arpeggio_step standing.tended.sound.forest standing.inside ran)
      ⟨_, room.commitArpeggio standing.tended.sound
        (standing.tended.playable here standing.member) ran (Nat.le_max_right ..)⟩ rfl (.inl rfl)
  · obtain ⟨limit, level⟩ := standing.poised.level
    rw [onArena_run] at failed
    split at failed
    · exact nomatch failed
    · next ran =>
      cases failed
      exact level.admits_arpeggio standing.tended.sound.forest
        (standing.tended.playable here standing.member) ran

theorem standing_commit (offset : Nat) {pitches : List Nat} (arpeggio : Bool) (some : pitches ≠ []) :
    Contract Fault.Admits (Standing here γ) (commit here offset pitches arpeggio)
      fun ticks => Standing here (after ticks γ) := by
  refine Custody.atTimeline fun s standing => ?_
  refine Contract.bind (Q := fun plain u => Standing here γ u ∧ Sounds plain)
    (.of_results (fun same done => ⟨?_, sounds_stage some done⟩)
      fun _ failed => (admits_of_sober (Custody.sober_stage pitches)).error trivial failed) fun plain => ?_
  · rw [(Custody.stage_ok done).1, same]
    exact standing.silent (a := ⟨⟩) (.graces none) rfl rfl rfl (.inr rfl)
  refine .read fun t ⟨standing, sounds⟩ => Contract.start ?_ standing
  refine Contract.bind (Q := fun _ => Standing here γ) (.modify fun {u} standing => ?_) fun _ => ?_
  · exact standing.silent (a := ⟨⟩) (.onsets fun onsets => (Draft.onsets (s.arena.timeline here).position
      (Modifier.applyAll t.modifiers (s.arena.timeline here).position plain).notes).foldl widen onsets)
      rfl rfl rfl (.inl rfl)
  · cases arpeggio with
    | false => exact standing_note ..
    | true => exact standing_arpeggio _ _ (sounds.applyAll _ _)

theorem standing_sound {p : TimelineId → Play Nat} (sounding : Sounding p) :
    Contract Fault.Admits (Standing here γ) (p here) fun ticks => Standing here (after ticks γ) := by
  cases sounding with
  | rest =>
    refine .of_results (fun {s ticks t} standing done => ?_) fun _ failed =>
      (blames_onArena (blames_update _)).error trivial failed
    obtain ⟨arena, ran, rfl⟩ := onArena_ok done
    rw [Arena.update_run] at ran
    cases ran
    exact standing.own .rest done ⟨.rest _, Timeline.position_rest _⟩
  | tie offset =>
    refine .of_results (fun {s ticks t} standing done => ?_) fun _ failed =>
      (admits_of_sober (blames_onArena (sober_tie here offset))).error trivial failed
    obtain ⟨arena, ran, rfl⟩ := onArena_ok done
    obtain ⟨limit, level⟩ := standing.poised.level
    have room := level.mono (Nat.le_max_left limit ((s.arena.timeline here).position + ticks))
    exact standing.step (.tie offset) done
      (.tie_step standing.tended.sound.forest standing.inside ran)
      ⟨_, room.tie standing.tended.sound (standing.tended.playable here standing.member) ran
        (Nat.le_max_right ..)⟩ rfl (.inl rfl)
  | commit offset pitches arpeggio some => exact standing_commit offset arpeggio some

end Steps

section Passages
variable {children : List TimelineId}

/-- A passage has reserved slots, and claimed children for the first ones of them. -/
structure Commencing (here : TimelineId) (γ : Stand) (count : Nat) (children : List TimelineId)
    (s : Session) : Prop where
  tended : s.Tended γ.measuring γ.live
  member : here ∈ γ.live
  opening : s.arena.Opening γ.post here children
  floors : ∀ id, (s.arena.timeline id).branchBase =
    if id = here then γ.post.floor here + count else γ.post.floor id
  modifiers : s.modifiers = γ.stack
  graces : γ.graced ∨ s.graces = none

/-- The first branch of a passage has been played. -/
structure Pausing (here : TimelineId) (γ : Stand) (ticks : Nat) (children : List TimelineId)
    (s : Session) : Prop where
  tended : s.Tended γ.measuring γ.live
  member : here ∈ γ.live
  waits : s.arena.Waits (γ.post.after ticks) here children γ.post.clock
  floors : ∀ id, (s.arena.timeline id).branchBase = γ.post.floor id
  modifiers : s.modifiers = γ.stack
  graces : γ.graced ∨ s.graces = none

theorem commencing_reserve {E : Fault → Prop} (count : Nat) :
    Contract E (Standing here γ) (update here (Timeline.reserve count)) fun base s =>
      base = γ.post.floor here ∧ Commencing here γ count [] s := by
  refine .of_results (fun {s base t} standing done => ?_) fun _ failed =>
    (blames_onArena (blames_update _)).error trivial failed
  have tended := (standing.tended.primitive standing.member (.reserve count) done).2
  obtain ⟨arena, ran, rfl⟩ := onArena_ok done
  rw [Arena.update_run] at ran
  cases ran
  refine ⟨standing.floors here, tended, standing.member, ⟨?_, nofun, nofun⟩, fun id => ?_,
    standing.modifiers, standing.graces⟩
  · exact standing.poised.settle (fun _ => ⟨rfl, rfl⟩) fun _ => rfl
  · dsimp only
    rw [Arena.timeline_adjust standing.inside]
    split
    · exact congrArg (· + count) (standing.floors here)
    · exact standing.floors id

theorem commencing_claim {E : Fault → Prop} (here : TimelineId) (γ : Stand) (base count : Nat)
    (children : List TimelineId) (offset : Nat) :
    Contract E (fun s => base = γ.post.floor here ∧ Commencing here γ count children s)
      (onArena (Arena.childAt here offset (.branch (base + children.length))))
      fun child s => base = γ.post.floor here ∧ Commencing here γ count (children ++ [child]) s := by
  refine .of_results (fun {s child t} known done => ?_) fun {s fault t} known failed => ?_
  · obtain ⟨rfl, commencing⟩ := known
    have tended := (commencing.tended.branch commencing.member done).2
    obtain ⟨arena, ran, rfl⟩ := onArena_ok done
    have playable := commencing.tended.playable here commencing.member
    have base (id : TimelineId) :=
      Arena.branchBase_childAt (commencing.tended.sound.inside playable) ran id
    exact ⟨rfl, upkeep_tended.shrink (List.subset_cons_self ..) tended, commencing.member,
      (commencing.opening.claim commencing.tended.sound playable ran).1,
      fun id => (base id).trans (commencing.floors id), commencing.modifiers, commencing.graces⟩
  · obtain ⟨rfl, commencing⟩ := known
    rw [onArena_run] at failed
    split at failed
    · exact nomatch failed
    · next ran =>
      have playable := commencing.tended.playable here commencing.member
      exact absurd ran (commencing.opening.admits (commencing.tended.sound.inside playable))

theorem Commencing.first (commencing : s.Commencing here γ children.length children) :
    s.Standing here { γ with post := γ.post.opened here children s.arena } :=
  ⟨commencing.tended, commencing.member, commencing.opening.first commencing.tended.sound.forest,
    commencing.floors, commencing.modifiers, commencing.graces⟩

/-- When the first branch has been played, its slots are free again. -/
theorem Commencing.release (commencing : s.Commencing here γ children.length children) :
    Contract Fault.Admits
      (Standing here (after ticks { γ with post := γ.post.opened here children s.arena }))
      (adjust here (Timeline.release (γ.post.floor here)))
      fun _ => Pausing here γ ticks children := by
  refine .modify fun {t} standing => ?_
  have waits := commencing.opening.closes commencing.tended.sound.forest
    standing.tended.sound.forest standing.poised
  refine ⟨(standing.tended.primitive (a := ⟨⟩) standing.member (.change (.release _)) rfl).2,
    standing.member, waits.settle (fun _ => ⟨rfl, rfl⟩) fun _ => rfl, fun id => ?_,
    standing.modifiers, standing.graces⟩
  dsimp only
  rw [Arena.timeline_adjust standing.inside]
  split
  · next same => exact same ▸ rfl
  · next other =>
    refine (standing.floors id).trans ?_
    simp only [after, Post.after, Post.opened, if_neg other]

/-- A branch is played on a child while the timeline of the passage waits with the other ones. -/
abbrev Stand.branch (here child : TimelineId) (others : List TimelineId) (ticks : Nat)
    (arena : Arena) (γ : Stand) : Stand :=
  { γ with
    live := child :: γ.live
    post := (γ.post.after ticks).entered here others γ.post.clock arena }

variable {child : TimelineId} {others : List TimelineId}

theorem Pausing.enter (pausing : s.Pausing here γ ticks (child :: others)) :
    s.Standing child (γ.branch here child others ticks s.arena) := by
  obtain ⟨i, -, found⟩ := pausing.waits.slots child List.mem_cons_self
  have playable : s.arena.Playable s.channels.toList child :=
    List.mem_append_right _ (Arena.child_listed (Array.mem_of_getElem? found))
  refine ⟨⟨pausing.tended.measuring, pausing.tended.sound, fun id listed => ?_⟩, List.mem_cons_self,
    pausing.waits.enter pausing.tended.sound.forest, pausing.floors, pausing.modifiers, pausing.graces⟩
  rcases List.mem_cons.mp listed with rfl | old
  · exact playable
  · exact pausing.tended.playable id old

theorem Pausing.leave (pausing : s.Pausing here γ ticks (child :: others))
    (standing : t.Standing child (after ticks (γ.branch here child others ticks s.arena))) :
    t.Pausing here γ ticks others :=
  ⟨upkeep_tended.shrink (List.subset_cons_self child γ.live) standing.tended, pausing.member,
    pausing.waits.leave standing.tended.sound.forest rfl standing.poised, standing.floors,
    standing.modifiers, standing.graces⟩

end Passages

section Duet

/-- What is known of a timeline, of the children that its passages use, and of those that wait. -/
abbrev Knowledge := (here : TimelineId) → (floor : TimelineId → Nat) → (held : List TimelineId) → Prop

/-- Two runs that are the same one. -/
def along (P : Session → Prop) (known : Prop) : Coupling Session :=
  (Coupling.lockstep P).provided known

/-- The run is on a timeline of which something is known. -/
def standings (N : Knowledge) (here here' : TimelineId) (γ : Stand) : Coupling Session :=
  along (Standing here γ) (here = here' ∧ N here γ.post.floor γ.post.held)

/-- Faults of the same run, where no child is refused. -/
abbrev Met (fault fault' : Fault) : Prop := fault = fault' ∧ fault.Admits

theorem follows_along {P : Session → Prop} {Q : α → Session → Prop} {p : Play α} {known : Prop}
    (contract : Contract Fault.Admits P p Q) :
    Follows Met (along P known) p p fun a => along (Q a) known :=
  .provided fun known => contract.lockstep.mono (.refl _) fun _ =>
    ⟨fun coupled => ⟨known, coupled⟩, False.elim⟩

/-- A passage, in both of the runs that are the same one. What is known around it may be less than in
its branches. -/
theorem fork_standing {N : Knowledge} (known : Prop) (here here' : TimelineId) (γ : Stand) (count : Nat)
    (first : known → ∀ children arena, children.length = count →
      N here (γ.post.opened here children arena).floor (γ.post.opened here children arena).held)
    (other : known → ∀ child others, N child γ.post.floor (here :: others ++ γ.post.held)) :
    Fork Met (standings N) (along (Standing here γ) (here = here' ∧ known)) here here' count
      (fun base pairs => along (fun s => base = γ.post.floor here ∧
          s.Commencing here γ count (pairs.map Prod.fst))
        ((here = here' ∧ known) ∧ pairs.map Prod.fst = pairs.map Prod.snd))
      (fun ticks pairs => along (Pausing here γ ticks (pairs.map Prod.fst))
        ((here = here' ∧ known) ∧ pairs.map Prod.fst = pairs.map Prod.snd))
      fun ticks => along (Standing here (after ticks γ)) (here = here' ∧ known) := by
  refine ⟨.provided ?_, ?_, fun {base pairs} all => ⟨?_, fun left => left.2.elim⟩,
    fun {ticks pair pairs} => ⟨?_, fun left => left.2.elim⟩, ?_, fun left => left.2.elim⟩
  · rintro ⟨rfl, holds⟩
    exact (commencing_reserve count).lockstep.mono (.refl _) fun _ =>
      ⟨fun coupled => ⟨⟨⟨rfl, holds⟩, rfl⟩, coupled⟩, False.elim⟩
  · rintro α base pairs offset f g R - rest
    refine .provided ?_
    rintro ⟨⟨rfl, holds⟩, same⟩
    have claimed := commencing_claim (E := Fault.Admits) here γ base count (pairs.map Prod.fst) offset
    rw [List.length_map] at claimed
    refine claimed.lockstep.bind fun child => (rest child child).mono ?_ fun _ => .refl _
    refine ⟨fun coupled => ⟨⟨⟨rfl, holds⟩, ?_⟩, coupled.1, ?_⟩, False.elim⟩
    · rw [List.map_append, List.map_append, same]
      rfl
    · rw [List.map_append]
      exact coupled.2
  · rintro s _ ⟨⟨⟨rfl, holds⟩, same⟩, rfl, rfl, commencing⟩
    have length : (pairs.map Prod.fst).length = count := (List.length_map ..).trans all
    rw [← length] at commencing
    refine ⟨_, fun ticks => ?_, ⟨rfl, first holds _ s.arena length⟩, rfl, commencing.first⟩
    have between : ((here = here ∧ known) ∧ pairs.map Prod.fst = pairs.map Prod.snd) :=
      ⟨⟨rfl, holds⟩, same⟩
    exact (follows_along commencing.release).mono
      ⟨And.imp_left fun _ => between, And.imp_left fun _ => between⟩ fun _ => .refl _
  · rintro s _ ⟨⟨⟨rfl, holds⟩, same⟩, rfl, pausing⟩
    obtain ⟨own, same⟩ := List.cons.inj same
    refine ⟨_, ⟨fun coupled => ?_, fun left => left.2.elim⟩, ⟨own, other holds ..⟩, rfl, pausing.enter⟩
    exact ⟨⟨⟨rfl, holds⟩, same⟩, coupled.2.1, pausing.leave coupled.2.2⟩
  · rintro s _ ⟨known, rfl, pausing⟩
    exact ⟨known.1, rfl, pausing.tended, pausing.member, pausing.waits.poised, pausing.floors,
      pausing.modifiers, pausing.graces⟩

/-- Knowledge that the branches of a passage share with what is around it. -/
structure Knowledge.Closed (N : Knowledge) : Prop where
  first : ∀ {here floor held} count (children : List TimelineId), N here floor held →
    N here (fun id => if id = here then floor here + count else floor id) (children ++ held)
  other : ∀ {here floor held} child (others : List TimelineId), N here floor held →
    N child floor (here :: others ++ held)

theorem duet_standing {N : Knowledge} (closed : N.Closed) : Duet Met (standings N) where
  fails other := ⟨rfl, other⟩
  loose left := left.2.elim
  lone left := left.2.elim
  consonant := by
    rintro here _ γ s _ ⟨⟨rfl, -⟩, rfl, -⟩
    exact ⟨⟨rfl, rfl, rfl⟩, rfl, rfl, rfl, rfl⟩
  measuring _ coupled := congrArg Session.measuring coupled.2.1
  gesture gesture := by
    refine .provided ?_
    rintro ⟨rfl, known⟩
    exact (standing_gesture gesture).lockstep.mono (.refl _) fun _ =>
      ⟨fun coupled => ⟨⟨rfl, known⟩, coupled⟩, False.elim⟩
  sound sounding := by
    refine .provided ?_
    rintro ⟨rfl, known⟩
    exact (standing_sound sounding).lockstep.mono (.refl _) fun _ =>
      ⟨fun coupled => ⟨⟨rfl, known⟩, coupled⟩, False.elim⟩
  push m := follows_along (.modify fun standing => standing.stacked (m :: ·) rfl)
  pop := follows_along (.modify fun standing => standing.stacked List.tail rfl)
  prepare waiting := follows_along (.modify fun standing => standing.waiting (some waiting) (.inl rfl))
  graceful := ⟨fun coupled => ⟨coupled.1, coupled.2.1, coupled.2.2.waiting _ (.inl rfl)⟩,
    fun left => left.2.elim⟩
  clear := follows_along (.modify fun standing => standing.waiting none (.inr rfl))
  copy _ coupled := ⟨coupled.1, congrArg measured coupled.2.1, coupled.2.2.copied⟩
  copyAlone _ _ left := left.2.elim
  onsets coupled := congrArg Session.onsets coupled.2.1
  solo mixed := mixed.elim
  fork here here' γ count := by
    refine ⟨_, _, fork_standing (N here γ.post.floor γ.post.held) here here' γ count ?_ ?_⟩
    · exact fun known children arena _ => closed.first children.length children known
    · exact fun known child others => closed.other child others known

end Duet
end TextScore.Session
