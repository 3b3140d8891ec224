import TextScore.Proofs.Passages
import TextScore.Proofs.Tuplets
import TextScore.Proofs.Twins
import TextScore.Proofs.Units

/-! Performing an item is balanced. Whatever it puts around the items inside it, it takes away again:
ornaments come off the stack, tuplets end, passages release the slots of their timeline, and graces
find their note. -/
namespace TextScore

namespace Step
variable {σ α β : Type} {R : σ → σ → Prop}

/-- A step that succeeds leaves a state in a relation to the one it began in. -/
def Carries (R : σ → σ → Prop) (p : Step σ α) : Prop := ∀ ⦃s a t⦄, p.run s = .ok a t → R s t

namespace Carries
variable {p : Step σ α} {f : α → Step σ β}

theorem failAt (offset : Nat) (cause : Cause) : Carries R (Step.failAt offset cause : Step σ α) :=
  fun _ _ _ done => nomatch done

theorem guarded {c : Prop} [Decidable c] {offset : Nat} {cause : Cause} {f : PUnit → Step σ α}
    (rest : Carries R (f ⟨⟩)) : Carries R (if c then Step.failAt offset cause >>= f else f ⟨⟩) :=
  fun _ _ _ done => rest (Step.unless_ok done).2

theorem get {f : σ → Step σ α} (rest : ∀ s, Carries R (f s)) : Carries R (MonadState.get >>= f) :=
  fun s _ _ done => rest s done

variable [IsPreorder σ R]

/-- Steps that only look leave a state as it is. -/
theorem read (reads : ∀ {s a t}, p.run s = .ok a t → t = s) : Carries R p := fun s _ _ done => by
  obtain rfl := reads done
  exact Std.Refl.refl _

theorem pure (a : α) : Carries R (Pure.pure a : Step σ α) := read fun done => by
  cases done
  rfl

theorem bind (first : Carries R p) (rest : ∀ a, Carries R (f a)) : Carries R (p >>= f) :=
  fun s b u done => by
    obtain ⟨a, t, ran, done⟩ := Step.bind_ok done
    exact IsTrans.trans s t u (first ran) (rest a done)

theorem foldlM {γ : Type} {f : β → γ → Step σ β} {xs : List γ}
    (each : ∀ b, ∀ x ∈ xs, Carries R (f b x)) (b : β) : Carries R (xs.foldlM f b) := by
  induction xs generalizing b with
  | nil => exact pure b
  | cons x xs ih =>
    rw [List.foldlM_cons]
    exact (each b x List.mem_cons_self).bind fun c =>
      ih (fun b y listed => each b y (List.mem_cons_of_mem x listed)) c

theorem mapM {γ : Type} {f : γ → Step σ α} {xs : List γ} (each : ∀ x, Carries R (f x)) :
    Carries R (xs.mapM f) := by
  induction xs with
  | nil => exact pure []
  | cons x xs ih =>
    rw [List.mapM_cons]
    exact (each x).bind fun a => ih.bind fun as => pure (a :: as)

theorem forM {γ : Type} {f : γ → Step σ PUnit} {xs : List γ} (each : ∀ x, Carries R (f x)) :
    Carries R (xs.forM f) := by
  induction xs with
  | nil => exact pure PUnit.unit
  | cons x xs ih => exact (each x).bind fun _ => ih

end Carries
end Step

namespace Timeline
variable {t t' : Timeline} {f : Timeline → Timeline}

/-- The tuplet that a timeline is in, without what it owes, and the unit that it is played in there. -/
def metre (t : Timeline) : Option (Nat × Nat × Nat) :=
  t.tuplet.map fun tuplet => (tuplet.divisor, tuplet.remainder, t.state.quantization)

theorem InTune.metre (inTune : t.InTune t') : t'.metre = t.metre := by
  rw [Timeline.metre, Timeline.metre, inTune.state, inTune.tuplet]

theorem metre_calibrate (ticks : Nat) (t : Timeline) : (t.calibrate ticks).2.metre = t.metre := by
  unfold calibrate
  split
  · rfl
  · next tuplet known =>
    rw [metre, metre, known]
    rfl

theorem metre_rest (t : Timeline) : t.rest.2.metre = t.metre := by
  unfold rest restFor
  split
  · rfl
  · exact (inTune_pad _ _).metre.trans (metre_calibrate ..)

theorem metre_addBends (bends : List (Nat × Binary64)) (t : Timeline) :
    (Session.addBends bends t).metre = t.metre := by
  induction bends generalizing t with
  | nil => rfl
  | cons bend bends ih => exact ih (t.addBend bend.1 bend.2)

/-- In a tuplet, settings leave its unit alone. -/
theorem metre_setting {key value : String} (read : Session.settingChange t key value = .ok f) :
    (f t).metre = t.metre := by
  let Same (f : Timeline → Timeline) : Prop := (f t).metre = t.metre
  simp only [Session.settingChange] at read
  split at read
  · exact Session.change_of_read (p := Same) read fun _ _ => rfl
  · exact Session.change_of_read (p := Same) read fun _ _ => rfl
  · split at read
    · cases read
    · next free =>
      have none : t.tuplet = none := Option.not_isSome_iff_eq_none.mp free
      refine Session.change_of_read (p := Same) read fun q _ => ?_
      dsimp only [Same]
      rw [metre, metre, none]
      rfl
  · exact Session.change_of_read (p := Same) read fun _ _ => rfl
  · exact Session.change_of_read (p := Same) read fun _ _ => rfl
  · exact Session.change_of_read (p := Same) read fun _ _ => rfl
  · cases read

end Timeline

namespace Session
open Arena (Forest)
open Step (Carries)
variable {here : TimelineId} {s t u : Session} {α : Type}

/-- What stands around an item stands there again. -/
structure Settles (s t : Session) : Prop where
  modifiers : t.modifiers = s.modifiers
  measuring : t.measuring = s.measuring
  fermata : t.fermata = s.fermata
  graces : s.graces = none → t.graces = none

instance : IsPreorder Session Settles where
  refl _ := ⟨rfl, rfl, rfl, id⟩
  trans _ _ _ first second := ⟨second.modifiers.trans first.modifiers,
    second.measuring.trans first.measuring, second.fermata.trans first.fermata,
    second.graces ∘ first.graces⟩

structure Rooted (here : TimelineId) (s : Session) : Prop where
  forest : ∃ roots, Forest roots s.arena
  inside : here < s.arena.timelines.size

/-- A timeline has the slots and the tuplet that it had. -/
structure Recovers (here : TimelineId) (s t : Session) : Prop where
  rooted : t.Rooted here
  branchBase : (t.arena.timeline here).branchBase = (s.arena.timeline here).branchBase
  metre : (t.arena.timeline here).metre = (s.arena.timeline here).metre

structure Balances (here : TimelineId) (s t : Session) : Prop extends Settles s t where
  recovers : s.Rooted here → s.Recovers here t

theorem Recovers.trans (first : s.Recovers here t) (second : t.Recovers here u) :
    s.Recovers here u :=
  ⟨second.rooted, second.branchBase.trans first.branchBase, second.metre.trans first.metre⟩

instance (here : TimelineId) : IsPreorder Session (Balances here) where
  refl _ := ⟨⟨rfl, rfl, rfl, id⟩, fun rooted => ⟨rooted, rfl, rfl⟩⟩
  trans s t u first second := ⟨IsTrans.trans s t u first.toSettles second.toSettles,
    fun rooted => (first.recovers rooted).trans (second.recovers (first.recovers rooted).rooted)⟩

theorem Moves.rooted {ticks : Nat} (moves : s.Moves here ticks t) (rooted : s.Rooted here) :
    t.Rooted here := by
  obtain ⟨roots, forest⟩ := rooted.forest
  exact ⟨⟨roots, moves.forest forest⟩, Nat.lt_of_lt_of_le rooted.inside moves.frame.size⟩

theorem Moves.recovers {ticks : Nat} (moves : s.Moves here ticks t) (rooted : s.Rooted here)
    (metre : (t.arena.timeline here).metre = (s.arena.timeline here).metre) :
    s.Recovers here t := ⟨moves.rooted rooted, moves.frame.branchBase here, metre⟩

section Steps

theorem balances_aside (settles : s.Settles t) (same : t.arena = s.arena) : s.Balances here t :=
  ⟨settles, fun rooted => (Moves.silent same).recovers rooted (by rw [same])⟩

theorem carries_burn (offset : Nat) : Carries (Balances here) (burn offset) := fun s _ t done => by
  rw [burn_run] at done
  split at done
  · exact nomatch done
  · cases done
    exact balances_aside ⟨rfl, rfl, rfl, id⟩ rfl

theorem carries_definitions (step : Step Definitions α) :
    Carries (Balances here) (onDefinitions step) := fun s _ t done => by
  have known : (onDefinitions step).run s = _ := Step.within_run ..
  rw [known] at done
  split at done
  · cases done
    exact balances_aside ⟨rfl, rfl, rfl, id⟩ rfl
  · exact nomatch done

theorem carries_timeline {f : Timeline → Play α} (rest : ∀ t, Carries (Balances here) (f t)) :
    Carries (Balances here) (timeline here >>= f) := fun _ _ _ done => rest _ done

theorem balances_adjust {f : Timeline → Timeline} (tweak : Timeline.Tweak f)
    (metre : (f (s.arena.timeline here)).metre = (s.arena.timeline here).metre) :
    s.Balances here { s with arena := s.arena.adjust here f } where
  toSettles := ⟨rfl, rfl, rfl, id⟩
  recovers rooted := (Moves.own rooted.inside (tweak.onward _)).recovers rooted
    ((congrArg Timeline.metre (Arena.timeline_adjust_self here f _ rooted.inside)).trans metre)

theorem carries_adjust {f : Timeline → Timeline} (tweak : Timeline.Tweak f)
    (metre : ∀ t, (f t).metre = t.metre) : Carries (Balances here) (adjust here f) :=
  fun s _ _ done => by
    cases done
    exact balances_adjust tweak (metre _)

theorem carries_setting (setting : Setting) (offset : Nat) :
    Carries (Balances here) (applySetting here setting offset) := fun s _ t done => by
  obtain ⟨_, _, read, done⟩ := Step.bind_ok done
  cases read
  cases change : settingChange (s.arena.timeline here) setting.key setting.value with
  | error cause =>
    rw [change] at done
    exact nomatch done
  | ok f =>
    rw [change] at done
    cases done
    exact balances_adjust (settingChange_tweak change) (Timeline.metre_setting change)

theorem carries_rest : Carries (Balances here) (update here Timeline.rest) := fun s ticks t done => by
  have moves (rooted : s.Rooted here) := moves_rest rooted.inside done
  rw [update_ok] at done
  cases done
  refine ⟨⟨rfl, rfl, rfl, id⟩, fun rooted => (moves rooted).recovers rooted ?_⟩
  rw [Arena.timeline_adjust_self _ _ _ rooted.inside]
  exact Timeline.metre_rest _

theorem metre_of_emitted {plain : Nat} {arena arena' : Arena}
    (emitted : Arena.Emission.Emitted here plain arena arena') :
    (arena'.timeline here).metre = (arena.timeline here).metre :=
  emitted.inTune.metre.trans (Timeline.metre_calibrate ..)

theorem carries_tie (offset : Nat) : Carries (Balances here) (onArena (Arena.tie here offset)) :=
  fun s ticks t done => by
    obtain ⟨arena, ran, rfl⟩ := onArena_ok done
    refine ⟨⟨rfl, rfl, rfl, id⟩, fun rooted => ?_⟩
    obtain ⟨roots, forest⟩ := rooted.forest
    exact (moves_tie forest rooted.inside done).recovers rooted
      (metre_of_emitted (Arena.Emission.emitted_tie forest rooted.inside ran))

theorem carries_commit (offset : Nat) (pitches : List Nat) (arpeggio : Bool) :
    Carries (Balances here) (commit here offset pitches arpeggio) := fun s ticks t done => by
  have moves {roots} (forest : Forest roots s.arena) (rooted : s.Rooted here) :=
    moves_commit forest rooted.inside done
  obtain ⟨plain, arena, onsets, -, lays, rfl⟩ := commit_ok done
  refine ⟨⟨rfl, rfl, rfl, fun _ => rfl⟩, fun rooted => ?_⟩
  obtain ⟨roots, forest⟩ := rooted.forest
  refine (moves forest rooted).recovers rooted ?_
  cases lays with
  | note =>
    exact metre_of_emitted (Arena.Emission.emitted_commit rooted.inside (Arena.update_run ..))
  | arpeggio ran =>
    exact metre_of_emitted (Arena.Emission.emitted_arpeggio forest rooted.inside ran)

/-- What is put onto the stack for a while is taken off it again. -/
theorem carries_under {p : Play Nat} (modifier : Modifier) (inside : Carries (Balances here) p) :
    Carries (Balances here) (do
      pushModifier modifier
      let ticks ← p
      popModifier
      return ticks) := fun s ticks t done => by
  obtain ⟨_, _, pushed, done⟩ := Step.bind_ok done
  cases pushed
  obtain ⟨_, u, performed, done⟩ := Step.bind_ok done
  obtain ⟨_, _, popped, done⟩ := Step.bind_ok done
  cases popped
  cases done
  have under := inside performed
  refine ⟨⟨?_, under.measuring, under.fermata, under.graces⟩, fun rooted => ?_⟩
  · exact congrArg List.tail under.modifiers
  · have played := under.recovers ⟨rooted.forest, rooted.inside⟩
    exact ⟨⟨played.rooted.forest, played.rooted.inside⟩, played.branchBase, played.metre⟩

theorem carries_refer (references offset : Nat) {f : Nat → Play α}
    (rest : ∀ references, Carries (Balances here) (f references)) :
    Carries (Balances here) (refer references offset >>= f) := by
  unfold refer
  split
  · exact fun _ _ _ done => nomatch done
  · exact rest _

theorem measure_reads {inner : Performer} {references offset : Nat} {body : List Item}
    {bounds : Nat × Nat}
    (done : (measure inner here references offset body).run s = .ok bounds t) : t = s := by
  rw [measure_run] at done
  split at done
  · exact nomatch done
  · split at done
    · cases done
      rfl
    · exact nomatch done

end Steps

/-- However items are performed, performing one is balanced. -/
abbrev Performer.Balanced (inner : Performer) : Prop :=
  ∀ here references item, Carries (Balances here) (inner here references item)

section Constructs
variable {inner : Performer} (balanced : Performer.Balanced inner)
include balanced

theorem carries_all (references : Nat) (items : List Item) :
    Carries (Balances here) (performAll inner here references items) :=
  .foldlM (fun ticks item _ => (balanced here references item).bind fun more => .pure (ticks + more)) 0

theorem carries_octave (references : Nat) (octaves : Int) (body : List Item) :
    Carries (Balances here) (performOctave inner here references octaves body) := by
  have shift (octaves : Int) : Carries (Balances here) (shiftOctave here octaves) :=
    carries_adjust ⟨.state fun state => { state with octave := state.octave + octaves }, fun _ => rfl⟩
      fun _ => rfl
  exact (shift octaves).bind fun _ => (carries_all balanced references body).bind fun ticks =>
    (shift (-octaves)).bind fun _ => .pure ticks

theorem carries_sustain (references : Nat) (body : List Item) :
    Carries (Balances here) (performSustain inner here references body) := by
  have pedal (value : Nat) :
      Carries (Balances here) (adjust here (Timeline.setController sustainController value)) :=
    carries_adjust ⟨.controller .., fun _ => rfl⟩ fun _ => rfl
  exact (pedal 127).bind fun _ => (carries_all balanced references body).bind fun ticks =>
    (pedal 0).bind fun _ => .pure ticks

/-- A tuplet begins only where there is none, and there is none when it has ended. -/
theorem carries_tuplet (references offset size : Nat) (body : List Item) :
    Carries (Balances here) (performTuplet inner here references offset size body) := fun s ticks t done => by
  obtain ⟨unit, u, begun, done⟩ := Step.bind_ok done
  obtain ⟨_, v, performed, done⟩ := Step.bind_ok done
  obtain ⟨_, _, ended, done⟩ := Step.bind_ok done
  cases ended
  cases done
  have begins (rooted : s.Rooted here) := moves_gesture (.beginTuplet offset size) rooted.inside begun
  have free : (s.arena.timeline here).tuplet = none := by
    obtain ⟨arena, ran, -⟩ := onArena_ok begun
    rw [Arena.on_run, Timeline.beginTuplet_run] at ran
    by_cases within : (s.arena.timeline here).inTuplet
    · rw [if_pos within] at ran
      exact nomatch ran
    · exact Option.not_isSome_iff_eq_none.mp within
  obtain ⟨arena, -, rfl⟩ := onArena_ok begun
  have inside := carries_all balanced references body performed
  refine ⟨⟨inside.modifiers, inside.measuring, inside.fermata, inside.graces⟩, fun rooted => ?_⟩
  have played := inside.recovers ((begins rooted).rooted rooted)
  have ends : v.Moves here 0 { v with arena := v.arena.adjust here (Timeline.endTuplet unit) } :=
    .own played.rooted.inside (Timeline.Tweak.onward ⟨.endTuplet unit, fun _ => rfl⟩ _)
  refine ⟨ends.rooted played.rooted, ?_, ?_⟩
  · exact (ends.frame.branchBase here).trans
      (played.branchBase.trans ((begins rooted).frame.branchBase here))
  · rw [Arena.timeline_adjust_self _ _ _ played.rooted.inside, Timeline.metre, Timeline.metre, free]
    rfl

theorem carries_invokeWith (references : Nat) (name : String) (template : List Item) (item : Item) :
    Carries (Balances here) (invokeWith inner here references name template item) := by
  cases item with
  | key k =>
    refine (carries_burn k.offset).bind fun _ => Carries.bind (.read keyPitch_reads) fun base => ?_
    exact carries_timeline fun t =>
      carries_under (.substitute base t.state.octave) (carries_all balanced references template)
  | setting | rest => exact balanced here references _
  | _ => exact .failAt _ _

theorem carries_range (references offset : Nat) (kind : RangeKind) (body : List Item) :
    Carries (Balances here) (performRange inner here references offset kind body) := by
  cases kind with
  | octaveUp => exact carries_octave balanced references 1 body
  | octaveDown => exact carries_octave balanced references (-1) body
  | tuplet size => exact carries_tuplet balanced references offset size body
  | sustain => exact carries_sustain balanced references body
  | userRange name =>
    refine (carries_definitions _).bind fun template => carries_refer references offset fun references => ?_
    exact carries_all (fun here references => carries_invokeWith balanced references name template)
      references body

theorem carries_dynamics (references offset : Nat) (direction : Direction) (target : Nat)
    (body : List Item) :
    Carries (Balances here) (performDynamics inner here references offset direction target body) := by
  have finish (ticks : Nat) : Carries (Balances here) (do setVelocity here target; return ticks) :=
    (carries_adjust ⟨.state fun state => { state with velocity := target }, fun _ => rfl⟩
      fun _ => rfl).bind fun _ => .pure ticks
  refine carries_timeline fun t => .guarded (.get fun s => ?_)
  split
  · exact (carries_all balanced references body).bind finish
  · refine Carries.bind (.read (measure_reads)) fun bounds => ?_
    exact (carries_under _ (carries_all balanced references body)).bind finish

theorem carries_bend (references : Nat) (body : List Item) :
    Carries (Balances here) (performBend inner here references body) := by
  have bend (position : Nat) (value : Binary64) :
      Carries (Balances here) (adjust here (Timeline.addBend position value)) :=
    carries_adjust ⟨.bend .., fun _ => rfl⟩ fun _ => rfl
  have bends (list : List (Nat × Binary64)) : Carries (Balances here) (adjust here (addBends list)) := by
    refine carries_adjust ⟨.bends list, fun t => ?_⟩ (Timeline.metre_addBends list)
    induction list generalizing t with
    | nil => rfl
    | cons bend list ih => exact ih _
  refine carries_timeline fun start => Carries.bind (.foldlM (fun point item _ => ?_) _) fun final => ?_
  · split
    · refine carries_timeline fun t => (bends _).bind fun _ => (bend ..).bind fun _ => .pure _
    · exact (balanced here references _).bind fun more => .pure _
  · exact carries_timeline fun t => (bend ..).bind fun _ => .pure final.ticks

theorem carries_ornament (references offset : Nat) (kind : Ornament) (body : List Item) :
    Carries (Balances here) (performOrnament inner here references offset kind body) := by
  have all : Carries (Balances here) (performAll inner here references body) :=
    carries_all balanced references body
  cases kind with
  | staccato | sforzando | trill => exact carries_under _ all
  | fermata => exact .get fun s => carries_under _ all
  | crescendo target => exact carries_dynamics balanced references offset .crescendo target body
  | decrescendo target => exact carries_dynamics balanced references offset .decrescendo target body
  | pitchBend => exact carries_bend balanced references body

theorem carries_sound (references : Nat) (sound : Item) :
    Carries (Balances here) (performWith.performSound inner here references sound) := by
  have finish {p : Play Nat} (played : Carries (Balances here) p) :
      Carries (Balances here) (do let ticks ← p; requireNoGraces; return ticks) :=
    played.bind fun ticks =>
      Carries.bind (.read fun done => (requireNoGraces_ok done).2) fun _ => .pure ticks
  cases sound with
  | key k => exact finish (Carries.bind (.read keyPitch_reads) fun pitch => carries_commit ..)
  | chord c => exact finish (Carries.bind (.read chordPitches_reads) fun pitches => carries_commit ..)
  | ornament offset kind body => exact finish (carries_ornament balanced references offset kind body)
  | tie offset => exact finish (carries_tie offset)
  | _ => exact finish (balanced here references _)

/-- What branches change besides timelines, they change back. -/
theorem settles_parallel (references offset : Nat) (branches : List (List Item)) :
    Carries Settles (performParallel inner here references offset branches) := by
  have all (here : TimelineId) (items : List Item) :
      Carries Settles (performAll inner here references items) := fun _ _ _ done =>
    (carries_all balanced references items done).toSettles
  have onArena {β : Type} (step : Step Arena β) : Carries Settles (onArena step) := fun _ _ _ done => by
    obtain ⟨arena, -, rfl⟩ := onArena_ok done
    exact ⟨rfl, rfl, rfl, id⟩
  have adjust (f : Timeline → Timeline) : Carries Settles (adjust here f) := fun _ _ _ done => by
    cases done
    exact ⟨rfl, rfl, rfl, id⟩
  have branch (expected : Nat) (branch : TimelineId × List Item) :
      Carries Settles (performBranch inner references offset expected branch) := fun s _ t done => by
    obtain ⟨_, _, read, done⟩ := Step.bind_ok done
    cases read
    obtain ⟨ticks, u, performed, done⟩ := Step.bind_ok done
    obtain ⟨_, _, restored, done⟩ := Step.bind_ok done
    cases restored
    cases (Step.unless_ok done).2
    have inside := all branch.1 branch.2 performed
    exact ⟨inside.modifiers, inside.measuring, rfl, inside.graces⟩
  cases branches with
  | nil => exact .pure 0
  | cons first others =>
    exact (onArena _).bind fun base => (Carries.mapM fun i => onArena _).bind fun children =>
      (all here first).bind fun expected => (adjust _).bind fun _ =>
        (Carries.forM (branch expected)).bind fun _ => .pure expected

end Constructs

section Depths
variable {depth : Nat} (balanced : Performer.Balanced (perform depth))
include balanced

/-- Children copy the tuplet of their timeline, but what they play leaves the timeline itself alone. -/
theorem carries_parallel (references offset : Nat) (branches : List (List Item)) :
    Carries (Balances here) (performParallel (perform depth) here references offset branches) := by
  intro s ticks t done
  refine ⟨settles_parallel balanced references offset branches done, fun rooted => ?_⟩
  let γ : Fence := ⟨fun id => (s.arena.timeline id).branchBase, s.arena⟩
  have fenced : s.Fenced here γ := ⟨rooted.forest, rooted.inside, .refl .., fun _ => rfl⟩
  have follows : Step.Follows Eq (fencing here here γ) _ _ _ :=
    Ensemble.follows_parallel duet_fencing.toEnsemble (duet_fencing.follows_perform depth)
      references offset branches
  obtain ⟨_, -, -, rfl, after⟩ := follows.ok ⟨rfl, rfl, fenced⟩ done
  refine ⟨⟨after.forest, after.inside⟩, after.floors here, ?_⟩
  cases branches with
  | nil =>
    cases done
    rfl
  | cons branch branches =>
    obtain ⟨children, assembled, led, played⟩ := paralleled rooted.forest rooted.inside done
    obtain ⟨-, -, ready⟩ := claimBranches_ok fenced played.claimed
    have lead := (carries_all balanced references branch played.lead).recovers
      ⟨ready.presides.forest, ready.presides.inside⟩
    have waited : (assembled.arena.timeline here).metre = (s.arena.timeline here).metre :=
      Timeline.InTune.metre ⟨ready.own.state, ready.own.tuplet⟩
    rw [played.own]
    exact lead.metre.trans waited

theorem carries_graced (references offset : Nat) (items : List Item) (main : Item) :
    Carries (Balances here) (perform (depth + 1) here references (.graced offset items main)) := by
  intro s ticks t done
  obtain ⟨pitches, -, -, sounded⟩ := graced_ok done
  have inside := carries_sound balanced references main sounded
  refine ⟨⟨inside.modifiers, inside.measuring, inside.fermata, fun _ => none_after_sound sounded⟩,
    fun rooted => ?_⟩
  have played := inside.recovers ⟨rooted.forest, rooted.inside⟩
  exact ⟨played.rooted, played.branchBase, played.metre⟩

theorem balanced_deeper : Performer.Balanced (perform (depth + 1)) := by
  intro here references item
  have opens (offset : Nat) {p : Play Nat} (rest : Carries (Balances here) p) :
      Carries (Balances here) (opened here offset p) :=
    (carries_burn offset).bind fun _ => carries_timeline fun _ => .guarded rest
  have set (setting : Setting) (offset : Nat) :
      Carries (Balances here) (do applySetting here setting offset; return 0) :=
    (carries_setting setting offset).bind fun _ => .pure 0
  have sound (item : Item) :
      Carries (Balances here) (performWith.performSound (perform depth) here references item) :=
    carries_sound balanced references item
  cases item with
  | breakpoint offset => exact fun _ _ _ done => nomatch done
  | setting s => exact opens s.offset (set s s.offset)
  | range offset kind body => exact opens offset (carries_range balanced references offset kind body)
  | group offset id body =>
    exact opens offset ((carries_definitions _).bind fun _ => carries_all balanced references body)
  | groupRef offset id =>
    exact opens offset (carries_refer references offset fun references =>
      (carries_definitions _).bind fun body => carries_all balanced references body)
  | parallel offset branches => exact opens offset (carries_parallel balanced references offset branches)
  | emoji offset symbol => exact opens offset ((carries_definitions _).bind fun setting => set setting offset)
  | rest offset => exact opens offset carries_rest
  | graced offset items main => exact carries_graced balanced references offset items main
  | key k => exact opens _ (sound (.key k))
  | chord c => exact opens _ (sound (.chord c))
  | ornament offset kind body => exact opens _ (sound (.ornament offset kind body))
  | tie offset => exact opens _ (sound (.tie offset))

end Depths

theorem balanced_perform (depth : Nat) : Performer.Balanced (perform depth) := by
  induction depth with
  | zero =>
    intro here references item s ticks t done
    obtain ⟨u, failed⟩ := perform_zero here references item s
    exact nomatch failed.symm.trans done
  | succ depth balanced => exact balanced_deeper balanced

/-- What an item that has been performed leaves as it was. -/
structure Restores (here : TimelineId) (s t : Session) : Prop where
  modifiers : t.modifiers = s.modifiers
  measuring : t.measuring = s.measuring
  fermata : t.fermata = s.fermata
  slots : (t.arena.timeline here).branchBase = (s.arena.timeline here).branchBase
  tuplet : (t.arena.timeline here).tuplet.map (fun tuplet => (tuplet.divisor, tuplet.remainder)) =
    (s.arena.timeline here).tuplet.map fun tuplet => (tuplet.divisor, tuplet.remainder)
  unit : (s.arena.timeline here).inTuplet →
    (t.arena.timeline here).state.quantization = (s.arena.timeline here).state.quantization
  graces : s.graces = none → t.graces = none

theorem Balances.restores (balances : s.Balances here t) (rooted : s.Rooted here) :
    s.Restores here t := by
  have recovers := balances.recovers rooted
  have metre := recovers.metre
  refine ⟨balances.modifiers, balances.measuring, balances.fermata, recovers.branchBase, ?_,
    fun within => ?_, balances.graces⟩
  · have parts (t : Timeline) : t.tuplet.map (fun tuplet => (tuplet.divisor, tuplet.remainder)) =
        t.metre.map fun metre => (metre.1, metre.2.1) := by
      rw [Timeline.metre, Option.map_map]
      rfl
    rw [parts, parts, metre]
  · obtain ⟨tuplet, known⟩ := Option.isSome_iff_exists.mp within
    rw [Timeline.metre, Timeline.metre, known] at metre
    obtain ⟨tuplet', -, same⟩ := Option.map_eq_some_iff.mp metre
    exact congrArg (·.2.2) same

/-- Whichever session a run comes through, and whichever of its timelines one goes on with: what has
been performed there is over, with all that it put around other items. -/
theorem performance_restores {gas : Nat} {score : List Node} (visits : Visits gas score s)
    (inside : here < s.arena.timelines.size) {depth references ticks : Nat} {item : Item}
    (done : (perform depth here references item).run s = .ok ticks t) : s.Restores here t := by
  obtain ⟨m, live, tended⟩ := visits.tended
  exact (balanced_perform depth here references item done).restores ⟨⟨_, tended.sound.forest⟩, inside⟩

/-- A triplet with a crescendo over a passage and a key with a grace, and with a rest an octave up. -/
theorem performance_restores_triplet : ∃ (score : List Node) (s t : Session), Visits 40 score s ∧
    0 < s.arena.timelines.size ∧ (t.arena.timeline 0).position = 64 ∧
    t.arena.timelines.size = 2 ∧ s.Restores 0 t := by
  let key : Item := .key ⟨4, .pitchClass 0, 0, 0⟩
  let passage : Item := .parallel 3 [[.ornament 4 .staccato [key]], [.rest 5]]
  let crescendo : Item := .ornament 2 (.crescendo 100) [passage, .graced 6 [key] key]
  let item : Item := .range 1 (.tuplet 3) [crescendo, .range 7 .octaveUp [.rest 8]]
  let started : Session := { gas := ⟨40⟩, arena := ⟨#[{ channel := 1 }]⟩, channels := #[0] }
  have approached : (approach none false).run { gas := ⟨40⟩ } = .ok 0 started := rfl
  have reached : Reaches 40 [.item item] 41 ⟨0, 0, item, started⟩ :=
    Reaches.node (t := started) .refl approached
  have performed : (do
      let ticks ← perform 41 0 0 item
      let arena := (← get).arena
      return (ticks, (arena.timeline 0).position, arena.timelines.size) :
        Play (Nat × Nat × Nat)).run' started = some (64, 64, 2) := by decide +kernel
  obtain ⟨_, performed⟩ := Step.exists_of_run' performed
  obtain ⟨ticks, t, done, observed⟩ := Step.bind_ok performed
  obtain ⟨rfl, told⟩ := Prod.mk.inj (EStateM.Result.ok.inj observed).1
  obtain ⟨cursor, timelines⟩ := Prod.mk.inj told
  exact ⟨_, started, t, .before reached, Nat.zero_lt_one, cursor, timelines,
    performance_restores (.before reached) Nat.zero_lt_one done⟩

end Session
end TextScore
