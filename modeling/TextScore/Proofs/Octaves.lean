import TextScore.Proofs.ArenaSteps
import TextScore.Proofs.Twins

/-! Timelines that differ in their octaves only. Nothing but the pitch of a key depends on the octave of a
timeline, so whatever is done to both of them they still differ in their octaves only, and these stay
as far apart as they are. -/
namespace TextScore
open Step (Follows)

namespace Timeline
variable {α : Type} {f g : Timeline → Timeline} {t t' : Timeline}

/-- The timeline in another octave. -/
def inOctave (octave : Int) (t : Timeline) : Timeline :=
  { t with state := { t.state with octave := octave } }

/-- The same timeline, maybe in another octave. -/
def Doubles (t t' : Timeline) : Prop := t = t'.inOctave t.state.octave

/-- A change that neither reads nor moves the octave, nor the transposition. -/
structure Deaf (f : Timeline → Timeline) : Prop where
  octave : ∀ octave t, f (t.inOctave octave) = (f t).inOctave octave
  transpose : ∀ t, (f t).state.transpose = t.state.transpose

/-- The same for a change that answers. -/
structure DeafAnswer (f : Timeline → α × Timeline) : Prop where
  octave : ∀ octave t, f (t.inOctave octave) = ((f t).1, (f t).2.inOctave octave)
  transpose : ∀ t, (f t).2.state.transpose = t.state.transpose

theorem Doubles.refl (t : Timeline) : t.Doubles t := rfl

theorem Doubles.trans_of {t'' : Timeline} (first : t.Doubles t') (second : t.Doubles t'') :
    t'.Doubles t'' := by
  have same : t'.inOctave t.state.octave = t''.inOctave t.state.octave := first.symm.trans second
  exact (congrArg (inOctave t'.state.octave) same :)

theorem Deaf.same (deaf : Deaf f) (t : Timeline) : (f t).state.octave = t.state.octave := by
  have moved : f t = (f t).inOctave t.state.octave := deaf.octave t.state.octave t
  exact congrArg (·.state.octave) moved

theorem Deaf.doubles (deaf : Deaf f) (doubles : t.Doubles t') : (f t).Doubles (f t') := by
  rw [Doubles, deaf.same, ← deaf.octave]
  exact congrArg f doubles

theorem Deaf.comp (first : Deaf f) (second : Deaf g) : Deaf fun t => g (f t) :=
  ⟨fun octave t => (congrArg g (first.octave octave t)).trans (second.octave octave (f t)),
    fun t => (second.transpose (f t)).trans (first.transpose t)⟩

theorem Deaf.foldl {β : Type} {f : Timeline → β → Timeline} (deaf : ∀ b, Deaf fun t => f t b)
    (bs : List β) : Deaf fun t => bs.foldl f t := by
  induction bs with
  | nil => exact ⟨fun _ _ => rfl, fun _ => rfl⟩
  | cons b bs ih => exact (deaf b).comp ih

theorem DeafAnswer.change {f : Timeline → α × Timeline} (deaf : DeafAnswer f) :
    Deaf fun t => (f t).2 :=
  ⟨fun octave t => congrArg Prod.snd (deaf.octave octave t), deaf.transpose⟩

theorem DeafAnswer.answer {f : Timeline → α × Timeline} (deaf : DeafAnswer f)
    (doubles : t.Doubles t') : (f t).1 = (f t').1 := by
  have moved : f t = _ := (congrArg f doubles).trans (deaf.octave t.state.octave t')
  rw [moved]

section Changes

theorem deaf_trail (ticks : Nat) : Deaf (trail ticks) := ⟨fun _ _ => rfl, fun _ => rfl⟩

theorem deaf_pad (length : Nat) : Deaf (pad length) := by
  unfold pad
  split <;> exact ⟨fun _ _ => rfl, fun _ => rfl⟩

theorem deaf_calibrate (ticks : Nat) : DeafAnswer (calibrate ticks) := by
  refine ⟨fun octave t => ?_, fun t => ?_⟩
  · have tuplet : (t.inOctave octave).tuplet = t.tuplet := rfl
    unfold calibrate
    rw [tuplet]
    split <;> rfl
  · unfold calibrate
    split <;> rfl

theorem deaf_rest : DeafAnswer rest := by
  have calibrated (ticks : Nat) := deaf_calibrate ticks
  refine ⟨fun octave t => ?_, fun t => ?_⟩
  · have unit : (t.inOctave octave).state.quantization = t.state.quantization := rfl
    simp only [rest, restFor, unit, (calibrated _).octave]
    split
    · rfl
    · rw [(deaf_pad _).octave]
  · simp only [rest, restFor]
    split
    · rfl
    · rw [(deaf_pad _).transpose, (calibrated _).transpose]

theorem deaf_pushNote (offset : Nat) (arpeggio : Bool) (draft : Draft) :
    Deaf (pushNote offset arpeggio draft) := ⟨fun _ _ => rfl, fun _ => rfl⟩

theorem deaf_pushNotes (offset : Nat) (drafts : List Draft) : Deaf (pushNotes offset drafts) :=
  .foldl (fun draft => deaf_pushNote offset false draft) drafts

theorem deaf_commit (offset : Nat) (staged : Staged) : DeafAnswer (commit offset staged) := by
  have calibrated := deaf_calibrate staged.ticks
  refine ⟨fun octave t => ?_, fun t => ?_⟩
  · simp only [commit, calibrated.octave, (deaf_pushNotes ..).octave, (deaf_trail _).octave]
  · simp only [commit]
    rw [(deaf_trail _).transpose, (deaf_pushNotes ..).transpose, calibrated.transpose]

theorem deaf_lengthenNote (index ticks : Nat) : Deaf (lengthenNote index ticks) :=
  ⟨fun _ _ => rfl, fun _ => rfl⟩

theorem deaf_lengthenLast (ticks : Nat) : Deaf (lengthenLast ticks) := by
  refine ⟨fun octave t => ?_, fun t => ?_⟩
  · have last : (t.inOctave octave).last = t.last := rfl
    unfold lengthenLast
    rw [last]
    split <;> rfl
  · unfold lengthenLast
    split <;> rfl

theorem deaf_playVoice (offset held velocity rest delay pitch : Nat) :
    Deaf (Arena.playVoice offset held velocity rest delay pitch) :=
  ((deaf_pad delay).comp (deaf_pushNote ..)).comp (deaf_trail rest)

theorem deaf_reserve (count : Nat) : DeafAnswer (reserve count) := ⟨fun _ _ => rfl, fun _ => rfl⟩

theorem deaf_enterTuplet (unit size : Nat) : Deaf (enterTuplet unit size) :=
  ⟨fun _ _ => rfl, fun _ => rfl⟩

theorem deaf_push (id : TimelineId) (slot : Slot) : Deaf (slot.push id) := by
  cases slot <;> exact ⟨fun _ _ => rfl, fun _ => rfl⟩

theorem deaf_addBends (bends : List (Nat × Binary64)) : Deaf (Session.addBends bends) :=
  Deaf.foldl (f := fun t (bend : Nat × Binary64) => t.addBend bend.1 bend.2)
    (fun _ => ⟨fun _ _ => rfl, fun _ => rfl⟩) bends

end Changes
end Timeline

namespace Arena
open Timeline (Deaf DeafAnswer)
variable {gap : Int} {fixed : Option Int} {live : List TimelineId} {arena arena' : Arena}
  {here id : TimelineId} {α β : Type} {f f' : Timeline → Timeline}

/-- Playing states that are so many octaves apart, in a transposition that is relied on. -/
structure Apart (gap : Int) (fixed : Option Int) (t t' : Timeline) : Prop where
  octave : t.state.octave = t'.state.octave + gap
  transpose : ∀ n ∈ fixed, t.state.transpose = n

/-- Timelines that are no octaves apart are the same. -/
theorem Apart.same {t t' : Timeline} (apart : Apart gap fixed t t') (level : gap = 0)
    (doubles : t.Doubles t') : t = t' := by
  have octave : t.state.octave = t'.state.octave :=
    apart.octave.trans ((congrArg (t'.state.octave + ·) level).trans (Int.add_zero _))
  rw [doubles, octave]
  rfl

/-- Two arenas with the same timelines up to their octaves. Those of timelines in use are as far apart as
they should be. -/
structure Doubled (gap : Int) (fixed : Option Int) (live : List TimelineId) (arena arena' : Arena) :
    Prop where
  size : arena'.timelines.size = arena.timelines.size
  timeline : ∀ id, (arena.timeline id).Doubles (arena'.timeline id)
  apart : ∀ id ∈ live, Apart gap fixed (arena.timeline id) (arena'.timeline id)
  inside : ∀ id ∈ live, id < arena.timelines.size

namespace Doubled

theorem exists_octave (doubled : Doubled gap fixed live arena arena') (id : TimelineId) :
    ∃ octave, arena.timeline id = (arena'.timeline id).inOctave octave := ⟨_, doubled.timeline id⟩

/-- One timeline changes in both arenas. -/
theorem adjust (doubled : Doubled gap fixed live arena arena')
    (own : (f (arena.timeline id)).Doubles (f' (arena'.timeline id)))
    (apart : id ∈ live → Apart gap fixed (f (arena.timeline id)) (f' (arena'.timeline id))) :
    Doubled gap fixed live (arena.adjust id f) (arena'.adjust id f') := by
  refine ⟨by rw [size_adjust, size_adjust, doubled.size], fun other => ?_, fun other member => ?_,
    fun other member => (size_adjust ..).symm ▸ doubled.inside other member⟩
  · rw [timeline_adjust_or, timeline_adjust_or, doubled.size]
    split
    · exact own
    · exact doubled.timeline other
  · rw [timeline_adjust_or, timeline_adjust_or, doubled.size]
    split
    · next both => exact apart (both.1 ▸ member)
    · exact doubled.apart other member

theorem deaf (doubled : Doubled gap fixed live arena arena') (deaf : Deaf f) (id : TimelineId) :
    Doubled gap fixed live (arena.adjust id f) (arena'.adjust id f) :=
  doubled.adjust (deaf.doubles (doubled.timeline id)) fun member => by
    have apart := doubled.apart id member
    exact ⟨by rw [deaf.same, deaf.same, apart.octave],
      fun n relied => (deaf.transpose _).trans (apart.transpose n relied)⟩

theorem create (doubled : Doubled gap fixed live arena arena') (channel : Nat) :
    Doubled gap fixed live (arena.create channel).2 (arena'.create channel).2 := by
  have other {id : TimelineId} (member : id ∈ live) : id ≠ arena.timelines.size :=
    Nat.ne_of_lt (doubled.inside id member)
  refine ⟨by simp only [Arena.create, Array.size_push, doubled.size], fun id => ?_,
    fun id member => ?_, fun id member => inside_create (doubled.inside id member) channel⟩
  · rw [timeline_create, timeline_create, doubled.size]
    split
    · exact .refl _
    · exact doubled.timeline id
  · rw [timeline_create, timeline_create, doubled.size, if_neg (other member), if_neg (other member)]
    exact doubled.apart id member

theorem addChild (doubled : Doubled gap fixed live arena arena') (parent : TimelineId) (slot : Slot) :
    Doubled gap fixed live (arena.addChild parent slot) (arena'.addChild parent slot) := by
  have channel : (arena'.timeline parent).channel = (arena.timeline parent).channel :=
    (congrArg Timeline.channel (doubled.timeline parent)).symm
  unfold Arena.addChild
  rw [channel]
  dsimp only
  have named : (arena'.create (arena.timeline parent).channel).1 =
      (arena.create (arena.timeline parent).channel).1 := doubled.size
  rw [named]
  exact (doubled.create _).deaf (Timeline.deaf_push ..) parent

theorem repeatChild (doubled : Doubled gap fixed live arena arena') (parent : TimelineId) (slot : Slot)
    (count : Nat) : Doubled gap fixed live (Nat.repeat (Arena.addChild parent slot) count arena)
      (Nat.repeat (Arena.addChild parent slot) count arena') := by
  induction count with
  | zero => exact doubled
  | succ count ih => exact ih.addChild parent slot

theorem adjustAll (doubled : Doubled gap fixed live arena arena') (deaf : Deaf f)
    (ids : List TimelineId) :
    Doubled gap fixed live (arena.adjustAll ids f) (arena'.adjustAll ids f) := by
  induction ids generalizing arena arena' with
  | nil => exact doubled
  | cons id ids ih => exact ih (doubled.deaf deaf id)

theorem playVoices (doubled : Doubled gap fixed live arena arena')
    {play : (delay pitch : Nat) → Timeline → Timeline} (deaf : ∀ delay pitch, Deaf (play delay pitch))
    (interval delay : Nat) (voices : List (TimelineId × Nat)) :
    Doubled gap fixed live (Arena.playVoices play interval delay voices arena)
      (Arena.playVoices play interval delay voices arena') := by
  induction voices generalizing delay arena arena' with
  | nil => exact doubled
  | cons voice voices ih => exact ih (doubled.deaf (deaf delay voice.2) voice.1) _

/-- A child takes over the playing state of its parent. -/
theorem adopt (doubled : Doubled gap fixed live arena arena') {t t' : Timeline} (parents : t.Doubles t')
    (apart : Apart gap fixed t t') (child : TimelineId) :
    Doubled gap fixed live
      (arena.adjust child fun c => { c with state := t.state, tuplet := t.tuplet })
      (arena'.adjust child fun c => { c with state := t'.state, tuplet := t'.tuplet }) := by
  refine doubled.adjust ?_ fun _ => ⟨apart.octave, apart.transpose⟩
  have state : t.state = _ := congrArg Timeline.state parents
  have tuplet : t.tuplet = t'.tuplet := (congrArg Timeline.tuplet parents :)
  obtain ⟨octave, own⟩ := doubled.exists_octave child
  rw [Timeline.Doubles, own, tuplet]
  exact congrArg (fun state => { arena'.timeline child with state := state, tuplet := t'.tuplet }) state

end Doubled

def doubling (gap : Int) (fixed : Option Int) (live : List TimelineId) : Coupling Arena where
  both := Doubled gap fixed live
  alone _ _ := False

section Steps
variable {Q : β → Coupling Arena}

/-- A step that goes the same way on both arenas. -/
abbrev Resounds (gap : Int) (fixed : Option Int) (live : List TimelineId) (p : Step Arena α) : Prop :=
  Follows Eq (doubling gap fixed live) p p fun _ => doubling gap fixed live

theorem resounds_pure (a : α) : Resounds gap fixed live (pure a) :=
  Follows.pure (Q := fun _ => doubling gap fixed live) a

theorem resounds_failAt (offset : Nat) (cause : Cause) :
    Resounds gap fixed live (Step.failAt offset cause : Step Arena α) :=
  Follows.failAt offset cause rfl fun left => left.elim

theorem resounds_unless {c : Prop} [Decidable c] {offset : Nat} {cause : Cause}
    {f : PUnit → Step Arena α} (rest : Resounds gap fixed live (f ⟨⟩)) :
    Resounds gap fixed live (if c then Step.failAt offset cause >>= f else f ⟨⟩) := by
  split
  · exact (resounds_failAt offset cause).bind fun _ => rest
  · exact rest

theorem follows_modify {f f' : Arena → Arena} (kept : ∀ {arena arena'},
      Doubled gap fixed live arena arena' → Doubled gap fixed live (f arena) (f' arena')) :
    Follows Eq (doubling gap fixed live) (modify f) (modify f') fun _ => doubling gap fixed live :=
  ⟨fun _ _ doubled => ⟨rfl, kept doubled⟩, fun _ _ left => left.elim⟩

theorem resounds_adjust (deaf : Deaf f) (id : TimelineId) :
    Resounds gap fixed live (modify (adjust id f)) :=
  follows_modify fun doubled => doubled.deaf deaf id

theorem follows_read {f f' : Arena → Step Arena β}
    (rest : ∀ arena arena' : Arena, Doubled gap fixed live arena arena' →
      Follows Eq (doubling gap fixed live) (f arena) (f' arena') Q) :
    Follows Eq (doubling gap fixed live) (get >>= f) (get >>= f') Q :=
  ⟨fun arena arena' doubled => (rest arena arena' doubled).both arena arena' doubled,
    fun _ _ left => left.elim⟩

theorem resounds_update {f : Timeline → α × Timeline} (deaf : DeafAnswer f) :
    Resounds gap fixed live (update here f) := by
  refine ⟨fun arena arena' doubled => ?_, fun _ _ left => left.elim⟩
  rw [update_run, update_run, deaf.answer (doubled.timeline here)]
  exact ⟨rfl, doubled.deaf deaf.change here⟩

theorem list_inOctave (slot : Slot) (octave : Int) (t : Timeline) :
    slot.list (t.inOctave octave) = slot.list t := by
  cases slot <;> rfl

theorem resounds_childAt (member : here ∈ live) (offset : Nat) (slot : Slot) :
    Resounds gap fixed live (childAt here offset slot) := by
  refine follows_read fun arena arena' doubled => ?_
  obtain ⟨octave, own⟩ := doubled.exists_octave here
  rw [own, list_inOctave]
  refine (follows_modify fun doubled => doubled.repeatChild here slot _).bind fun _ => ?_
  refine follows_read fun arena arena' doubled => ?_
  have parents := doubled.timeline here
  have apart := doubled.apart here member
  generalize arena.timeline here = t at parents apart ⊢
  generalize arena'.timeline here = t' at parents apart ⊢
  have list : slot.list t = slot.list t' := by
    rw [parents, list_inOctave]
  have position : t.position = t'.position := (congrArg Timeline.position parents :)
  dsimp only
  rw [list, position]
  refine (follows_modify fun doubled => doubled.adopt parents apart _).bind fun _ => ?_
  refine follows_read fun arena arena' doubled => ?_
  have caught : (arena.timeline _).position = (arena'.timeline _).position :=
    (congrArg Timeline.position (doubled.timeline ((slot.list t')[slot.index]?.getD 0)) :)
  rw [caught]
  apply resounds_unless
  exact (resounds_adjust (Timeline.deaf_pad _) _).bind fun _ => resounds_pure _

theorem resounds_tie (here : TimelineId) (offset : Nat) :
    Resounds gap fixed live (tie here offset) := by
  refine follows_read fun arena arena' doubled => ?_
  obtain ⟨octave, own⟩ := doubled.exists_octave here
  rw [own]
  refine (resounds_update (Timeline.deaf_calibrate _)).bind fun extra => ?_
  refine follows_read fun arena arena' doubled => ?_
  obtain ⟨octave, own⟩ := doubled.exists_octave here
  rw [own]
  dsimp only [Timeline.inOctave]
  split
  · exact (resounds_failAt ..).bind fun _ => resounds_pure _
  · exact (resounds_adjust (Timeline.deaf_lengthenNote ..) here).bind fun _ => resounds_pure _
  · exact (resounds_adjust (Timeline.deaf_trail _) here).bind fun _ => resounds_pure _
  · refine (resounds_adjust (Timeline.deaf_trail _) here).bind fun _ => ?_
    exact (follows_modify fun doubled => doubled.adjustAll (Timeline.deaf_lengthenLast _) _).bind
      fun _ => resounds_pure _

theorem resounds_commitArpeggio (member : here ∈ live) (offset : Nat) (staged : Staged)
    (interval : Nat) : Resounds gap fixed live (commitArpeggio here offset staged interval) := by
  unfold commitArpeggio
  refine (resounds_update (Timeline.deaf_calibrate _)).bind fun extra => ?_
  refine (resounds_adjust (Timeline.deaf_pushNotes ..) here).bind fun _ => ?_
  split
  · exact (resounds_adjust (Timeline.deaf_trail _) here).bind fun _ => resounds_pure _
  · apply resounds_unless
    refine Follows.bind (Follows.mapM fun i _ => resounds_childAt member offset (.voice i))
      fun voices => ?_
    refine Follows.bind (resounds_adjust ?_ here) fun _ => ?_
    · exact ⟨fun _ _ => rfl, fun _ => rfl⟩
    · refine (follows_modify fun doubled => doubled.playVoices (fun delay pitch => ?_) ..).bind
        fun _ => resounds_pure _
      exact Timeline.deaf_playVoice _ _ _ _ delay pitch

theorem resounds_beginTuplet (offset size : Nat) :
    Resounds gap fixed live (on here (Timeline.beginTuplet offset size)) := by
  refine ⟨fun arena arena' doubled => ?_, fun _ _ left => left.elim⟩
  have own := doubled.timeline here
  have inside : (arena.timeline here).inTuplet = (arena'.timeline here).inTuplet :=
    (congrArg Timeline.inTuplet own :)
  have unit : (arena.timeline here).state.quantization = (arena'.timeline here).state.quantization :=
    (congrArg (·.state.quantization) own :)
  rw [on_run, on_run, Timeline.beginTuplet_run, Timeline.beginTuplet_run, inside, unit]
  by_cases nested : (arena'.timeline here).inTuplet
  · rw [if_pos nested, if_pos nested]
    exact rfl
  rw [if_neg nested, if_neg nested]
  by_cases short : Tuplet.quantization (2 * (arena'.timeline here).state.quantization) size = 0
  · rw [if_pos short, if_pos short]
    exact rfl
  rw [if_neg short, if_neg short]
  have entered (unit : Nat) (arena : Arena) :
      arena.adjust here (fun _ => (arena.timeline here).enterTuplet unit size) =
        arena.adjust here (Timeline.enterTuplet unit size) := adjust_congr rfl
  dsimp only
  rw [entered, entered]
  exact ⟨rfl, doubled.deaf (Timeline.deaf_enterTuplet ..) here⟩

end Steps
end Arena
end TextScore
