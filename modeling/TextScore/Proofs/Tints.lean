import Mathlib.Data.List.Forall2
import TextScore.Proofs.Twins

/-! Notes under a view of velocities. A view shows some number for each velocity; what else a
timeline does can be told from what the view shows, since nothing depends on the velocities of notes
that have been logged or staged. -/
namespace TextScore
variable {v : Nat → Nat} {α : Type}

def Draft.tint (v : Nat → Nat) (draft : Draft) : Draft :=
  { draft with velocity := v draft.velocity }

def Staged.tint (v : Nat → Nat) (staged : Staged) : Staged :=
  { staged with notes := staged.notes.map (Draft.tint v) }

def Event.tint (v : Nat → Nat) : Event → Event
  | .note n => .note { n with velocity := v n.velocity }
  | event => event

/-- A timeline as the view shows it. -/
def Timeline.tint (v : Nat → Nat) (t : Timeline) : Timeline :=
  { t with events := t.events.map (Event.tint v) }

theorem Draft.sum_tint (drafts : List Draft) :
    Draft.sum Draft.duration (drafts.map (Draft.tint v)) = Draft.sum Draft.duration drafts := by
  induction drafts with
  | nil => rfl
  | cons draft drafts ih => exact congrArg (draft.duration + ·) ih

theorem Draft.onsets_tint (start : Nat) (drafts : List Draft) :
    Draft.onsets start (drafts.map (Draft.tint v)) = Draft.onsets start drafts := by
  induction drafts generalizing start with
  | nil => rfl
  | cons draft drafts ih => exact congrArg (start :: ·) (ih _)

theorem Staged.ticks_tint (staged : Staged) : (staged.tint v).ticks = staged.ticks :=
  congrArg (· + staged.rest) (Draft.sum_tint staged.notes)

theorem Event.lengthen_tint (ticks : Nat) (event : Event) :
    (event.lengthen ticks).tint v = (event.tint v).lengthen ticks := by
  cases event <;> rfl

namespace Timeline

/-- What the view shows of a timeline besides the timelines that belong to it. -/
def bare (v : Nat → Nat) (t : Timeline) : Timeline :=
  { t.tint v with children := #[], voices := #[] }

/-- Behind the view the change `f` looks like `g`, and it leaves the family of a timeline alone. -/
structure Renders (v : Nat → Nat) (f g : Timeline → Timeline) : Prop where
  bare : ∀ t, (f t).bare v = g (t.bare v)
  children : ∀ t, (f t).children = t.children
  voices : ∀ t, (f t).voices = t.voices

/-- The same for a change that also answers. -/
structure RendersAnswer (v : Nat → Nat) (f g : Timeline → α × Timeline) : Prop where
  shows : ∀ t, g (t.bare v) = ((f t).1, (f t).2.bare v)
  children : ∀ t, (f t).2.children = t.children
  voices : ∀ t, (f t).2.voices = t.voices

theorem RendersAnswer.renders {f g : Timeline → α × Timeline} (answers : RendersAnswer v f g) :
    Renders v (fun t => (f t).2) fun t => (g t).2 :=
  ⟨fun t => by rw [answers.shows], answers.children, answers.voices⟩

theorem Renders.comp {f f' g g' : Timeline → Timeline} (first : Renders v f g)
    (second : Renders v f' g') : Renders v (fun t => f' (f t)) fun t => g' (g t) where
  bare t := (second.bare _).trans (congrArg g' (first.bare t))
  children t := (second.children _).trans (first.children t)
  voices t := (second.voices _).trans (first.voices t)

theorem Renders.foldl {β : Type} {f g : Timeline → β → Timeline} (view : β → β)
    (renders : ∀ b, Renders v (fun t => f t b) fun t => g t (view b)) (bs : List β) :
    Renders v (fun t => bs.foldl f t) fun t => (bs.map view).foldl g t := by
  induction bs with
  | nil => exact ⟨fun _ => rfl, fun _ => rfl, fun _ => rfl⟩
  | cons b bs ih => exact (renders b).comp ih

/-- A change that neither reads nor logs notes. -/
theorem Renders.of_still {f : Timeline → Timeline} (bare : ∀ t, (f t).bare v = f (t.bare v))
    (children : ∀ t, (f t).children = t.children := by exact fun _ => rfl)
    (voices : ∀ t, (f t).voices = t.voices := by exact fun _ => rfl) : Renders v f f :=
  ⟨bare, children, voices⟩

theorem bare_push (event : Event) (t : Timeline) :
    { t with events := t.events.push event }.bare v =
      { t.bare v with events := (t.bare v).events.push (event.tint v) } := by
  simp only [bare, tint, Array.map_push]

theorem renders_change {f : Timeline → Timeline} (change : Change f) : Renders v f f := by
  cases change with
  | state | endTuplet | bend | release => exact .of_still fun _ => rfl
  | instrument program bank => exact .of_still (bare_push (.program program bank))
  | controller controller value => exact .of_still (bare_push (.controller controller value))
  | bends bends =>
    let each (t : Timeline) (bend : Nat × Binary64) : Timeline := t.addBend bend.1 bend.2
    have one (bend : Nat × Binary64) : Renders v (each · bend) (each · bend) :=
      .of_still fun _ => rfl
    have all := Renders.foldl id one bends
    rwa [List.map_id] at all

theorem renders_trail (ticks : Nat) : Renders v (trail ticks) (trail ticks) :=
  .of_still fun _ => rfl

theorem renders_pad (length : Nat) : Renders v (pad length) (pad length) := by
  unfold pad
  split
  · exact .of_still fun _ => rfl
  · exact .of_still fun _ => rfl

theorem renders_reserve (count : Nat) : RendersAnswer v (reserve count) (reserve count) :=
  ⟨fun _ => rfl, fun _ => rfl, fun _ => rfl⟩

theorem renders_calibrate (ticks : Nat) : RendersAnswer v (calibrate ticks) (calibrate ticks) := by
  refine ⟨fun t => ?_, fun t => ?_, fun t => ?_⟩
  · unfold calibrate
    have same : (t.bare v).tuplet = t.tuplet := rfl
    rw [same]
    split <;> rfl
  all_goals
    unfold calibrate
    split <;> rfl

theorem renders_rest : RendersAnswer v rest rest := by
  have calibrated (ticks : Nat) := renders_calibrate (v := v) ticks
  refine ⟨fun t => ?_, fun t => ?_, fun t => ?_⟩
  · have same : (t.bare v).state = t.state := rfl
    simp only [rest, restFor, same, (calibrated _).shows]
    split
    · rfl
    · rw [← (renders_pad _).bare]
  · simp only [rest, restFor]
    split
    · rfl
    · rw [(renders_pad (v := v) _).children, (calibrated _).children]
  · simp only [rest, restFor]
    split
    · rfl
    · rw [(renders_pad (v := v) _).voices, (calibrated _).voices]

theorem renders_pushNote (offset : Nat) (arpeggio : Bool) (draft : Draft) :
    Renders v (pushNote offset arpeggio draft) (pushNote offset arpeggio (draft.tint v)) where
  bare t := by
    simp only [bare, tint, pushNote, Array.map_push, Array.size_map]
    rfl
  children _ := rfl
  voices _ := rfl

theorem renders_pushNotes (offset : Nat) (drafts : List Draft) :
    Renders v (pushNotes offset drafts) (pushNotes offset (drafts.map (Draft.tint v))) :=
  Renders.foldl (Draft.tint v) (fun draft => renders_pushNote offset false draft) drafts

theorem extend_tint (extra : Nat) (staged : Staged) :
    extend extra (staged.tint v) = (extend extra staged).tint v := by
  unfold extend
  split
  · rfl
  · simp only [Staged.tint, List.getLast?_map]
    cases staged.rest with
    | zero => cases staged.notes.getLast? with
      | none => rfl
      | some draft =>
        simp only [Option.map_some, List.map_dropLast, List.map_append, List.map_cons,
          List.map_nil]
        rfl
    | succ rest => rfl

theorem filter_tint {p : Draft → Bool} (blind : ∀ d : Draft, p (d.tint v) = p d)
    (drafts : List Draft) :
    (drafts.map (Draft.tint v)).filter p = (drafts.filter p).map (Draft.tint v) := by
  rw [List.filter_map]
  exact congrArg (List.map _) (List.filter_congr fun d _ => blind d)

theorem renders_commit (offset : Nat) (staged : Staged) :
    RendersAnswer v (commit offset staged) (commit offset (staged.tint v)) := by
  have calibrated := renders_calibrate (v := v) staged.ticks
  have sounding (drafts : List Draft) :=
    filter_tint (v := v) (p := fun d => decide (0 < d.duration)) (fun _ => rfl) drafts
  refine ⟨fun t => ?_, fun t => ?_, fun t => ?_⟩
  · simp only [commit, Staged.ticks_tint, calibrated.shows, extend_tint]
    simp only [Staged.tint, sounding, Draft.sum_tint]
    rw [← (renders_pushNotes _ _).bare, ← (renders_trail _).bare]
  · exact (renders_pushNotes (v := v) _ _).children _ |>.trans (calibrated.children t)
  · exact (renders_pushNotes (v := v) _ _).voices _ |>.trans (calibrated.voices t)

theorem renders_lengthenNote (index ticks : Nat) :
    Renders v (lengthenNote index ticks) (lengthenNote index ticks) := by
  refine .of_still fun t => ?_
  have same : (t.events.modify index (·.lengthen ticks)).map (Event.tint v) =
      (t.events.map (Event.tint v)).modify index (·.lengthen ticks) := by
    refine Array.ext (by simp only [Array.size_map, Array.size_modify]) fun i _ _ => ?_
    simp only [Array.getElem_map, Array.getElem_modify]
    split
    · exact Event.lengthen_tint ..
    · rfl
  simp only [bare, tint, lengthenNote, same]

theorem renders_lengthenLast (ticks : Nat) :
    Renders v (lengthenLast ticks) (lengthenLast ticks) := by
  refine .of_still (fun t => ?_) (fun t => ?_) fun t => ?_
  · have same : (t.bare v).last = t.last := rfl
    unfold lengthenLast
    rw [same]
    split
    · exact (renders_lengthenNote ..).bare t
    · rfl
  all_goals
    unfold lengthenLast
    split <;> rfl

theorem renders_playVoice (offset held velocity rest delay pitch : Nat) :
    Renders v (Arena.playVoice offset held velocity rest delay pitch)
      (Arena.playVoice offset held (v velocity) rest delay pitch) :=
  ((renders_pad delay).comp (renders_pushNote ..)).comp (renders_trail rest)

theorem renders_follow (parent : Timeline) :
    Renders v parent.follow (Timeline.follow (parent.bare v)) where
  bare _ := (renders_pad _).bare _
  children _ := (renders_pad (v := v) _).children _
  voices _ := (renders_pad (v := v) _).voices _

end Timeline
namespace Modifier

theorem clip_tint (drafts : List Draft) : clip (drafts.map (Draft.tint v)) =
    (clip drafts).map fun clipped => (clipped.1.map (Draft.tint v), clipped.2) := by
  induction drafts with
  | nil => rfl
  | cons draft drafts ih =>
    simp only [List.map_cons, clip, ih]
    cases clip drafts with
    | some clipped => rfl
    | none =>
      have same : (draft.tint v).grace = draft.grace := rfl
      simp only [Option.map_none, same]
      split <;> rfl

theorem strokes_tint (draft : Draft) :
    strokes (draft.tint v) = (strokes draft).map (Draft.tint v) := by
  unfold strokes
  have same : (draft.tint v).grace = draft.grace := rfl
  rw [same]
  split
  · rfl
  · rw [List.map_map]
    rfl

theorem zipWith_shade (f : Nat → Nat) (drafts : List Draft) (ticks : List Nat) :
    (List.zipWith (fun d tick => { d with velocity := f tick }) drafts ticks).map (Draft.tint v) =
      List.zipWith (fun d tick => { d with velocity := v (f tick) }) (drafts.map (Draft.tint v))
        ticks := by
  rw [List.map_zipWith, List.zipWith_map_left]
  rfl

/-- What an ornament does can be told from what the view shows. -/
theorem exists_apply_tint (onset : Nat) (m : Modifier) :
    ∃ g : Staged → Staged, ∀ staged, (apply onset staged m).tint v = g (staged.tint v) := by
  cases m with
  | fermata factor =>
    refine ⟨(apply onset · (.fermata factor)), fun staged => ?_⟩
    simp only [apply, Staged.tint, List.map_map]
    refine congrArg (Staged.mk · staged.rest) (List.map_congr_left fun d _ => ?_)
    have grace : (d.tint v).grace = d.grace := rfl
    simp only [Function.comp, grace]
    split <;> rfl
  | staccato =>
    refine ⟨(apply onset · .staccato), fun staged => ?_⟩
    simp only [apply, Staged.tint, clip_tint]
    cases clip staged.notes <;> rfl
  | sforzando =>
    refine ⟨fun staged => ⟨staged.notes.map fun d => { d with velocity := v sforzandoVelocity },
      staged.rest⟩, fun staged => ?_⟩
    simp only [apply, Staged.tint, List.map_map]
    rfl
  | trill =>
    refine ⟨(apply onset · .trill), fun staged => ?_⟩
    have left : Draft.sum leftover (staged.notes.map (Draft.tint v)) =
        Draft.sum leftover staged.notes := by
      induction staged.notes with
      | nil => rfl
      | cons draft drafts ih => exact congrArg (leftover draft + ·) ih
    simp only [apply, Staged.tint, left, List.map_flatMap, List.flatMap_map, strokes_tint]
  | dynamics ramp =>
    refine ⟨fun staged => ⟨List.zipWith
      (fun d tick => { d with velocity := v (ramp.velocity tick) }) staged.notes
      (Draft.onsets onset staged.notes), staged.rest⟩, fun staged => ?_⟩
    simp only [apply, Staged.tint, zipWith_shade, Draft.onsets_tint]
  | substitute base octave => exact ⟨id, fun _ => rfl⟩

/-- Where all velocities look the same dynamics do not show. -/
theorem dynamics_tint (flat : ∀ m n, v m = v n) (onset : Nat) (staged : Staged) (ramp : Ramp) :
    (apply onset staged (.dynamics ramp)).tint v = staged.tint v := by
  have shaded (drafts : List Draft) (ticks : List Nat) (enough : ticks.length = drafts.length) :
      List.zipWith (fun d tick => { d with velocity := v (ramp.velocity tick) })
        (drafts.map (Draft.tint v)) ticks = drafts.map (Draft.tint v) := by
    induction drafts generalizing ticks with
    | nil => rfl
    | cons draft drafts ih => cases ticks with
      | nil => exact nomatch enough
      | cons tick ticks =>
        rw [List.map_cons, List.zipWith_cons_cons, ih ticks (Nat.succ.inj enough),
          flat (ramp.velocity tick) draft.velocity]
        rfl
  simp only [apply, Staged.tint, zipWith_shade]
  rw [shaded _ _ (Draft.length_onsets ..)]

/-- Ornaments that do the same as far as the view shows. -/
structure Alike (v : Nat → Nat) (stack stack' : List Modifier) : Prop where
  staged : ∀ {onset : Nat} {staged staged' : Staged}, staged.tint v = staged'.tint v →
    (applyAll stack onset staged).tint v = (applyAll stack' onset staged').tint v
  clipped : stack.contains staccato = stack'.contains staccato
  substitution : substitution? stack = substitution? stack'

variable {stack stack' : List Modifier}

theorem Alike.interval (alike : Alike v stack stack') :
    arpeggioInterval stack = arpeggioInterval stack' := by
  rw [arpeggioInterval, alike.clipped, arpeggioInterval]

theorem Alike.cons (m : Modifier) (alike : Alike v stack stack') :
    Alike v (m :: stack) (m :: stack') where
  staged {onset staged staged'} same := by
    obtain ⟨g, shows⟩ := exists_apply_tint (v := v) onset m
    exact alike.staged (by rw [shows, shows, same])
  clipped := by rw [List.contains_cons, List.contains_cons, alike.clipped]
  substitution := by
    have rest : stack.findSome? _ = stack'.findSome? _ := alike.substitution
    rw [substitution?, List.findSome?_cons, substitution?, List.findSome?_cons, rest]

theorem Alike.refl (v : Nat → Nat) (stack : List Modifier) : Alike v stack stack := by
  induction stack with
  | nil => exact ⟨id, rfl, rfl⟩
  | cons m stack ih => exact ih.cons m

/-- Dynamics on one side only. -/
theorem Alike.shaded (flat : ∀ m n, v m = v n) (ramp : Ramp) (alike : Alike v stack stack') :
    Alike v (.dynamics ramp :: stack) stack' where
  staged same := alike.staged ((dynamics_tint flat ..).trans same)
  clipped := alike.clipped
  substitution := alike.substitution

end Modifier
end TextScore
