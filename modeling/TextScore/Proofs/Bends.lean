import TextScore.Proofs.Recitals
import TextScore.Proofs.Ties

/-! The bends of a timeline are only ever added to. Whatever is performed, those that were recorded
before stay as they are, in the order in which they were recorded. -/
namespace TextScore

namespace Timeline
variable {t t' t'' : Timeline}

/-- More may have been recorded of the pitch-bend curve. -/
def Accrues (t t' : Timeline) : Prop := t.bends.toList <+: t'.bends.toList

/-- Records bends as they are. -/
def record (bends : List (Nat × Binary64)) (t : Timeline) : Timeline :=
  { t with bends := t.bends ++ bends.toArray }

theorem record_record (bends more : List (Nat × Binary64)) (t : Timeline) :
    (t.record bends).record more = t.record (bends ++ more) := by
  simp only [record, Array.append_assoc, List.append_toArray]

theorem addBend_eq (position : Nat) (value : Binary64) (t : Timeline) :
    t.addBend position value = t.record [(position, value.clampUnit)] := by
  rw [addBend, record, Array.push_eq_append]

theorem addBends_eq (bends : List (Nat × Binary64)) (t : Timeline) :
    Session.addBends bends t = t.record (bends.map fun bend => (bend.1, bend.2.clampUnit)) := by
  induction bends generalizing t with
  | nil => exact congrArg (fun bends => { t with bends := bends }) Array.append_empty.symm
  | cons bend bends ih =>
    have rest := ih (t.addBend bend.1 bend.2)
    rw [addBend_eq, record_record] at rest
    exact rest

theorem bends_record (bends : List (Nat × Binary64)) (t : Timeline) :
    (t.record bends).bends.toList = t.bends.toList ++ bends := Array.toList_append

namespace Accrues

theorem of_same (same : t'.bends = t.bends) : t.Accrues t' :=
  ⟨[], by rw [same, List.append_nil]⟩

theorem trans (first : t.Accrues t') (second : t'.Accrues t'') : t.Accrues t'' :=
  List.IsPrefix.trans first second

theorem record (bends : List (Nat × Binary64)) (t : Timeline) : t.Accrues (t.record bends) :=
  ⟨bends, (bends_record bends t).symm⟩

theorem calibrate (ticks : Nat) (t : Timeline) : t.Accrues (t.calibrate ticks).2 := by
  rw [calibrate_eq]
  exact of_same rfl

theorem pad (length : Nat) (t : Timeline) : t.Accrues (t.pad length) := by
  unfold Timeline.pad
  split <;> exact of_same rfl

theorem follow (parent child : Timeline) : child.Accrues (parent.follow child) := by
  have same : child.Accrues { child with state := parent.state, tuplet := parent.tuplet } :=
    of_same rfl
  exact same.trans (pad _ _)

theorem rest (t : Timeline) : t.Accrues t.rest.2 := by
  unfold Timeline.rest restFor
  split
  · exact of_same rfl
  · exact (calibrate _ t).trans (pad _ _)

theorem pushNotes (offset : Nat) (drafts : List Draft) (t : Timeline) :
    t.Accrues (t.pushNotes offset drafts) := by
  induction drafts generalizing t with
  | nil => exact of_same rfl
  | cons draft drafts ih =>
    have first : t.Accrues (t.pushNote offset false draft) := of_same rfl
    exact first.trans (ih _)

theorem commit (offset : Nat) (staged : Staged) (t : Timeline) :
    t.Accrues (t.commit offset staged).2 :=
  (calibrate _ t).trans (pushNotes ..)

theorem lengthenLast (ticks : Nat) (t : Timeline) : t.Accrues (t.lengthenLast ticks) := by
  unfold Timeline.lengthenLast
  split <;> exact of_same rfl

theorem playVoice (offset held velocity rest delay pitch : Nat) (t : Timeline) :
    t.Accrues (Arena.playVoice offset held velocity rest delay pitch t) := pad delay t

/-- Whatever is performed on a timeline alone. -/
theorem played (played : t.Played t') : t.Accrues t' := by
  cases played with
  | change change =>
    cases change with
    | bend =>
      rw [addBend_eq]
      exact record _ t
    | bends bends =>
      rw [addBends_eq]
      exact record _ t
    | _ => exact of_same rfl
  | beginTuplet done =>
    simp only [Timeline.beginTuplet, EStateM.run_bind, EStateM.run_get] at done
    obtain ⟨-, done⟩ := Step.unless_ok done
    obtain ⟨-, done⟩ := Step.unless_ok done
    cases done
    exact of_same rfl
  | reserve => exact of_same rfl
  | rest => exact rest t
  | note offset staged => exact commit offset staged t

end Accrues

end Timeline

namespace Arena
variable {arena arena' arena'' : Arena} {here id : TimelineId} {offset ticks : Nat}

/-- More may have been recorded of the curve of each timeline. -/
def Accrues (arena arena' : Arena) : Prop := ∀ id, (arena.timeline id).Accrues (arena'.timeline id)

namespace Accrues

theorem refl (arena : Arena) : arena.Accrues arena := fun _ => .of_same rfl

theorem trans (first : arena.Accrues arena') (second : arena'.Accrues arena'') :
    arena.Accrues arena'' := fun id => (first id).trans (second id)

theorem adjust (id : TimelineId) {f : Timeline → Timeline}
    (accrues : (arena.timeline id).Accrues (f (arena.timeline id))) :
    arena.Accrues (arena.adjust id f) := by
  intro other
  rw [timeline_adjust_or]
  split
  · next same => exact same.1 ▸ accrues
  · exact .of_same rfl

theorem become (id : TimelineId) {t : Timeline} (accrues : (arena.timeline id).Accrues t) :
    arena.Accrues (arena.adjust id fun _ => t) := adjust id accrues

theorem adjustAll (ids : List TimelineId) {f : Timeline → Timeline}
    (accrues : ∀ t : Timeline, t.Accrues (f t)) : arena.Accrues (arena.adjustAll ids f) := by
  induction ids generalizing arena with
  | nil => exact refl arena
  | cons id ids ih => exact (adjust id (accrues _)).trans ih

theorem addChild (inside : here < arena.timelines.size) (slot : Slot) :
    arena.Accrues (arena.addChild here slot) := by
  intro other
  rw [timeline_addChild inside]
  split
  · next same =>
    subst same
    cases slot <;> exact .of_same rfl
  · split
    · next fresh =>
      rw [fresh, timeline_out (Nat.le_refl _)]
      exact .of_same rfl
    · exact .of_same rfl

theorem childAt (inside : here < arena.timelines.size) {slot : Slot}
    (done : (Arena.childAt here offset slot).run arena = .ok id arena') : arena.Accrues arena' := by
  obtain ⟨-, -, rfl⟩ := childAt_ok done
  have claimed : arena.Accrues (arena.withChild here slot) :=
    withChild_rule inside slot (refl arena) fun inside accrues => accrues.trans (addChild inside slot)
  exact claimed.trans (adjust id (.follow ..))

theorem inside_withChild (inside : here < arena.timelines.size) (slot : Slot) :
    here < (arena.withChild here slot).timelines.size :=
  Nat.lt_of_lt_of_le inside (size_list_repeat inside slot _).1

theorem claimVoices (inside : here < arena.timelines.size) {count : Nat} {voices : List TimelineId}
    (done : (Arena.claimVoices here offset count).run arena = .ok voices arena') :
    arena.Accrues arena' := by
  have claimed := claimVoices_rule
    (motive := fun middle _ => here < middle.timelines.size ∧ arena.Accrues middle)
    ⟨inside, refl arena⟩ (fun ⟨inside, accrues⟩ one => ?_) done
  · exact claimed.2
  · have along := accrues.trans (childAt inside one)
    obtain ⟨-, -, rfl⟩ := childAt_ok one
    exact ⟨(size_adjust ..).symm ▸ inside_withChild inside _, along⟩

theorem playVoices {held velocity rest interval delay : Nat} (pairs : List (TimelineId × Nat)) :
    arena.Accrues
      (Arena.playVoices (Arena.playVoice offset held velocity rest) interval delay pairs arena) := by
  induction pairs generalizing arena delay with
  | nil => exact refl arena
  | cons pair pairs ih => exact (adjust pair.1 (.playVoice ..)).trans ih

theorem tie (inside : here < arena.timelines.size)
    (done : (Arena.tie here offset).run arena = .ok ticks arena') : arena.Accrues arena' := by
  obtain ⟨extra, tuned, calibrated, -, ties⟩ := tie_ok inside done
  have found : ((arena.timeline here).calibrate _).2 = tuned := congrArg Prod.snd calibrated
  have same : (arena.timeline here).Accrues tuned := found ▸ .calibrate ..
  cases ties with
  | note => exact become here same
  | rest => exact become here same
  | arpeggio =>
    have silent : (arena.timeline here).Accrues (tuned.trail ticks) := same
    exact (become here silent).trans (adjustAll _ (.lengthenLast ticks))

theorem commitArpeggio (inside : here < arena.timelines.size) {interval : Nat} {staged : Staged}
    (done : (Arena.commitArpeggio here offset staged interval).run arena = .ok ticks arena') :
    arena.Accrues arena' := by
  obtain ⟨extra, tuned, calibrated, -, arpeggiates⟩ := commitArpeggio_ok done
  have found : ((arena.timeline here).calibrate _).2 = tuned := congrArg Prod.snd calibrated
  have same : (arena.timeline here).Accrues tuned := found ▸ .calibrate ..
  cases arpeggiates with
  | graces => exact become here (same.trans (.pushNotes ..))
  | @chord graces _ _ _ _ _ _ _ _ _ claimed =>
    have graced := become here (same.trans (.pushNotes offset graces tuned))
    have voiced := graced.trans (claimVoices ((size_adjust ..).symm ▸ inside) claimed)
    exact (voiced.trans (adjust here (.of_same rfl))).trans (playVoices _)

theorem played (inside : here < arena.timelines.size) (played : arena.Played here arena') :
    arena.Accrues arena' := by
  cases played with
  | silent => exact refl arena
  | timeline played => exact adjust here (.played played)
  | tie done => exact tie inside done
  | arpeggio _ done => exact commitArpeggio inside done

end Accrues

end Arena

namespace Session
open Arena (Forest)
variable {live : List TimelineId} {here : TimelineId} {s t : Session}

theorem Ready.played (ready : Ready live s) (member : here ∈ live)
    (played : s.arena.Played here t.arena) : Ready live t := by
  obtain ⟨roots, forest⟩ := ready.forest
  have inside := ready.inside here member
  obtain ⟨forest, size⟩ : Forest roots t.arena ∧ s.arena.timelines.size ≤ t.arena.timelines.size := by
    generalize t.arena = arena at played
    cases played with
    | silent => exact ⟨forest, Nat.le_refl _⟩
    | timeline played =>
      have family := played.strides.family
      exact ⟨forest.adjust family.1 family.2, Nat.le_of_eq (Arena.size_adjust ..).symm⟩
    | tie done => exact ⟨forest.tie inside done, (Arena.Frame.tie_step forest inside done).size⟩
    | arpeggio _ done =>
      exact ⟨forest.commitArpeggio inside done, (Arena.Frame.arpeggio_step forest inside done).size⟩
  exact ⟨⟨roots, forest⟩, fun id listed => Nat.lt_of_lt_of_le (ready.inside id listed) size⟩

theorem upkeep_accrues (before : Arena) :
    Upkeep fun _ live s => Ready live s ∧ before.Accrues s.arena where
  shrink within h := ⟨h.1.fewer within, h.2⟩
  primitive member primitive h done :=
    have played := (primitive.played done).arena
    ⟨h.1.played member played, h.2.trans (.played (h.1.inside _ member) played)⟩
  branch member h done := by
    obtain ⟨arena, claimed, rfl⟩ := onArena_ok done
    obtain ⟨roots, forest⟩ := h.1.forest
    have inside := h.1.inside _ member
    obtain ⟨forest, -, present, size, -⟩ := Arena.claimed_branch forest inside claimed
    refine ⟨⟨⟨roots, forest⟩, List.forall_mem_cons.mpr ⟨present, fun id listed => ?_⟩⟩,
      h.2.trans (.childAt inside claimed)⟩
    exact Nat.lt_of_lt_of_le (h.1.inside id listed) size
  copy h := ⟨⟨h.1.forest, h.1.inside⟩, h.2⟩

/-- Whatever an item of any shape does, bends that had been recorded stay. -/
theorem bends_performed (ready : Ready live s) (member : here ∈ live)
    {depth references ticks : Nat} {item : Item}
    (done : (perform depth here references item).run s = .ok ticks t) :
    Ready live t ∧ s.arena.Accrues t.arena :=
  (upkeep_accrues s.arena).perform (m := false) member ⟨ready, .refl _⟩ done

end Session
end TextScore
