import TextScore.Proofs.ArenaSteps

/-! What a log tells of notes that have been played already. Most of what happens to an arena logs
nothing, and a tie changes no more of a note than how long it is held. -/
namespace TextScore

/-- A note but for how long it is held. -/
def Note.entry (n : Note) : Note := { n with duration := 0 }

namespace Timeline
variable {t t' : Timeline}

def entries (t : Timeline) : List Note := t.notes.map Note.entry

theorem entries_of_notes (same : t'.notes = t.notes) : t'.entries = t.entries :=
  congrArg (List.map Note.entry) same

theorem notes_push (event : Event) :
    Timeline.notes { t with events := t.events.push event } = t.notes ++ event.note?.toList := by
  rw [notes, notes, Array.toList_push, List.filterMap_append, List.filterMap_cons]
  cases event.note? <;> rfl

theorem Still.notes (still : t.Still t') : t'.notes = t.notes := by
  rw [Timeline.notes, still.events, Timeline.notes]

theorem notes_pad (length : Nat) : (t.pad length).notes = t.notes := by
  unfold pad
  split <;> rfl

theorem notes_rest : t.rest.2.notes = t.notes := by
  unfold rest restFor
  split
  · rfl
  · exact (notes_pad _).trans (calibrate_still _ t).notes

/-- Besides playing nothing is logged as a note. -/
theorem Change.notes {f : Timeline → Timeline} (change : Change f) : (f t).notes = t.notes := by
  cases change with
  | state | endTuplet | bend | release => rfl
  | instrument | controller => exact (notes_push _).trans (List.append_nil _)
  | bends bends => exact (addBends_still bends t).notes

theorem entries_lengthenNote (index ticks : Nat) : (t.lengthenNote index ticks).entries = t.entries := by
  have told (event : Event) :
      (event.lengthen ticks).note?.map Note.entry = event.note?.map Note.entry := by
    cases event <;> rfl
  have modified (events : List Event) (index : Nat) :
      (events.modify index (Event.lengthen ticks)).filterMap (Option.map Note.entry ∘ Event.note?) =
        events.filterMap (Option.map Note.entry ∘ Event.note?) := by
    induction events generalizing index with
    | nil => cases index <;> rfl
    | cons event events ih => cases index with
      | zero =>
        rw [List.modify_zero_cons, List.filterMap_cons, List.filterMap_cons, Function.comp_apply,
          Function.comp_apply, told]
      | succ index =>
        rw [List.modify_succ_cons, List.filterMap_cons, List.filterMap_cons, ih]
  simp only [entries, notes, List.map_filterMap]
  exact (congrArg _ Array.toList_modify).trans (modified ..)

theorem entries_lengthenLast (ticks : Nat) : (t.lengthenLast ticks).entries = t.entries := by
  unfold lengthenLast
  split
  · exact entries_lengthenNote ..
  · rfl

end Timeline

namespace Arena
variable {arena arena' arena'' : Arena} {here id : TimelineId} {f : Timeline → Timeline}

/-- No note is logged, and none changes. -/
def Silent (arena arena' : Arena) : Prop :=
  ∀ id, (arena'.timeline id).notes = (arena.timeline id).notes

/-- No note is logged, but some may be held for longer. -/
def Sustains (arena arena' : Arena) : Prop :=
  ∀ id, (arena'.timeline id).entries = (arena.timeline id).entries

theorem Silent.trans (first : arena.Silent arena') (second : arena'.Silent arena'') :
    arena.Silent arena'' := fun id => (second id).trans (first id)

theorem Silent.sustains (silent : arena.Silent arena') : arena.Sustains arena' :=
  fun id => Timeline.entries_of_notes (silent id)

theorem Sustains.trans (first : arena.Sustains arena') (second : arena'.Sustains arena'') :
    arena.Sustains arena'' := fun id => (second id).trans (first id)

theorem silent_adjust (id : TimelineId)
    (silent : (f (arena.timeline id)).notes = (arena.timeline id).notes) :
    arena.Silent (arena.adjust id f) := by
  intro other
  rw [timeline_adjust_or]
  split
  · next same => exact same.1 ▸ silent
  · rfl

theorem sustains_adjust (id : TimelineId)
    (sustains : (f (arena.timeline id)).entries = (arena.timeline id).entries) :
    arena.Sustains (arena.adjust id f) := by
  intro other
  rw [timeline_adjust_or]
  split
  · next same => exact same.1 ▸ sustains
  · rfl

theorem sustains_adjustAll (ids : List TimelineId) (sustains : ∀ t, (f t).entries = t.entries) :
    arena.Sustains (arena.adjustAll ids f) := by
  induction ids generalizing arena with
  | nil => exact fun _ => rfl
  | cons id ids ih => exact (sustains_adjust id (sustains _)).trans ih

theorem silent_addChild (inside : here < arena.timelines.size) (slot : Slot) :
    arena.Silent (arena.addChild here slot) := by
  intro other
  rw [timeline_addChild inside]
  split
  · next same =>
    subst same
    cases slot <;> rfl
  · split
    · next fresh =>
      rw [fresh, timeline_out (Nat.le_refl _)]
      rfl
    · rfl

theorem silent_withChild (inside : here < arena.timelines.size) (slot : Slot) :
    arena.Silent (arena.withChild here slot) :=
  withChild_rule inside slot (fun _ => rfl) fun inside silent => silent.trans (silent_addChild inside slot)

theorem silent_childAt (inside : here < arena.timelines.size) {offset : Nat} {slot : Slot}
    (done : (childAt here offset slot).run arena = .ok id arena') : arena.Silent arena' := by
  obtain ⟨-, -, rfl⟩ := childAt_ok done
  exact (silent_withChild inside slot).trans (silent_adjust id (Timeline.notes_pad _))

theorem sustains_tie (inside : here < arena.timelines.size) {offset ticks : Nat}
    (done : (tie here offset).run arena = .ok ticks arena') : arena.Sustains arena' := by
  obtain ⟨extra, tuned, calibrated, -, ties⟩ := tie_ok inside done
  have found : ((arena.timeline here).calibrate _).2 = tuned := congrArg Prod.snd calibrated
  have same : tuned.entries = (arena.timeline here).entries :=
    found ▸ Timeline.entries_of_notes (Timeline.calibrate_still ..).notes
  cases ties with
  | note => exact sustains_adjust here ((Timeline.entries_lengthenNote ..).trans same)
  | rest => exact sustains_adjust here same
  | arpeggio =>
    exact (sustains_adjust here same).trans
      (sustains_adjustAll _ fun _ => Timeline.entries_lengthenLast _)

end Arena
end TextScore
