import Mathlib.Logic.Relation
import TextScore.Proofs.Effects

/-! The log of a timeline. Whatever is played changes a timeline in small strides, and each stride
keeps the notes chained: every note starts where the one before it stopped, its own wait later. -/
namespace TextScore

namespace Note

def stop (n : Note) : Nat := n.start + n.duration

/-- Each note starts its own wait after the cursor, and the next one counts from its stop. -/
def Chained : (cursor : Nat) → List Note → Prop
  | _, [] => True
  | cursor, n :: rest => n.start = cursor + n.wait ∧ Chained n.stop rest

def lastStop : (cursor : Nat) → List Note → Nat
  | cursor, [] => cursor
  | _, n :: rest => lastStop n.stop rest

/-- The onsets that waits and durations alone tell. -/
def replay : (cursor : Nat) → List Note → List Nat
  | _, [] => []
  | cursor, n :: rest => (cursor + n.wait) :: replay (cursor + n.wait + n.duration) rest

theorem chained_append {cursor : Nat} {before after : List Note} :
    Chained cursor (before ++ after) ↔
      Chained cursor before ∧ Chained (lastStop cursor before) after := by
  induction before generalizing cursor with
  | nil => simp only [List.nil_append, Chained, lastStop, true_and]
  | cons n before ih => simp only [List.cons_append, Chained, lastStop, ih, and_assoc]

theorem lastStop_append (cursor : Nat) (before after : List Note) :
    lastStop cursor (before ++ after) = lastStop (lastStop cursor before) after := by
  induction before generalizing cursor with
  | nil => rfl
  | cons n before ih => simp only [List.cons_append, lastStop, ih]

theorem Chained.replay_eq {cursor : Nat} {notes : List Note} (chained : Chained cursor notes) :
    replay cursor notes = notes.map Note.start := by
  induction notes generalizing cursor with
  | nil => rfl
  | cons n rest ih =>
    obtain ⟨onset, chained⟩ := chained
    simp only [replay, List.map_cons, onset, ← ih chained, stop]

end Note

theorem Event.lengthen_lengthen (ticks more : Nat) (event : Event) :
    (event.lengthen ticks).lengthen more = event.lengthen (ticks + more) := by
  cases event <;> simp only [Event.lengthen, Nat.add_assoc]

theorem Event.lengthen_zero (event : Event) : event.lengthen 0 = event := by
  cases event <;> rfl

namespace Timeline
open Relation (ReflTransGen)

/-- Nothing changes that the log, the cursor or the family of a timeline knows of. -/
structure Still (t t' : Timeline) : Prop where
  channel : t'.channel = t.channel
  events : t'.events = t.events
  children : t'.children = t.children
  voices : t'.voices = t.voices
  rests : t'.rests = t.rests
  position : t'.position = t.position
  last : t'.last = t.last

theorem Still.refl (t : Timeline) : t.Still t := ⟨rfl, rfl, rfl, rfl, rfl, rfl, rfl⟩

/-- The small changes that all others are made of. Only a note that was played last is ever
lengthened. -/
inductive Stride (t : Timeline) : Timeline → Prop
  | still {t' : Timeline} (still : t.Still t') : Stride t t'
  | mark (event : Event) (silent : event.note? = none) :
    Stride t { t with events := t.events.push event }
  | trail (ticks : Nat) (last : LastUnit) (kept : last = t.last ∨ ∀ index, last ≠ .note index) :
    Stride t { t.trail ticks with last := last }
  | note (offset : Nat) (arpeggio : Bool) (draft : Draft) :
    Stride t (t.pushNote offset arpeggio draft)
  | lengthen {index : Nat} (ticks : Nat) (last : t.last = .note index) :
    Stride t (t.lengthenNote index ticks)

abbrev Strides : Timeline → Timeline → Prop := ReflTransGen Stride

/-- Notes are chained from tick 0, and the cursor stands after the last one and the silence that
waits. -/
structure Sequential (t : Timeline) : Prop where
  chained : Note.Chained 0 t.notes
  cursor : t.position = Note.lastStop 0 t.notes + t.rests

/-- A note that a tie would lengthen is the last one of the log. -/
structure Orderly (t : Timeline) : Prop extends t.Sequential where
  latest : ∀ index, t.last = .note index → ∃ before note after,
    t.events.toList = before ++ .note note :: after ∧ before.length = index ∧
      after.filterMap Event.note? = []

theorem orderly_new (channel : Nat) : Orderly { channel := channel } :=
  ⟨⟨trivial, rfl⟩, fun _ last => nomatch last⟩

theorem Orderly.pushNote {t : Timeline} (orderly : t.Orderly) (offset : Nat) (arpeggio : Bool)
    (draft : Draft) : (t.pushNote offset arpeggio draft).Orderly := by
  have notes : (t.pushNote offset arpeggio draft).notes = t.notes ++
      [⟨offset, draft.pitches, t.rests, t.position, draft.duration, draft.velocity, draft.grace,
        arpeggio⟩] := by
    simp only [Timeline.notes, Timeline.pushNote, Array.toList_push, List.filterMap_append]
    rfl
  refine ⟨⟨?_, ?_⟩, ?_⟩
  · rw [notes, Note.chained_append]
    exact ⟨orderly.chained, orderly.cursor, trivial⟩
  · rw [notes, Note.lastStop_append]
    rfl
  · intro index last
    cases last
    exact ⟨_, _, [], Array.toList_push, Array.length_toList, rfl⟩

theorem modify_append (before after : List Event) (event : Event) (f : Event → Event) :
    (before ++ event :: after).modify before.length f = before ++ f event :: after := by
  induction before with
  | nil => rfl
  | cons e before ih =>
    rw [List.cons_append, List.length_cons, List.modify_succ_cons, ih, List.cons_append]

theorem Orderly.lengthenNote {t : Timeline} (orderly : t.Orderly) {index : Nat}
    (last : t.last = .note index) (ticks : Nat) : (t.lengthenNote index ticks).Orderly := by
  obtain ⟨before, note, after, logged, rfl, silent⟩ := orderly.latest index last
  have relogged : (t.lengthenNote before.length ticks).events.toList =
      before ++ .note { note with duration := note.duration + ticks } :: after := by
    simp only [Timeline.lengthenNote, Array.toList_modify, logged, modify_append, Event.lengthen]
  have notes : t.notes = before.filterMap Event.note? ++ [note] := by
    simp only [Timeline.notes, logged, List.filterMap_append, List.filterMap_cons, Event.note?,
      silent]
  have renotes : (t.lengthenNote before.length ticks).notes =
      before.filterMap Event.note? ++ [{ note with duration := note.duration + ticks }] := by
    simp only [Timeline.notes, relogged, List.filterMap_append, List.filterMap_cons, Event.note?,
      silent]
  have chained := orderly.chained
  have cursor := orderly.cursor
  rw [notes, Note.chained_append] at chained
  rw [notes, Note.lastStop_append] at cursor
  refine ⟨⟨?_, ?_⟩, ?_⟩
  · rw [renotes, Note.chained_append]
    exact ⟨chained.1, chained.2.1, trivial⟩
  · rw [renotes, Note.lastStop_append]
    simp only [Timeline.lengthenNote, Note.lastStop, Note.stop] at cursor ⊢
    omega
  · intro index' last'
    have same : index' = before.length := LastUnit.note.inj (last'.symm.trans last)
    exact ⟨before, _, after, relogged, same.symm, silent⟩

theorem Stride.orderly {t t' : Timeline} (stride : t.Stride t') (orderly : t.Orderly) :
    t'.Orderly := by
  cases stride with
  | still still =>
    have notes : t'.notes = t.notes := by rw [Timeline.notes, still.events]; rfl
    refine ⟨⟨notes ▸ orderly.chained, ?_⟩, ?_⟩
    · rw [notes, still.position, still.rests, orderly.cursor]
    · rw [still.last, still.events]
      exact orderly.latest
  | mark event silent =>
    have notes : Timeline.notes { t with events := t.events.push event } = t.notes := by
      simp only [Timeline.notes, Array.toList_push, List.filterMap_append, List.filterMap_cons,
        silent, List.filterMap_nil, List.append_nil]
    constructor
    · exact ⟨notes ▸ orderly.chained, notes ▸ orderly.cursor⟩
    · intro index last
      obtain ⟨before, note, after, logged, place, quiet⟩ := orderly.latest index last
      refine ⟨before, note, after ++ [event], ?_, place, ?_⟩
      · simp only [Array.toList_push, logged, List.append_assoc, List.cons_append]
      · simp only [List.filterMap_append, quiet, List.filterMap_cons, silent, List.filterMap_nil,
          List.append_nil]
  | trail ticks last kept =>
    refine ⟨⟨orderly.chained, ?_⟩, fun index same => ?_⟩
    · exact (congrArg (· + ticks) orderly.cursor).trans (Nat.add_assoc ..)
    · rcases kept with kept | other
      · exact orderly.latest index (kept.symm.trans same)
      · exact absurd same (other index)
  | note => exact orderly.pushNote ..
  | lengthen ticks last => exact orderly.lengthenNote last ticks

theorem Strides.orderly {t t' : Timeline} (strides : t.Strides t') (orderly : t.Orderly) :
    t'.Orderly := by
  induction strides with
  | refl => exact orderly
  | tail _ stride ih => exact stride.orderly ih

/-- The log of the first timeline is the beginning of the second one's, up to notes that have become
longer. -/
structure Grows (t t' : Timeline) : Prop where
  channel : t'.channel = t.channel
  logged : ∀ (index : Nat) (event : Event), t.events[index]? = some event →
    ∃ ticks, t'.events[index]? = some (event.lengthen ticks)

theorem Grows.refl (t : Timeline) : t.Grows t :=
  ⟨rfl, fun _ event logged => ⟨0, event.lengthen_zero.symm ▸ logged⟩⟩

theorem Grows.trans {t t' t'' : Timeline} (first : t.Grows t') (second : t'.Grows t'') :
    t.Grows t'' := by
  constructor
  · exact second.channel.trans first.channel
  · intro index event logged
    obtain ⟨ticks, logged⟩ := first.logged index event logged
    obtain ⟨more, logged⟩ := second.logged index _ logged
    exact ⟨ticks + more, event.lengthen_lengthen ticks more ▸ logged⟩

theorem Grows.of_push {t t' : Timeline} (channel : t'.channel = t.channel) (event : Event)
    (pushed : t'.events = t.events.push event) : t.Grows t' := by
  refine ⟨channel, fun index e logged => ⟨0, ?_⟩⟩
  obtain ⟨inside, -⟩ := Array.getElem?_eq_some_iff.mp logged
  rw [pushed, Array.getElem?_push_lt inside, e.lengthen_zero, ← logged,
    Array.getElem?_eq_getElem inside]

theorem grows_lengthenNote (t : Timeline) (place ticks : Nat) :
    t.Grows (t.lengthenNote place ticks) := by
  constructor
  · rfl
  · intro index event logged
    simp only [Timeline.lengthenNote, Array.getElem?_modify, logged, Option.map_some]
    split
    · exact ⟨ticks, rfl⟩
    · exact ⟨0, congrArg some event.lengthen_zero.symm⟩

theorem Stride.grows {t t' : Timeline} (stride : t.Stride t') : t.Grows t' := by
  cases stride with
  | still still =>
    refine ⟨still.channel, fun index event logged => ⟨0, ?_⟩⟩
    rw [still.events, logged, event.lengthen_zero]
  | mark event | note => exact .of_push rfl _ rfl
  | trail ticks last => exact ⟨rfl, (Grows.refl t).logged⟩
  | lengthen => exact grows_lengthenNote ..

theorem Strides.grows {t t' : Timeline} (strides : t.Strides t') : t.Grows t' := by
  induction strides with
  | refl => exact .refl t
  | tail _ stride ih => exact ih.trans stride.grows

/-- Strides leave the family of a timeline alone. -/
theorem Strides.family {t t' : Timeline} (strides : t.Strides t') :
    t'.children = t.children ∧ t'.voices = t.voices := by
  induction strides with
  | refl => exact ⟨rfl, rfl⟩
  | tail _ stride ih => cases stride with
    | still still => exact ⟨still.children.trans ih.1, still.voices.trans ih.2⟩
    | mark | trail | note | lengthen => exact ih

theorem Still.strides {t t' : Timeline} (still : t.Still t') : t.Strides t' := .single (.still still)

theorem calibrate_still (ticks : Nat) (t : Timeline) : t.Still (t.calibrate ticks).2 := by
  unfold calibrate
  split
  · exact .refl t
  · exact ⟨rfl, rfl, rfl, rfl, rfl, rfl, rfl⟩

theorem trail_strides (ticks : Nat) (t : Timeline) : t.Strides (t.trail ticks) :=
  .single (.trail ticks t.last (.inl rfl))

theorem pad_strides (length : Nat) (t : Timeline) : t.Strides (t.pad length) := by
  unfold pad
  split
  · exact .refl
  · exact .single (.trail length .rest (.inr fun _ => LastUnit.noConfusion))

/-- A child takes over how its parent plays, and rests until it has caught up with it. -/
def follow (parent child : Timeline) : Timeline :=
  Timeline.pad (parent.position - child.position)
    { child with state := parent.state, tuplet := parent.tuplet }

theorem follow_strides (parent child : Timeline) : child.Strides (parent.follow child) := by
  have still : child.Still { child with state := parent.state, tuplet := parent.tuplet } :=
    ⟨rfl, rfl, rfl, rfl, rfl, rfl, rfl⟩
  exact .head (.still still) (pad_strides ..)

theorem restFor_strides (length : Nat) (t : Timeline) : t.Strides (t.restFor length).2 := by
  unfold restFor
  split
  · exact .refl
  · exact (calibrate_still length t).strides.trans (pad_strides ..)

theorem pushNotes_strides (offset : Nat) (drafts : List Draft) (t : Timeline) :
    t.Strides (t.pushNotes offset drafts) := by
  induction drafts generalizing t with
  | nil => exact .refl
  | cons draft drafts ih => exact .head (.note offset false draft) (ih _)

theorem commit_strides (offset : Nat) (staged : Staged) (t : Timeline) :
    t.Strides (t.commit offset staged).2 :=
  (calibrate_still _ t).strides.trans ((pushNotes_strides ..).trans (trail_strides ..))

theorem addBends_still (bends : List (Nat × Binary64)) (t : Timeline) :
    t.Still (Session.addBends bends t) := by
  induction bends generalizing t with
  | nil => exact .refl t
  | cons bend bends ih =>
    have still := ih (t.addBend bend.1 bend.2)
    exact ⟨still.channel, still.events, still.children, still.voices, still.rests, still.position,
      still.last⟩

theorem beginTuplet_still {t t' : Timeline} {offset size unit : Nat}
    (done : (beginTuplet offset size).run t = .ok unit t') : t.Still t' := by
  simp only [beginTuplet, EStateM.run_bind, EStateM.run_get] at done
  split at done
  · exact nomatch done
  · split at done
    · exact nomatch done
    · cases done
      exact ⟨rfl, rfl, rfl, rfl, rfl, rfl, rfl⟩

theorem Played.strides {t t' : Timeline} (played : t.Played t') : t.Strides t' := by
  cases played with
  | change change => cases change with
    | state | endTuplet | bend | release => exact Still.strides ⟨rfl, rfl, rfl, rfl, rfl, rfl, rfl⟩
    | bends bends => exact (addBends_still bends t).strides
    | instrument | controller => exact .single (.mark _ rfl)
  | beginTuplet done => exact (beginTuplet_still done).strides
  | reserve => exact Still.strides ⟨rfl, rfl, rfl, rfl, rfl, rfl, rfl⟩
  | rest => exact restFor_strides ..
  | note offset staged => exact commit_strides ..

end Timeline
end TextScore
