import TextScore.Proofs.Decorations
import TextScore.Proofs.Fermatas

/-! Ornaments keep a unit. Whatever is stacked around a key or chord, short of a fermata, shares the
unit out between notes and the silence after them, so the timeline moves on by one unit with any
graces in it. -/
namespace TextScore

namespace Modifier
variable {stack : List Modifier} {onset : Nat} {before after staged : Staged}

/-- What all ornaments but fermatas keep of what is staged. -/
structure Keeps (before after : Staged) : Prop where
  ticks : after.ticks = before.ticks
  /-- Graces that come first stay there as they are. -/
  graces : ∀ {graces mains}, Prefaced before.notes graces mains →
    ∃ graces' mains', Prefaced after.notes graces' mains' ∧
      graces'.map (fun d => (d.pitches, d.duration)) = graces.map fun d => (d.pitches, d.duration)
  rest : before.rest ≤ after.rest

theorem Keeps.refl (staged : Staged) : Keeps staged staged :=
  ⟨rfl, fun prefaced => ⟨_, _, prefaced, rfl⟩, Nat.le_refl _⟩

theorem Keeps.trans {last : Staged} (first : Keeps before after) (second : Keeps after last) :
    Keeps before last where
  ticks := second.ticks.trans first.ticks
  graces prefaced := by
    obtain ⟨_, _, prefaced, same⟩ := first.graces prefaced
    obtain ⟨graces', mains', prefaced, same'⟩ := second.graces prefaced
    exact ⟨graces', mains', prefaced, same'.trans same⟩
  rest := Nat.le_trans first.rest second.rest

end Modifier

/-- A key or chord, with graces before it or without. -/
inductive Item.Struck : Item → Prop
  | key (k : Key) : Struck (.key k)
  | chord (c : Chord) : Struck (.chord c)
  | graced (offset : Nat) (graces : List Item) {main : Item} (struck : Struck main) :
    Struck (.graced offset graces main)

namespace Session
open Arena (Forest)
variable {here : TimelineId} {s t : Session} {total : Nat}

/-- How what is staged comes into the arena, as a note or as an arpeggio. -/
inductive Lays (here : TimelineId) (offset : Nat) (staged : Staged) (arena : Arena) :
    (total : Nat) → Arena → Prop
  | note : Lays here offset staged arena ((arena.timeline here).commit offset staged).1
    (arena.adjust here fun t => (t.commit offset staged).2)
  | arpeggio {interval total : Nat} {arena' : Arena}
    (done : (Arena.commitArpeggio here offset staged interval).run arena = .ok total arena') :
    Lays here offset staged arena total arena'

theorem Lays.ticks {offset : Nat} {staged : Staged} {arena arena' : Arena}
    (lays : Lays here offset staged arena total arena') :
    total = staged.ticks + ((arena.timeline here).calibrate staged.ticks).1 := by
  cases lays with
  | note => exact Timeline.answered_commit ..
  | arpeggio done =>
    obtain ⟨extra, tuned, calibrated, answered, -⟩ := Arena.commitArpeggio_ok done
    rw [answered, calibrated]

theorem commit_ok {offset : Nat} {pitches : List Nat} {arpeggio : Bool}
    (done : (commit here offset pitches arpeggio).run s = .ok total t) :
    ∃ plain arena onsets, (stage here pitches).run s = .ok plain { s with graces := none } ∧
      Lays here offset (Modifier.applyAll s.modifiers (s.arena.timeline here).position plain)
        s.arena total arena ∧
      t = { s with arena := arena, graces := none, onsets := onsets } := by
  obtain ⟨_, _, read, done⟩ := Step.bind_ok done
  cases read
  obtain ⟨plain, u, staged, done⟩ := Step.bind_ok done
  obtain ⟨rfl, -⟩ := Custody.stage_ok staged
  obtain ⟨_, _, read, done⟩ := Step.bind_ok done
  cases read
  obtain ⟨_, _, heard, done⟩ := Step.bind_ok done
  cases heard
  cases arpeggio with
  | false =>
    obtain ⟨arena, ran, rfl⟩ := onArena_ok done
    rw [Arena.update_run] at ran
    cases ran
    exact ⟨plain, _, _, staged, .note, rfl⟩
  | true =>
    obtain ⟨arena, ran, rfl⟩ := onArena_ok done
    exact ⟨plain, arena, _, staged, .arpeggio ran, rfl⟩

theorem update_ok {α : Type} (change : Timeline → α × Timeline) (s : Session) :
    (update here change).run s = .ok (change (s.arena.timeline here)).1
      { s with arena := s.arena.adjust here fun t => (change t).2 } := by
  rw [update, onArena_run, Arena.update_run]

/-- Outside of tuplets, with no fermata around. -/
structure Plain (here : TimelineId) (s : Session) : Prop where
  forest : ∃ roots, Forest roots s.arena
  inside : here < s.arena.timelines.size
  loose : (s.arena.timeline here).tuplet = none
  others : ∀ modifier ∈ s.modifiers, modifier.isFermata = false

theorem Plain.waiting (plain : s.Plain here) (gas : Gas)
    (graces : Option (Nat × List (List Nat))) :
    Plain here { s with gas := gas, graces := graces } :=
  ⟨plain.forest, plain.inside, plain.loose, plain.others⟩

end Session
end TextScore
