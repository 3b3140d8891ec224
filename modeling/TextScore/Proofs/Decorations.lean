import Mathlib.Algebra.BigOperators.Group.Finset.Piecewise
import TextScore.Proofs.Recitals

/-! Graces are neither lost nor made up. The key or chord that comes first after a prefix takes its
graces, each as long as a grace is, and plays them in its own slot. Only where another prefix comes first
are they lost: it is then the graces of that one which wait. -/
namespace TextScore

namespace Mark
variable {marks : List Mark}

/-- How many graces sound when so many wait at first: a key or chord takes those of the last prefix
before it. -/
def sounded : (waiting : Nat) → List Mark → Nat
  | _, [] => 0
  | _, .graces count :: rest => sounded count rest
  | waiting, .note :: rest => waiting + sounded 0 rest

example : sounded 0 [.graces 2, .note, .graces 1, .graces 3, .note] = 2 + 3 := rfl

/-- How many graces all prefixes have. -/
def asked : List Mark → Nat
  | [] => 0
  | .graces count :: rest => count + asked rest
  | .note :: rest => asked rest

/-- After each prefix a key or chord comes before another prefix does. -/
def Attended : List Mark → Prop
  | [] => True
  | .graces _ :: rest => rest.head? = some .note ∧ Attended rest
  | .note :: rest => Attended rest

theorem sounded_attended (attended : Attended marks) (waiting : Nat) :
    sounded waiting marks = asked marks + if marks.head? = some .note then waiting else 0 := by
  induction marks generalizing waiting with
  | nil => rfl
  | cons mark marks ih => cases mark with
    | graces count =>
      have next := ih attended.2 count
      rw [if_pos attended.1] at next
      exact next.trans (Nat.add_comm ..)
    | note =>
      have next := ih attended 0
      rw [ite_self] at next
      exact (congrArg (waiting + ·) next).trans (Nat.add_comm ..)

end Mark

namespace Session
open Modifier
variable {s t u : Session} {marks : List Mark} {here : TimelineId} {ticks : Nat} {graces : List Note}
  {mains : TimelineId → List Note}

/-- The graces on all timelines. -/
def graceNotes (s : Session) : Nat :=
  ∑ id ∈ Finset.range s.arena.timelines.size, (s.arena.timeline id).notes.countP (·.grace)

/-- Timelines that there are not yet have no graces. -/
theorem graceNotes_beyond {size : Nat} (beyond : s.arena.timelines.size ≤ size) :
    s.graceNotes = ∑ id ∈ Finset.range size, (s.arena.timeline id).notes.countP (·.grace) := by
  refine Finset.sum_subset (Finset.range_subset_range.mpr beyond) fun id _ new => ?_
  rw [Arena.timeline_out (Nat.le_of_not_lt (mt Finset.mem_range.mpr new))]
  rfl

theorem Idles.trans (first : s.Idles t) (second : t.Idles u) : s.Idles u :=
  ⟨first.sustains.trans second.sustains, Nat.le_trans first.size second.size,
    second.graces.trans first.graces⟩

theorem Idles.waiting (idles : s.Idles t) : t.waitingGraces = s.waitingGraces := by
  rw [waitingGraces, idles.graces, waitingGraces]

theorem Idles.graceNotes (idles : s.Idles t) : t.graceNotes = s.graceNotes := by
  have count (timeline : Timeline) :
      timeline.notes.countP (·.grace) = timeline.entries.countP (·.grace) := by
    rw [Timeline.entries, List.countP_map]
    rfl
  rw [graceNotes_beyond idles.size, Session.graceNotes]
  refine Finset.sum_congr rfl fun id _ => ?_
  rw [count, idles.sustains, count]

namespace Strikes
variable (strikes : s.Strikes here ticks graces mains t)
include strikes

theorem waiting : t.waitingGraces = [] := by
  rw [waitingGraces, strikes.taken]
  rfl

theorem count_graces : graces.countP (·.grace) = s.waitingGraces.length := by
  rw [List.countP_eq_length.mpr strikes.graced.ornate.grace, ← strikes.graced.ornate.pitched,
    List.length_map]

/-- The graces that waited are all that is new of graces. -/
theorem graceNotes : t.graceNotes = s.graceNotes + s.waitingGraces.length := by
  have each (id : TimelineId) : (t.arena.timeline id).notes.countP (·.grace) =
      (s.arena.timeline id).notes.countP (·.grace) +
        if id = here then s.waitingGraces.length else 0 := by
    have none : (mains id).countP (·.grace) = 0 :=
      List.countP_eq_zero.mpr fun n listed => (strikes.graced.later id n listed).1
    rw [strikes.graced.logged, List.countP_append, List.countP_append, none, Nat.add_zero]
    split
    · rw [strikes.count_graces]
    · rfl
  rw [graceNotes_beyond strikes.size, Session.graceNotes]
  simp only [each]
  rw [Finset.sum_add_distrib, Finset.sum_ite_eq', if_pos]
  exact Finset.mem_range.mpr (Nat.lt_of_lt_of_le strikes.inside strikes.size)

theorem logged (id : TimelineId) : (s.arena.timeline id).entries <+: (t.arena.timeline id).entries := by
  rw [Timeline.entries, Timeline.entries, strikes.graced.logged]
  exact (List.prefix_append ..).map _

end Strikes

namespace Recital

/-- Every key and chord takes the graces that wait, and nothing else logs any. -/
theorem graceNotes (recital : Recital marks s t) :
    t.graceNotes = s.graceNotes + Mark.sounded s.waitingGraces.length marks := by
  induction recital with
  | done => rfl
  | idle idles _ ih => rw [ih, idles.graceNotes, idles.waiting]
  | graces offset pitches _ ih => exact ih
  | note strikes _ ih =>
    rw [ih, strikes.graceNotes, strikes.waiting, Nat.add_assoc]
    rfl

/-- What has been logged stays there, but for how long it is held. -/
theorem logged (recital : Recital marks s t) (id : TimelineId) :
    (s.arena.timeline id).entries <+: (t.arena.timeline id).entries := by
  induction recital with
  | done => exact List.prefix_rfl
  | idle idles _ ih => exact idles.sustains id ▸ ih
  | graces offset pitches _ ih => exact ih
  | note strikes _ ih => exact (strikes.logged id).trans ih

theorem graces_of_nil (recital : Recital [] s t) : t.graces = s.graces := by
  generalize none : ([] : List Mark) = marks at recital
  induction recital with
  | done => rfl
  | idle idles _ ih => exact (ih none).trans idles.graces
  | graces | note => exact nomatch none

/-- Where a key or chord comes first, nothing happens before it. -/
theorem first {rest : List Mark} (recital : Recital (.note :: rest) s t) :
    ∃ place span graces mains u v, s.Idles u ∧ u.Strikes place span graces mains v ∧ Recital rest v t := by
  generalize same : Mark.note :: rest = marks at recital
  induction recital with
  | done => exact nomatch same
  | idle idles _ ih =>
    obtain ⟨place, span, graces, mains, u, v, again, strikes, rest⟩ := ih same
    exact ⟨place, span, graces, mains, u, v, idles.trans again, strikes, rest⟩
  | graces => exact nomatch same
  | note strikes more =>
    cases same
    exact ⟨_, _, _, _, _, _, .aside rfl rfl, strikes, more⟩

end Recital

/-- On the way from one session to another the first thing that is logged are graces of these pitches,
with a key or chord in whose slot they are. -/
def Adorns (pitches : List (List Nat)) (s t : Session) : Prop :=
  ∃ (place : TimelineId) (span : Nat) (graces : List Note) (mains : TimelineId → List Note)
      (u v : Session),
    (∀ id, (u.arena.timeline id).entries = (s.arena.timeline id).entries) ∧
    u.waitingGraces = pitches ∧ u.Strikes place span graces mains v ∧
    ∀ id, (v.arena.timeline id).entries <+: (t.arena.timeline id).entries

theorem Recital.adorns {offset : Nat} {pitches : List (List Nat)} {rest : List Mark}
    (recital : Recital (.note :: rest) u t) (arena : u.arena = s.arena)
    (waits : u.graces = some (offset, pitches)) : s.Adorns pitches t := by
  obtain ⟨place, span, graces, mains, v, w, idles, strikes, rest⟩ := recital.first
  refine ⟨place, span, graces, mains, v, w, arena ▸ idles.sustains, ?_, strikes, rest.logged⟩
  rw [idles.waiting, waitingGraces, waits]
  rfl

/-- After a key, chord, ornament or tie no graces wait. -/
theorem none_after_sound {inner : Performer} {references : Nat} {sound : Item}
    (done : (performWith.performSound inner here references sound).run s = .ok ticks t) :
    t.graces = none := by
  have last : ∃ p : Play Nat, performWith.performSound inner here references sound = do
      let ticks ← p
      requireNoGraces
      return ticks := by
    cases sound <;> exact ⟨_, rfl⟩
  obtain ⟨p, same⟩ := last
  rw [same] at done
  exact (sounded_ok done).2

theorem perform_graced {depth references offset : Nat} {items : List Item} {main : Item} :
    perform (depth + 1) here references (.graced offset items main) =
      opened here offset (do
        if let .tie _ := main then Step.failAt offset .graceOnTie
        prepareGraces here offset items
        performWith.performSound (perform depth) here references main) := rfl

/-- A prefix is evaluated, and then what it decorates. -/
theorem graced_ok {depth references offset : Nat} {items : List Item} {main : Item}
    (done : (perform (depth + 1) here references (.graced offset items main)).run s = .ok ticks t) :
    ∃ pitches, (allGracePitches here 0 items).run { s with gas := ⟨s.gas.remaining - 1⟩ } =
        .ok pitches { s with gas := ⟨s.gas.remaining - 1⟩ } ∧
      pitches.length = graceCounts items ∧
      (performWith.performSound (perform depth) here references main).run
        { s with gas := ⟨s.gas.remaining - 1⟩, graces := some (offset, pitches) } = .ok ticks t := by
  rw [perform_graced] at done
  obtain ⟨-, done⟩ := opened_ok done
  have prepared : (do
      prepareGraces here offset items
      performWith.performSound (perform depth) here references main).run
        { s with gas := ⟨s.gas.remaining - 1⟩ } = .ok ticks t := by
    cases main with
    | tie => cases done
    | _ => exact done
  obtain ⟨_, u, first, sounded⟩ := Step.bind_ok prepared
  obtain ⟨pitches, found, count, rfl⟩ := prepareGraces_ok first
  exact ⟨pitches, found, count, sounded⟩

/-- A prefix that is evaluated without a fault has its graces played, whatever it decorates, by the key or
chord that comes first, and nothing else plays graces but the prefixes inside. If another prefix comes
before any key or chord, the graces of the outer one are lost, and if no key or chord comes, evaluating
it is a fault. -/
theorem graces_decorate {gas : Nat} {score : List Node} (visits : Visits gas score s)
    (inside : here < s.arena.timelines.size) {depth references offset : Nat} {items : List Item}
    {main : Item}
    (done : (perform (depth + 1) here references (.graced offset items main)).run s = .ok ticks t) :
    ∃ pitches marks, (allGracePitches here 0 items).run { s with gas := ⟨s.gas.remaining - 1⟩ } =
        .ok pitches { s with gas := ⟨s.gas.remaining - 1⟩ } ∧
      pitches.length = graceCounts items ∧
      (recite (depth + 1) (.graced offset items main)).run s.definitions =
        .ok (.graces pitches.length :: marks) t.definitions ∧
      marks ≠ [] ∧ t.graces = none ∧
      t.graceNotes = s.graceNotes + Mark.sounded pitches.length marks ∧
      (Mark.Attended (.graces pitches.length :: marks) →
        t.graceNotes = s.graceNotes + pitches.length + Mark.asked marks) ∧
      (marks.head? = some .note → s.Adorns pitches t) := by
  obtain ⟨m, live, tended⟩ := visits.tended
  obtain ⟨pitches, found, count, sounded⟩ := graced_ok done
  have none := none_after_sound sounded
  have ready : Ready [here]
      { s with gas := ⟨s.gas.remaining - 1⟩, graces := some (offset, pitches) } :=
    ⟨⟨_, tended.sound.forest⟩, List.forall_mem_singleton.mpr inside⟩
  obtain ⟨-, marks, told, recital⟩ :=
    tells_sound (recites_perform depth) (List.mem_singleton_self here) references main ready sounded
  have total : t.graceNotes = s.graceNotes + Mark.sounded pitches.length marks := recital.graceNotes
  refine ⟨pitches, marks, found, count, ?_, ?_, none, total, fun attended => ?_, fun first => ?_⟩
  · simp only [recite, reciteWith, EStateM.run_bind, told, EStateM.run_pure, count]
  · rintro rfl
    exact nomatch recital.graces_of_nil.symm.trans none
  · rw [total, Mark.sounded_attended attended.2, if_pos attended.1]
    omega
  · cases marks with
    | nil => exact nomatch first
    | cons mark rest =>
      cases first
      exact recital.adorns rfl rfl

/-- Two graces, one of them in a range, before a staccato around a group and another grace. -/
theorem graces_decorate_ornament : ∃ (score : List Node) (s t : Session) (pitches : List (List Nat))
    (graces body : List Item), Visits 40 score s ∧ (s.arena.timeline 0).position = 32 ∧
      (perform 39 0 0 (.graced 1 graces (.ornament 6 .staccato body))).run s = .ok 64 t ∧
      pitches.length = 2 ∧ t.graceNotes = s.graceNotes + 2 + 1 ∧ s.Adorns pitches t := by
  let key : Item := .key ⟨2, .pitchClass 0, 0, 0⟩
  let chord : Item := .chord ⟨9, true, [⟨10, .pitchClass 0, 0, 0⟩, ⟨11, .pitchClass 4, 0, 0⟩]⟩
  let graces : List Item := [key, .range 3 .octaveUp [.key ⟨4, .pitchClass 2, 0, 0⟩]]
  let body : List Item := [.group 7 1 [key], .graced 8 [key] chord]
  let item : Item := .graced 1 graces (.ornament 6 .staccato body)
  let repeats : Repeats := { performed := #[.item (.rest 0)] }
  let rested : Timeline :=
    { channel := 1, rests := 32, position := 32, last := .rest, repeats := repeats }
  let call : Call := ⟨0, 0, item, { gas := ⟨39⟩, arena := ⟨#[rested]⟩, channels := #[0] }⟩
  have round : Round (.start 40 [.item (.rest 0), .item item])
      ⟨some 0, [⟨.item item, false⟩], call.session⟩ :=
    @Round.node none (some 0) ⟨.item (.rest 0), false⟩ _ [] _ _ rfl
  have reached : Reaches 40 [.item (.rest 0), .item item] 40 call :=
    Reaches.node (t := call.session) (.single round) rfl
  have performed : (perform 39 0 0 item).run' call.session = some 64 := by decide +kernel
  obtain ⟨t, done⟩ := Step.exists_of_run' performed
  have inside : 0 < call.session.arena.timelines.size := Nat.zero_lt_one
  obtain ⟨pitches, marks, -, -, told, -, -, -, total, adorns⟩ :=
    graces_decorate (.before reached) inside done
  have known : (recite 39 item).run call.session.definitions =
      .ok [.graces 2, .note, .graces 1, .note] { groups := [(1, [key])] } := rfl
  obtain ⟨same, -⟩ := EStateM.Result.ok.inj (known.symm.trans told)
  obtain ⟨count, rfl⟩ := List.cons.inj same
  have count : pitches.length = 2 := (Mark.graces.inj count).symm
  have total := total ⟨rfl, rfl, trivial⟩
  rw [count] at total
  exact ⟨_, call.session, t, pitches, graces, body, .before reached, rfl, done, count, total, adorns rfl⟩

end Session
end TextScore
