import TextScore.Proofs.Accord

/-! A dynamics span is measured before it is played. The measurement is what the span will be, with
other velocities: what the body does under dynamics it does without them, as often and as late, for
the same gas. -/
namespace TextScore

/-- A timeline without the velocities of its notes. -/
def Timeline.muted (t : Timeline) : Timeline := t.tint fun _ => 0

namespace Arena
variable {arena arena' : Arena}

/-- All timelines without the velocities of their notes. -/
def muted (arena : Arena) : Arena := ⟨arena.timelines.map Timeline.muted⟩

/-- Every timeline is its own counterpart. -/
theorem Related.self (v : Nat → Nat) (pairs : List (TimelineId × TimelineId))
    (same : ∀ pair ∈ pairs, pair.1 = pair.2) (arena : Arena) :
    Related v Eq pairs arena arena := by
  refine ⟨Eq, same, ⟨?_, ?_, ?_⟩, id, .inl, fun _ _ _ => rfl⟩
  · rintro a _ b _ rfl rfl
    exact .rfl
  · rintro a _ rfl k
    exact .rfl
  · rintro a _ rfl
    exact ⟨rfl, List.forall₂_same.mpr fun _ _ => rfl, List.forall₂_same.mpr fun _ _ => rfl⟩

/-- Where every timeline is its own counterpart, the two are the same but for what the view hides. -/
theorem Related.shown {v : Nat → Nat} {pairs : List (TimelineId × TimelineId)}
    (related : Related v Eq pairs arena arena') (id : TimelineId) :
    (arena'.timeline id).tint v = (arena.timeline id).tint v := by
  obtain ⟨φ, -, kin, rooted⟩ := related
  have equal {a a' : TimelineId} (known : φ a a') : a = a' :=
    ((kin.apart known (rooted.roots rfl)).mp rfl).symm
  have lists {l l' : Array TimelineId} (same : List.Forall₂ φ l.toList l'.toList) : l = l' := by
    have all := same.imp fun _ _ => equal
    rw [List.forall₂_eq_eq_eq] at all
    exact Array.toList_inj.mp all
  have like := kin.like (rooted.roots (rfl : id = id))
  have parts (t : Timeline) : t.tint v =
      { t.bare v with children := t.children, voices := t.voices } := rfl
  rw [parts, parts, like.bare, lists like.children, lists like.voices]

theorem Related.size {v : Nat → Nat} {pairs : List (TimelineId × TimelineId)}
    (related : Related v Eq pairs arena arena') :
    arena'.timelines.size = arena.timelines.size := by
  obtain ⟨φ, -, kin, rooted⟩ := related
  exact ((kin.ahead (rooted.roots rfl) 0).mp rfl).symm

theorem Related.muted {pairs : List (TimelineId × TimelineId)}
    (related : Related (fun _ => 0) Eq pairs arena arena') : arena'.muted = arena.muted := by
  have found (arena : Arena) (i : Nat) (inside : i < arena.timelines.size) :
      arena.timeline i = arena.timelines[i] := by
    rw [timeline, Array.getElem?_eq_getElem inside, Option.getD_some]
  refine congrArg Arena.mk (Array.ext (by simp only [Array.size_map, related.size]) fun i inside _ => ?_)
  rw [Array.size_map] at inside
  rw [Array.getElem_map, Array.getElem_map, ← found, ← found]
  exact related.shown i

end Arena

namespace Session

/-- One performance goes under dynamics; the other one is a measurement without them. -/
def rehearsal (ramp : Ramp) (stack : List Modifier) : Rapport fun _ => 0 where
  pairs := []
  surplus := 0
  tied := True
  whole := True
  mixed := True
  stack := .dynamics ramp :: stack
  stack' := stack
  alike := (Modifier.Alike.refl _ stack).shaded (fun _ _ => rfl) ramp
  flat := fun _ _ _ => rfl

theorem rehearsed {s t : Session} {ticks : Nat} (ramp : Ramp) (here : TimelineId)
    (references depth : Nat) (body : List Item) (real : s.measuring = false)
    (played : (performAll (perform depth) here references body).run
      { s with modifiers := .dynamics ramp :: s.modifiers } = .ok ticks t) :
    ∃ t', (performAll (perform depth) here references body).run { s with measuring := true } =
        .ok ticks t' ∧ Accord Eq here here (rehearsal ramp s.modifiers) t t' := by
  have start : Accord Eq here here (rehearsal ramp s.modifiers)
      { s with modifiers := .dynamics ramp :: s.modifiers } { s with measuring := true } := {
    related := .self _ _ (fun pair member => List.mem_singleton.mp member ▸ rfl) s.arena
    gas := rfl
    definitions := rfl
    fermata := rfl
    graces := rfl
    stack := rfl
    stack' := rfl
    onsets := fun _ => rfl
    measuring := fun plain => absurd trivial plain
    measured := fun _ => ⟨real, rfl⟩
    aside := fun _ => ⟨rfl, rfl⟩ }
  exact (Ensemble.follows_all (duet_accord.follows_perform depth) references body).ok start played

/-- The same performance twice, where one has not heard what came before. -/
def unheard (stack : List Modifier) : Rapport id where
  pairs := []
  surplus := 0
  tied := False
  whole := True
  mixed := False
  stack := stack
  stack' := stack
  alike := .refl _ stack
  flat := Rapport.unmixed

/-- What is heard before a body has no part in how it is performed. -/
theorem performed_afresh {s t : Session} {ticks : Nat} {here : TimelineId} {references depth : Nat}
    {body : List Item}
    (performed : (performAll (perform depth) here references body).run s = .ok ticks t) :
    ∃ t', (performAll (perform depth) here references body).run { s with onsets := none } =
      .ok ticks t' ∧ Accord Eq here here (unheard s.modifiers) t t' := by
  have start : Accord Eq here here (unheard s.modifiers) s { s with onsets := none } := {
    related := .self _ _ (fun pair member => List.mem_singleton.mp member ▸ rfl) s.arena
    gas := rfl
    definitions := rfl
    fermata := rfl
    graces := rfl
    stack := rfl
    stack' := rfl
    onsets := nofun
    measuring := fun _ => rfl
    measured := nofun
    aside := fun _ => ⟨rfl, rfl⟩ }
  exact (Ensemble.follows_all (duet_accord.follows_perform depth) references body).ok start performed

/-- Measuring a body predicts playing it under dynamics, whatever they are. -/
theorem measurement_predicts {s t : Session} {ticks : Nat} (ramp : Ramp) (here : TimelineId)
    (references depth : Nat) (body : List Item) (real : s.measuring = false)
    (played : (performAll (perform depth) here references body).run
      { s with modifiers := .dynamics ramp :: s.modifiers } = .ok ticks t) :
    ∃ t', (performAll (perform depth) here references body).run { s with measuring := true } =
        .ok ticks t' ∧
      t' = { t with arena := t'.arena, modifiers := s.modifiers, measuring := true } ∧
      t'.arena.muted = t.arena.muted := by
  obtain ⟨t', measured, after⟩ := rehearsed ramp here references depth body real played
  obtain ⟨channels, conductor⟩ := after.aside trivial
  refine ⟨t', measured, ?_, after.related.muted⟩
  have gas : t'.gas = t.gas := congrArg Gas.mk after.gas
  cases t
  cases t'
  rw [Session.mk.injEq]
  exact ⟨gas, after.definitions.symm, rfl, channels.symm, conductor.symm, after.fermata.symm,
    after.stack', after.graces.symm, (after.onsets trivial).symm, (after.measured trivial).2⟩

/-- A note and a crescendo over two more, inside another crescendo. -/
theorem measurement_predicts_nested :
    let body : List Item := [.key ⟨0, .pitchClass 0, 0, 0⟩, .ornament 1 (.crescendo 100)
      [.key ⟨2, .pitchClass 2, 0, 0⟩, .key ⟨3, .pitchClass 4, 0, 0⟩]]
    let s : Session := { gas := ⟨40⟩, arena := ⟨#[{ channel := 1 }]⟩ }
    let ramp : Ramp := ⟨80, 120, 0, 64⟩
    ∃ t t', s.measuring = false ∧ (performAll (perform 3) 0 0 body).run
        { s with modifiers := .dynamics ramp :: s.modifiers } = .ok 96 t ∧
      (performAll (perform 3) 0 0 body).run { s with measuring := true } = .ok 96 t' ∧
      t'.onsets = t.onsets ∧ t'.arena.muted = t.arena.muted := by
  intro body s ramp
  have played : (performAll (perform 3) 0 0 body).run'
      { s with modifiers := .dynamics ramp :: s.modifiers } = some 96 := by decide +kernel
  obtain ⟨t, played⟩ := Step.exists_of_run' played
  obtain ⟨t', measured, same, muted⟩ := measurement_predicts ramp 0 0 3 body rfl played
  exact ⟨t, t', rfl, played, measured, by rw [same], muted⟩

end Session
end TextScore
