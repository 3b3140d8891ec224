import TextScore.Proofs.Bystanders
import TextScore.Proofs.Gasless
import TextScore.Proofs.Stewardship

/-! The conductor and time. Items leave it alone, and so do nodes that ask it for nothing; a request
sends it forward only, to where the active timeline has got to, and no tempo that is asked for is
anything but a finite number above zero. So its changes of tempo are in order wherever a run gets
to. -/
namespace TextScore

/-- Changes of tempo come in order and none lies ahead; every tempo is positive. -/
structure Conductor.Timely (c : Conductor) : Prop where
  ordered : (c.tempos.toList.map Prod.fst).Pairwise (· ≤ ·)
  past : ∀ change ∈ c.tempos, change.1 ≤ c.position
  positive : ∀ change ∈ c.tempos, change.2.isPositive
  told : ∀ bpm, .tempo bpm ∈ c.events → bpm.isPositive

namespace Conductor
variable {c c' : Conductor}

theorem timely_new : Timely {} where
  ordered := .nil
  past _ listed := absurd listed (Array.not_mem_empty _)
  positive _ listed := absurd listed (Array.not_mem_empty _)
  told _ listed := absurd listed (Array.not_mem_empty _)

theorem Timely.moveTo (timely : c.Timely) {offset tick : Nat}
    (done : (moveTo offset tick).run c = .ok () c') : c'.Timely := by
  obtain ⟨-, rfl | ⟨later, rfl⟩⟩ := moveTo_ok done
  · exact timely
  · refine ⟨timely.ordered, fun change listed => ?_, timely.positive, fun bpm listed => ?_⟩
    · exact Nat.le_trans (timely.past change listed) (Nat.le_of_lt later)
    · exact timely.told bpm ((Array.mem_push.mp listed).resolve_right nofun)

theorem Timely.setTempo (timely : c.Timely) {bpm : Binary64} (positive : bpm.isPositive) :
    (c.setTempo bpm).Timely where
  ordered := by
    simp only [Conductor.setTempo, Array.toList_push, List.map_append, List.map_cons, List.map_nil]
    refine List.pairwise_append.mpr ⟨timely.ordered, List.pairwise_singleton _ _, ?_⟩
    intro before earlier now here
    obtain ⟨change, listed, rfl⟩ := List.mem_map.mp earlier
    rw [List.mem_singleton.mp here]
    exact timely.past change (Array.mem_toList_iff.mp listed)
  past change listed := by
    rcases Array.mem_push.mp listed with old | rfl
    · exact timely.past change old
    · exact Nat.le_refl _
  positive change listed := by
    rcases Array.mem_push.mp listed with old | rfl
    · exact timely.positive change old
    · exact positive
  told other listed := by
    rcases Array.mem_push.mp listed with old | new
    · exact timely.told other old
    · cases new
      exact positive

theorem Timely.setTimeSignature (timely : c.Timely) (numerator denominator : Nat) :
    (c.setTimeSignature numerator denominator).Timely where
  ordered := timely.ordered
  past := timely.past
  positive := timely.positive
  told bpm listed := timely.told bpm ((Array.mem_push.mp listed).resolve_right nofun)

end Conductor

/-- What a conductor does when it is told of an event. -/
def Conductor.enter (c : Conductor) : ConductorEvent → Conductor
  | .filler _ => c
  | .tempo bpm => c.setTempo bpm
  | .timeSignature numerator denominator => c.setTimeSignature numerator denominator

/-- What a node asks the conductor to enter. -/
def Node.request? : Node → Option ConductorEvent
  | .global _ key value => match key with
    | "bpm" => (Session.bpm? value).map .tempo
    | "time-sig" => (Session.timeSignature? value).map fun (numerator, denominator) =>
      .timeSignature numerator denominator
    | _ => none
  | _ => none

namespace Session
variable {α : Type} {active active' : Option TimelineId} {gas : Nat} {score : List Node}
  {s t : Session} {event : ConductorEvent}

theorem bpm?_positive {text : String} {bpm : Binary64} (read : bpm? text = some bpm) :
    bpm.isPositive := (Option.filter_eq_some_iff.mp read).2

theorem request_positive {node : Node} {bpm : Binary64} (asks : node.request? = some (.tempo bpm)) :
    bpm.isPositive := by
  unfold Node.request? at asks
  split at asks
  · split at asks
    · obtain ⟨bpm, read, same⟩ := Option.map_eq_some_iff.mp asks
      cases same
      exact bpm?_positive read
    · obtain ⟨_, -, same⟩ := Option.map_eq_some_iff.mp asks
      exact nomatch same
    · exact nomatch asks
  · exact nomatch asks

theorem upkeep_conductor (c : Conductor) : Upkeep fun _ _ s => s.conductor = c where
  shrink _ := id
  primitive _ primitive same done := (primitive.played done).conductor.trans same
  branch _ same done := by
    obtain ⟨_, -, rfl⟩ := onArena_ok done
    exact same
  copy := id

/-- The tick that the active timeline has got to. Without one the score has not begun. -/
def cursor (active : Option TimelineId) (s : Session) : Nat :=
  match active with
  | none => 0
  | some here => (s.arena.timeline here).position

section Requests

theorem conduct_run (active : Option TimelineId) (offset : Nat) (event : Conductor → Conductor)
    (s : Session) : (conduct active offset event).run s =
      match (Conductor.moveTo offset (s.cursor active)).run s.conductor with
      | .ok _ c => .ok ⟨⟩ { s with conductor := event c }
      | .error fault c => .error fault { s with conductor := c } := by
  have moved (tick : Nat) : (do
      onConductor (Conductor.moveTo offset tick)
      modify fun s => { s with conductor := event s.conductor } : Play PUnit).run s =
        match (Conductor.moveTo offset tick).run s.conductor with
        | .ok _ c => .ok ⟨⟩ { s with conductor := event c }
        | .error fault c => .error fault { s with conductor := c } := by
    have unfolded : (onConductor (Conductor.moveTo offset tick)).run s = _ := Step.within_run ..
    rw [EStateM.run_bind, unfolded]
    cases (Conductor.moveTo offset tick).run s.conductor <;> rfl
  cases active with
  | none => exact moved 0
  | some here => exact moved (s.arena.timeline here).position

/-- A setting that asks the conductor for something does nothing else. -/
theorem globalSetting_asks {offset : Nat} {key value : String}
    (asks : (Node.global offset key value).request? = some event) :
    globalSetting active offset key value = conduct active offset (·.enter event) := by
  simp only [Node.request?] at asks
  simp only [globalSetting]
  split at asks
  · obtain ⟨bpm, read, rfl⟩ := Option.map_eq_some_iff.mp asks
    rw [read]
    rfl
  · obtain ⟨⟨numerator, denominator⟩, read, rfl⟩ := Option.map_eq_some_iff.mp asks
    rw [read]
    rfl
  · cases asks

/-- Neither the conductor nor the cursors notice what happens to repeats. -/
theorem repeats_unheard (active : Option TimelineId) (f : Repeats → Repeats) (s : Session) :
    ∃ t, (adjustRepeats active f).run s = .ok () t ∧ t.conductor = s.conductor ∧
      t.cursor active = s.cursor active := by
  cases active with
  | none => exact ⟨s, rfl, rfl, rfl⟩
  | some here =>
    refine ⟨_, rfl, rfl, ?_⟩
    have moved := Arena.timeline_adjust_or here here
      (fun t => { t with repeats := f t.repeats }) s.arena
    simp only [cursor, moved]
    split <;> rfl

/-- How a node reaches the conductor: what comes before does not change what it asks for. -/
theorem step_asks {queued : Queued} (asks : queued.node.request? = some event)
    (enough : 1 < s.gas.remaining) :
    ∃ u, u.conductor = s.conductor ∧ u.cursor active = s.cursor active ∧
      (step active queued).run s = (do
        conduct active queued.node.offset (·.enter event)
        if !queued.again then adjustRepeats active (Repeats.record queued.node)
        return (active, [])).run u := by
  obtain ⟨node, again⟩ := queued
  cases node with
  | «global» offset key value =>
    let paid : Session := { s with gas := ⟨s.gas.remaining - 1⟩ }
    have burnt : (burn (Node.global offset key value).offset).run s = .ok () paid := by
      rw [burn_run, if_neg (by omega)]
    obtain ⟨u, expired, heard, still⟩ := repeats_unheard active Repeats.expire paid
    cases again with
    | true =>
      refine ⟨paid, rfl, rfl, ?_⟩
      simp only [step, performNode, globalSetting_asks asks, Node.isItem, Bool.not_false,
        Bool.not_true, Bool.false_and, Bool.false_eq_true, reduceIte, bind_assoc, pure_bind]
      rw [EStateM.run_bind, burnt]
      rfl
    | false =>
      refine ⟨u, heard, still, ?_⟩
      simp only [step, performNode, globalSetting_asks asks, Node.isItem, Node.isSecondaVolta,
        Bool.not_false, Bool.and_self, reduceIte, bind_assoc, pure_bind]
      rw [EStateM.run_bind, burnt]
      dsimp only
      rw [EStateM.run_bind, expired]
      rfl
  | _ => cases asks

/-- A request that is granted enters its event where the active timeline has got to. -/
theorem step_enters {queued : Queued} {again : List Node}
    (asks : queued.node.request? = some event)
    (done : (step active queued).run s = .ok (active', again) t) :
    ∃ c, (Conductor.moveTo queued.node.offset (s.cursor active)).run s.conductor = .ok () c ∧
      t.conductor = c.enter event := by
  have enough : 1 < s.gas.remaining := by
    have burnt := step_burns done
    have solvent := step_solvent done
    omega
  obtain ⟨u, heard, still, same⟩ := step_asks asks enough
  rw [same] at done
  obtain ⟨_, v, conducted, done⟩ := Step.bind_ok done
  rw [conduct_run, heard, still] at conducted
  split at conducted
  · next c moved =>
    cases conducted
    refine ⟨c, moved, ?_⟩
    split at done
    · obtain ⟨w, recorded, after, -⟩ := repeats_unheard active (Repeats.record queued.node)
        { u with conductor := c.enter event }
      rw [EStateM.run_bind, recorded] at done
      cases done
      exact after
    · cases done
      rfl
  · exact nomatch conducted

end Requests

/-- The conductor is the same as before. -/
abbrev Led (c : Conductor) (s : Session) : Prop := s.conductor = c

/-- What the conductor does not notice. -/
theorem keeps_unheard {p : Play α} {c : Conductor}
    (unheard : ∀ {s a t}, p.run s = .ok a t → t.conductor = s.conductor) :
    Keeps (Led c) p fun _ => Led c := fun _ _ _ led done => (unheard done).trans led

section Quiet
variable {c : Conductor}

theorem led_startChannel (channel : Nat) : Keeps (Led c) (startChannel channel) fun _ => Led c :=
  keeps_unheard fun done => by
    cases done
    rfl

theorem led_activate (active : Option TimelineId) :
    Keeps (Led c) (activate active) fun _ => Led c := by
  cases active with
  | none => exact led_startChannel 1
  | some here => exact .pure id

theorem led_definitions (step : Step Definitions α) :
    Keeps (Led c) (onDefinitions step) fun _ => Led c := keeps_unheard fun {s a t} done => by
  have unfolded : (onDefinitions step).run s = _ := Step.within_run ..
  rw [unfolded] at done
  split at done
  · cases done
    rfl
  · exact nomatch done

theorem led_onRepeats {here : TimelineId} (step : Step Repeats α) :
    Keeps (Led c) (onRepeats here step) fun _ => Led c := keeps_unheard fun done => by
  obtain ⟨_, -, rfl⟩ := onArena_ok done
  rfl

theorem led_adjustRepeats (active : Option TimelineId) (f : Repeats → Repeats) :
    Keeps (Led c) (adjustRepeats active f) fun _ => Led c := keeps_unheard fun {s a t} done => by
  obtain ⟨u, same, heard, -⟩ := repeats_unheard active f s
  cases done.symm.trans same
  exact heard

theorem led_burn (offset : Nat) : Keeps (Led c) (burn offset) fun _ => Led c :=
  keeps_unheard fun done => by
    rw [burn_ok done]

/-- A setting that asks the conductor for nothing leaves it alone. -/
theorem led_globalSetting {offset : Nat} {key value : String}
    (quiet : (Node.global offset key value).request? = none) :
    Keeps (Led c) (globalSetting active offset key value) fun _ => Led c := by
  simp only [Node.request?] at quiet
  simp only [globalSetting]
  split at quiet
  · rw [Option.map_eq_none_iff.mp quiet]
    exact .failAt ..
  · rw [Option.map_eq_none_iff.mp quiet]
    exact .failAt ..
  · split
    · contradiction
    · contradiction
    · split
      · exact keeps_unheard fun done => by
          cases done
          rfl
      · exact .failAt ..
    · exact .failAt ..

theorem led_performNode {node : Node} (quiet : node.request? = none) :
    Keeps (Led c) (performNode active node) fun _ => Led c := by
  cases node with
  | item item =>
    refine (led_activate active).bind fun here => .read fun _ => ?_
    refine Keeps.bind (Q := fun _ => Led c) (fun s ticks t led done => ?_) fun _ => .pure id
    have member : here ∈ [here] := List.mem_cons_self
    exact (upkeep_conductor c).perform (m := s.measuring) member led done
  | «global» => exact (led_globalSetting quiet).bind fun _ => .pure id
  | channel =>
    refine (keeps_unheard fun done => ?_).bind fun _ =>
      (keeps_unheard fun {s here t} done => ?_).bind fun _ => .pure id
    · rw [ensureRepeatClosed_ok done]
    · rw [declareChannel_run] at done
      split at done
      · exact nomatch done
      · split at done
        · split at done
          · cases done
            rfl
          · exact nomatch done
        · cases done
          rfl
  | define | declareEmoji => exact (led_definitions _).bind fun _ => .pure id
  | repeatClose =>
    refine (led_activate active).bind fun _ => .read fun _ => ?_
    exact (led_onRepeats _).bind fun _ => .pure id
  | repeatOpen | volta =>
    exact (led_activate active).bind fun _ => (led_onRepeats _).bind fun _ => .pure id

/-- A node that asks the conductor for nothing leaves it alone. -/
theorem step_quiet {queued : Queued} {again : List Node} (quiet : queued.node.request? = none)
    (done : (step active queued).run s = .ok (active', again) t) : t.conductor = s.conductor := by
  have led : Keeps (Led s.conductor) (step active queued) fun _ => Led s.conductor := by
    unfold step
    refine Keeps.when (led_burn _) (Keeps.when (led_adjustRepeats ..) ?_)
    exact (led_performNode quiet).bind fun _ => Keeps.when (led_adjustRepeats ..) (.pure id)
  exact led rfl done

end Quiet

abbrev OnTime (s : Session) : Prop := s.conductor.Timely

theorem Round.onTime {c c' : Config} (round : Round c c') (timely : c.session.OnTime) :
    c'.session.OnTime := by
  obtain @⟨active, active', queued, rest, again, s, t, done⟩ := round
  change t.conductor.Timely
  cases asks : queued.node.request? with
  | none => rwa [step_quiet asks done]
  | some event =>
    obtain ⟨c, moved, entered⟩ := step_enters asks done
    have moved := timely.moveTo moved
    rw [entered]
    cases event with
    | filler wait => exact moved
    | tempo bpm => exact moved.setTempo (request_positive asks)
    | timeSignature numerator denominator => exact moved.setTimeSignature numerator denominator

theorem Rounds.onTime {c c' : Config} (rounds : Rounds c c') (timely : c.session.OnTime) :
    c'.session.OnTime := by
  induction rounds with
  | refl => exact timely
  | tail _ round ih => exact round.onTime ih

theorem Plays.onTime (plays : Plays score gas t) : t.conductor.Timely := by
  obtain ⟨_, rounds, -⟩ := drain_ok plays
  exact rounds.onTime Conductor.timely_new

end Session
end TextScore
