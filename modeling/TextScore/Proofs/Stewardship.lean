import TextScore.Proofs.Bodies
import TextScore.Proofs.Records

/-! From items to runs: an invariant that items keep and that nodes keep, too, holds wherever a run
of a good score gets to. -/
namespace TextScore

/-- The conductor stands where it is sent, with a filler in its log for the time in between. -/
theorem Conductor.moveTo_ok {offset tick : Nat} {c c' : Conductor}
    (done : (moveTo offset tick).run c = .ok () c') :
    c'.position = tick ∧ (c' = c ∨ c.position < tick ∧ c' = { c with
      events := c.events.push (.filler (tick - c.position)), position := tick }) := by
  obtain ⟨_, _, read, done⟩ := Step.bind_ok done
  cases read
  obtain ⟨before, done⟩ := Step.unless_ok done
  split at done
  · next behind =>
    cases done
    exact ⟨rfl, .inr ⟨behind, rfl⟩⟩
  · next there =>
    cases done
    exact ⟨by omega, .inl rfl⟩

namespace Session
open Step (Contract)

/-- What the conductor is told, with what is known of it. -/
inductive Directs : (Conductor → Conductor) → Prop
  | tempo (bpm : Binary64) : Directs (Conductor.setTempo bpm)
  | timeSignature {numerator denominator : Nat} (small : numerator ≤ 255) :
    Directs (Conductor.setTimeSignature numerator denominator)

/-- What nodes must keep besides the items that they are. -/
structure Stewardship (fits : List Modifier → Item → Prop) (P : List Modifier → Session → Prop)
    (good : Node → Prop) : Prop where
  custody : Custody (fun _ => True) fits P
  item : ∀ {item}, good (.item item) → fits [] item
  replay : ∀ {node again : Node}, good node → node.replay? = some again → good again
  begins : ∀ {channel} {s : Session}, 1 ≤ channel → channel ≤ 16 → P [] s → P [] { s with
    arena := (s.arena.create channel).2
    channels := s.channels.push s.arena.timelines.size }
  repeats : ∀ {here} (f : Repeats → Repeats) {s : Session}, P [] s → P [] { s with
    arena := s.arena.adjust here fun t => { t with repeats := f t.repeats } }
  define : ∀ {offset name body} {s : Session}, good (.define offset name body) → P [] s →
    P [] { s with definitions := { s.definitions with
      templates := (name, body) :: s.definitions.templates } }
  emojis : ∀ {s : Session} (emojis : List (String × Setting)), P [] s →
    P [] { s with definitions := { s.definitions with emojis := emojis } }
  conduct : ∀ {offset tick event c} {s : Session},
    tick = 0 ∨ (∃ here, tick = (s.arena.timeline here).position) →
    (Conductor.moveTo offset tick).run s.conductor = .ok () c → Directs event → P [] s →
    P [] { s with conductor := event c }
  fermata : ∀ {offset value factor} {s : Session}, good (.global offset "fermata" value) →
    fermata? value = some factor → P [] s → P [] { s with fermata := factor }

variable {fits : List Modifier → Item → Prop} {P : List Modifier → Session → Prop}
  {good : Node → Prop} {active : Option TimelineId} {here : TimelineId} {s t : Session} {α : Type}

/-- Between two nodes no ornament is left. -/
abbrev Settled (P : List Modifier → Session → Prop) (active : Option TimelineId) : Session → Prop :=
  Kept P [] false active.toList

/-- What every run keeps is kept here, too. -/
theorem settles {p : Play α} {f : α → Option TimelineId}
    (held : Keeps (Held (fun _ => True) active) p fun a => Held (fun _ => True) (f a))
    (keeps : ∀ {s a t}, Settled P active s → p.run s = .ok a t → P [] t) :
    Keeps (Settled P active) p fun a => Settled P (f a) :=
  fun _ _ _ kept done => ⟨(held ⟨kept.tended, trivial⟩ done).tended, keeps kept done⟩

theorem natural?_le {bound n : Nat} {text : String} (read : Text.natural? bound text = some n) :
    n ≤ bound := of_decide_eq_true (Option.filter_eq_some_iff.mp read).2

theorem timeSignature?_le {text : String} {numerator denominator : Nat}
    (read : timeSignature? text = some (numerator, denominator)) : numerator ≤ 255 := by
  simp only [timeSignature?, Option.bind_eq_bind, Option.bind_eq_some_iff] at read
  obtain ⟨parts, -, n, first, d, -, same⟩ := read
  cases same
  exact natural?_le (Option.filter_eq_some_iff.mp first).1

namespace Stewardship

private abbrev hand : Handover (Held fun _ => True) := handover_held lasts_true

/-- What a definition does if it is made. -/
theorem settles_definitions {step : Step Definitions Unit}
    (keeps : ∀ {s d}, P [] s → step.run s.definitions = .ok () d → P [] { s with definitions := d }) :
    Keeps (Settled P active) (onDefinitions step) fun _ => Settled P active := by
  refine settles (f := fun _ => active) (hand.definitions step) fun {s a t} kept done => ?_
  have unfolded : (onDefinitions step).run s = _ := Step.within_run ..
  rw [unfolded] at done
  split at done
  · next defined =>
    cases done
    exact keeps kept.holds defined
  · exact nomatch done

theorem burn (steward : Stewardship fits P good) (offset : Nat) :
    Keeps (Settled P active) (Session.burn offset) fun _ => Settled P active := by
  refine settles (f := fun _ => active) (hand.burn offset) fun {s a t} kept done => ?_
  rw [burn_run] at done
  split at done
  · exact nomatch done
  · cases done
    exact steward.custody.spend _ kept.holds

theorem startChannel (steward : Stewardship fits P good) {channel : Nat} (low : 1 ≤ channel)
    (high : channel ≤ 16) : Keeps (Settled P active) (Session.startChannel channel)
      fun here => Settled P (some here) := by
  refine settles (hand.startChannel channel) fun {s here t} kept done => ?_
  cases done
  exact steward.begins low high kept.holds

theorem activate (steward : Stewardship fits P good) :
    Keeps (Settled P active) (Session.activate active) fun here => Settled P (some here) := by
  cases active with
  | none => exact steward.startChannel (by decide) (by decide)
  | some here => exact .pure id

theorem declareChannel (steward : Stewardship fits P good) (offset id : Nat) (resume : Bool) :
    Keeps (Settled P active) (Session.declareChannel offset id resume)
      fun here => Settled P (some here) := by
  refine settles (hand.declareChannel offset id resume) fun {s here t} kept done => ?_
  rw [declareChannel_run] at done
  split at done
  · exact nomatch done
  · next valid =>
    split at done
    · split at done
      · cases done
        exact kept.holds
      · exact nomatch done
    · cases done
      exact steward.begins (by omega) (by omega) kept.holds

theorem adjustRepeats (steward : Stewardship fits P good) (f : Repeats → Repeats) :
    Keeps (Settled P active) (Session.adjustRepeats active f) fun _ => Settled P active := by
  refine settles (f := fun _ => active) (hand.adjustRepeats f) fun {s a t} kept done => ?_
  cases active with
  | none =>
    cases done
    exact kept.holds
  | some here =>
    cases done
    exact steward.repeats f kept.holds

theorem approach (steward : Stewardship fits P good) (again : Bool) :
    Keeps (Settled P active) (Session.approach active again) fun here => Settled P (some here) := by
  unfold Session.approach
  exact Keeps.when (steward.adjustRepeats _) steward.activate

theorem onRepeats (steward : Stewardship fits P good) (step : Step Repeats α) :
    Keeps (Settled P (some here)) (Session.onRepeats here step) fun _ => Settled P (some here) := by
  refine settles (f := fun _ => some here) (hand.onRepeats step) fun {s a t} kept done => ?_
  rw [onRepeats_run] at done
  split at done
  · next r _ =>
    cases done
    exact steward.repeats (fun _ => r) kept.holds
  · exact nomatch done

theorem conducts (steward : Stewardship fits P good) (offset : Nat) {event : Conductor → Conductor}
    (directs : Directs event) :
    Keeps (Settled P active) (Session.conduct active offset event) fun _ => Settled P active := by
  refine settles (f := fun _ => active) (hand.conduct offset event) fun {s a t} kept done => ?_
  have moved {tick : Nat} (stands : tick = 0 ∨ ∃ here, tick = (s.arena.timeline here).position)
      (done : (do
        onConductor (Conductor.moveTo offset tick)
        modify fun s => { s with conductor := event s.conductor } : Play PUnit).run s = .ok a t) :
      P [] t := by
    obtain ⟨_, u, ran, done⟩ := Step.bind_ok done
    have unfolded : (onConductor (Conductor.moveTo offset tick)).run s = _ := Step.within_run ..
    rw [unfolded] at ran
    split at ran
    · next _ c moved =>
      cases ran
      cases done
      exact steward.conduct (s := s) (c := c) stands moved directs kept.holds
    · exact nomatch ran
  cases active with
  | none => exact moved (.inl rfl) done
  | some here => exact moved (.inr ⟨here, rfl⟩) done

theorem globalSetting (steward : Stewardship fits P good) {offset : Nat} {key value : String}
    (real : good (.global offset key value)) :
    Keeps (Settled P active) (Session.globalSetting active offset key value)
      fun _ => Settled P active := by
  simp only [Session.globalSetting]
  split
  · split
    · exact steward.conducts offset (.tempo _)
    · exact .failAt ..
  · split
    · next read => exact steward.conducts offset (.timeSignature (timeSignature?_le read))
    · exact .failAt ..
  · split
    · next factor read =>
      have held : Keeps (Held (fun _ => True) active)
          (modify fun s => { s with fermata := factor } : Play PUnit)
          fun _ => Held (fun _ => True) active := fun s a t held done => by
        cases done
        exact hand.aside held rfl rfl rfl (Nat.le_refl _)
      refine settles (f := fun _ => active) held fun {s a t} kept done => ?_
      cases done
      exact steward.fermata real read kept.holds
    · exact .failAt ..
  · exact .failAt ..

theorem performNode (steward : Stewardship fits P good) {node : Node} (real : good node) :
    Keeps (Settled P active) (Session.performNode active node) fun next => Settled P next.1 := by
  cases node with
  | item item =>
    refine steward.activate.bind fun here => Keeps.read fun _ => ?_
    refine Keeps.bind (Q := fun _ => Settled P (some here)) (fun s ticks t kept done => ?_)
      fun _ => .pure fun kept => kept
    exact (steward.custody.perform _ List.mem_cons_self 0 (steward.item real)).ok kept done
  | «global» => exact (steward.globalSetting real).bind fun _ => .pure id
  | channel offset id resume =>
    refine Keeps.bind (Q := fun _ => Settled P active) (fun s a t kept done => ?_) fun _ =>
      (steward.declareChannel offset id resume).bind fun _ => .pure fun kept => kept
    exact ensureRepeatClosed_ok done ▸ kept
  | define offset name template =>
    refine (settles_definitions fun {s d} holds done => ?_).bind fun _ => .pure id
    obtain ⟨_, _, read, done⟩ := Step.bind_ok done
    cases read
    cases (Step.unless_ok done).2
    exact steward.define real holds
  | declareEmoji offset symbol setting =>
    refine (settles_definitions fun {s d} holds done => ?_).bind fun _ => .pure id
    obtain ⟨_, _, read, done⟩ := Step.bind_ok done
    cases read
    cases (Step.unless_ok done).2
    exact steward.emojis _ holds
  | repeatOpen offset =>
    exact steward.activate.bind fun here => (steward.onRepeats _).bind fun _ => .pure fun kept => kept
  | repeatClose offset count =>
    refine steward.activate.bind fun here => Keeps.read fun _ => ?_
    exact (steward.onRepeats _).bind fun _ => .pure fun kept => kept
  | volta offset ending =>
    exact steward.activate.bind fun here => (steward.onRepeats _).bind fun _ => .pure fun kept => kept

theorem step (steward : Stewardship fits P good) {queued : Queued} (real : good queued.node) :
    Keeps (Settled P active) (Session.step active queued) fun next => Settled P next.1 := by
  unfold Session.step
  refine Keeps.when (steward.burn _) (Keeps.when (steward.adjustRepeats _) ?_)
  refine (steward.performNode real).bind fun next => ?_
  exact Keeps.when (steward.adjustRepeats _) (.pure id)

theorem succession (steward : Stewardship fits P good) :
    Succession (Settled P) good fun _ => good where
  step kept real done := steward.step (by split at real <;> exact real) kept done
  lasts _ _ _ real := real
  settles _ real _ played _ := steward.replay real played

/-- Wherever a run of a good score gets to, the invariant holds, and all nodes are good. -/
theorem meets (steward : Stewardship fits P good) {gas : Nat} {score : List Node}
    (begins : P [] { gas := ⟨gas⟩ }) (nodes : ∀ node ∈ score, good node) {c : Config}
    (rounds : Rounds (.start gas score) c) : c.Meets (Settled P) good fun _ => good :=
  steward.succession.rounds rounds
    (.start ⟨(held_start (P := fun _ => True) trivial gas score).tended, begins⟩ nodes)

theorem plays (steward : Stewardship fits P good) {gas : Nat} {score : List Node}
    (begins : P [] { gas := ⟨gas⟩ }) (nodes : ∀ node ∈ score, good node) {t : Session}
    (plays : Plays score gas t) : P [] t ∧ ∃ active, t.Tended false active := by
  obtain ⟨last, rounds, -⟩ := drain_ok plays
  have kept := (steward.meets begins nodes rounds).session
  exact ⟨kept.holds, _, kept.tended⟩

end Stewardship
end Session
end TextScore
