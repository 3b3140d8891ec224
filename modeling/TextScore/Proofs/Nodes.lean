import TextScore.Proofs.Effects
import TextScore.Proofs.Runs

/-! Invariants of runs, node by node. What one node hands over to the next is kept by every node as
soon as a few kinds of changes keep it: performing an item, changing the repeats of the active
timeline, and making a timeline active. -/
namespace TextScore.Session

section Keeps
variable {α β : Type} {P : Session → Prop} {Q : α → Session → Prop} {R : β → Session → Prop}

/-- Every result of a step that starts in the first invariant is in the second one. -/
def Keeps (P : Session → Prop) (p : Play α) (Q : α → Session → Prop) : Prop :=
  ∀ ⦃s a t⦄, P s → p.run s = .ok a t → Q a t

theorem Keeps.bind {p : Play α} {f : α → Play β} (first : Keeps P p Q)
    (second : ∀ a, Keeps (Q a) (f a) R) : Keeps P (p >>= f) R := by
  intro s b u before done
  obtain ⟨a, t, ran, done⟩ := Step.bind_ok done
  exact second a (first before ran) done

theorem Keeps.pure {a : α} (h : ∀ {s}, P s → Q a s) : Keeps P (Pure.pure a) Q := by
  intro s b t before done
  cases done
  exact h before

theorem Keeps.failAt (offset : Nat) (cause : Cause) : Keeps P (Step.failAt offset cause) Q :=
  fun _ _ _ _ done => nomatch done

theorem Keeps.unless {c : Prop} [Decidable c] {offset : Nat} {cause : Cause}
    {f : PUnit → Play α} (rest : ¬ c → Keeps P (f ⟨⟩) Q) :
    Keeps P (if c then Step.failAt offset cause >>= f else f ⟨⟩) Q := by
  intro s a t before done
  obtain ⟨refused, done⟩ := Step.unless_ok done
  exact rest refused before done

theorem Keeps.when {c : Prop} [Decidable c] {p : Play PUnit} {f : PUnit → Play α}
    (first : Keeps P p fun _ => P) (rest : Keeps P (f ⟨⟩) Q) :
    Keeps P (if c then p >>= f else f ⟨⟩) Q := by
  split
  · exact first.bind fun _ => rest
  · exact rest

theorem Keeps.read {f : Session → Play α} (rest : ∀ s, Keeps P (f s) Q) :
    Keeps P (get >>= f) Q :=
  fun s _ _ before done => rest s before done

end Keeps

/-- An invariant of a session and its active timeline that looks at timelines only, and is kept when
another one is made active. -/
structure Passing (I : (active : Option TimelineId) → Session → Prop) : Prop where
  aside : ∀ {active} {s t : Session}, I active s → t.arena = s.arena → t.channels = s.channels →
    t.measuring = s.measuring → t.gas.remaining ≤ s.gas.remaining → I active t
  start : ∀ {active} {s : Session} (channel : Nat), I active s → I (some s.arena.timelines.size)
    { s with
      arena := (s.arena.create channel).2
      channels := s.channels.push s.arena.timelines.size }
  resume : ∀ {active here} {s : Session}, I active s → here ∈ s.channels.toList → I (some here) s

/-- An invariant that holds from one node to the next. -/
structure Handover (I : (active : Option TimelineId) → Session → Prop) : Prop extends Passing I where
  repeats : ∀ {here} {s : Session} (f : Repeats → Repeats), I (some here) s → I (some here)
    { s with arena := s.arena.adjust here fun t => { t with repeats := f t.repeats } }
  item : ∀ {here depth item ticks} {s t : Session}, I (some here) s →
    (perform depth here 0 item).run s = .ok ticks t → I (some here) t

namespace Passing
variable {I : (active : Option TimelineId) → Session → Prop} {active : Option TimelineId} {α : Type}

theorem burn (pass : Passing I) (offset : Nat) :
    Keeps (I active) (Session.burn offset) fun _ => I active := by
  intro s a t held done
  rw [burn_run] at done
  split at done
  · exact nomatch done
  · cases done
    exact pass.aside held rfl rfl rfl (Nat.sub_le ..)

theorem definitions (pass : Passing I) (step : Step Definitions α) :
    Keeps (I active) (onDefinitions step) fun _ => I active := by
  intro s a t held done
  have unfolded : (onDefinitions step).run s = _ := Step.within_run ..
  rw [unfolded] at done
  split at done
  · cases done
    exact pass.aside held rfl rfl rfl (Nat.le_refl _)
  · exact nomatch done

theorem conductor (pass : Passing I) (step : Step Conductor α) :
    Keeps (I active) (onConductor step) fun _ => I active := by
  intro s a t held done
  have unfolded : (onConductor step).run s = _ := Step.within_run ..
  rw [unfolded] at done
  split at done
  · cases done
    exact pass.aside held rfl rfl rfl (Nat.le_refl _)
  · exact nomatch done

theorem conduct (pass : Passing I) (offset : Nat) (event : Conductor → Conductor) :
    Keeps (I active) (Session.conduct active offset event) fun _ => I active := by
  have moved (position : Nat) : Keeps (I active) (do
      onConductor (Conductor.moveTo offset position)
      modify fun s => { s with conductor := event s.conductor }) fun _ => I active := by
    refine (pass.conductor _).bind fun _ s a t held done => ?_
    cases done
    exact pass.aside held rfl rfl rfl (Nat.le_refl _)
  intro s a t held done
  cases active with
  | none => exact moved 0 held done
  | some here => exact moved _ held done

theorem globalSetting (pass : Passing I) (offset : Nat) (key value : String) :
    Keeps (I active) (Session.globalSetting active offset key value) fun _ => I active := by
  simp only [Session.globalSetting]
  split
  · split
    · exact pass.conduct ..
    · exact .failAt ..
  · split
    · exact pass.conduct ..
    · exact .failAt ..
  · split
    · intro s a t held done
      cases done
      exact pass.aside held rfl rfl rfl (Nat.le_refl _)
    · exact .failAt ..
  · exact .failAt ..

theorem startChannel (pass : Passing I) (channel : Nat) :
    Keeps (I active) (Session.startChannel channel) fun here => I (some here) := by
  intro s here t held done
  cases done
  exact pass.start channel held

theorem activate (pass : Passing I) :
    Keeps (I active) (Session.activate active) fun here => I (some here) := by
  cases active with
  | none => exact pass.startChannel 1
  | some here => exact .pure id

/-- A channel that goes on is one of the roots. -/
theorem declareChannel (pass : Passing I) (offset id : Nat) (resume : Bool) :
    Keeps (I active) (Session.declareChannel offset id resume) fun here => I (some here) := by
  unfold Session.declareChannel
  apply Keeps.unless
  intro _
  split
  · intro s here t held done
    simp only [EStateM.run_bind, EStateM.run_get] at done
    split at done
    · next found =>
      cases done
      exact pass.resume held (List.mem_reverse.mp (List.mem_of_find?_eq_some found))
    · exact nomatch done
  · exact pass.startChannel id

end Passing

namespace Handover
variable {I : (active : Option TimelineId) → Session → Prop} {active : Option TimelineId}
  {here : TimelineId} {s t : Session} {α : Type}

theorem adjustRepeats (hand : Handover I) (f : Repeats → Repeats) :
    Keeps (I active) (Session.adjustRepeats active f) fun _ => I active := by
  intro s a t held done
  cases active with
  | none =>
    cases done
    exact held
  | some here =>
    cases done
    exact hand.repeats f held

theorem onRepeats (hand : Handover I) (step : Step Repeats α) :
    Keeps (I (some here)) (Session.onRepeats here step) fun _ => I (some here) := by
  intro s a t held done
  obtain ⟨arena, ran, rfl⟩ := onArena_ok done
  rw [Arena.on_run] at ran
  split at ran
  · next stepped =>
    cases ran
    have unfolded : (Timeline.onRepeats step).run (s.arena.timeline here) = _ := Step.within_run ..
    rw [unfolded] at stepped
    split at stepped
    · next r _ =>
      cases stepped
      rw [Arena.adjust_congr (g := fun t => { t with repeats := r }) rfl]
      exact hand.repeats (fun _ => r) held
    · exact nomatch stepped
  · exact nomatch ran

theorem performNode (hand : Handover I) (node : Node) :
    Keeps (I active) (Session.performNode active node) fun next => I next.1 := by
  cases node with
  | item item =>
    refine hand.activate.bind fun here => Keeps.read fun _ => ?_
    exact Keeps.bind (Q := fun _ => I (some here)) (fun _ _ _ held done => hand.item held done)
      fun _ => .pure fun held => held
  | global offset key value => exact (hand.globalSetting offset key value).bind fun _ => .pure id
  | channel offset id resume =>
    refine Keeps.bind (Q := fun _ => I active) ?_ fun _ =>
      (hand.declareChannel offset id resume).bind fun _ => .pure fun held => held
    intro s a t held done
    exact ensureRepeatClosed_ok done ▸ held
  | define offset name template => exact (hand.definitions _).bind fun _ => .pure id
  | declareEmoji offset symbol setting => exact (hand.definitions _).bind fun _ => .pure id
  | repeatOpen offset =>
    exact hand.activate.bind fun here => (hand.onRepeats _).bind fun _ => .pure id
  | repeatClose offset count =>
    refine hand.activate.bind fun here => Keeps.read fun _ => ?_
    exact (hand.onRepeats _).bind fun _ => .pure fun held => held
  | volta offset ending =>
    exact hand.activate.bind fun here => (hand.onRepeats _).bind fun _ => .pure id

theorem approach (hand : Handover I) (again : Bool) :
    Keeps (I active) (Session.approach active again) fun here => I (some here) := by
  unfold Session.approach
  exact Keeps.when (hand.adjustRepeats _) hand.activate

/-- What a node does beyond burning gas. -/
theorem attend (hand : Handover I) (queued : Queued) :
    Keeps (I active) (do
      if !queued.again && !queued.node.isSecondaVolta then
        Session.adjustRepeats active Repeats.expire
      let next ← Session.performNode active queued.node
      if !queued.again then Session.adjustRepeats next.1 (Repeats.record queued.node)
      return next) fun next => I next.1 := by
  refine Keeps.when (hand.adjustRepeats _) ?_
  refine (hand.performNode queued.node).bind fun next => ?_
  exact Keeps.when (hand.adjustRepeats _) (.pure id)

theorem step (hand : Handover I) (queued : Queued) :
    Keeps (I active) (Session.step active queued) fun next => I next.1 := by
  unfold Session.step
  exact Keeps.when (hand.burn _) (hand.attend queued)

theorem rounds (hand : Handover I) {c c' : Config} (rounds : Rounds c c')
    (held : I c.active c.session) : I c'.active c'.session := by
  induction rounds with
  | refl => exact held
  | tail _ round ih =>
    obtain ⟨done⟩ := round
    exact hand.step _ ih done

end Handover

end TextScore.Session
