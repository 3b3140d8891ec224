import TextScore.Proofs.TwinRuns

/-! What burning gas has no part in. Every step of a run but one neither reads nor writes the gas that is
left, and that one fails when it burns the last unit. -/
namespace TextScore.Session

variable {depth : Nat} {s t : Session} {here : TimelineId} {active : Option TimelineId} {α β : Type}

def withGas (gas : Gas) (s : Session) : Session := { s with gas := gas }

/-- A step that gas has no part in. -/
def Gasless (p : Play α) : Prop := ∀ gas s, p.run (withGas gas s) = match p.run s with
  | .ok a t => .ok a (t.withGas gas)
  | .error fault t => .error fault (t.withGas gas)

namespace Gasless

theorem ok {p : Play α} (gasless : Gasless p) {a : α} (done : p.run s = .ok a t) : t.gas = s.gas := by
  have same : p.run s = _ := gasless s.gas s
  rw [done] at same
  dsimp only at same
  injection same with _ same
  rw [same]
  rfl

theorem pure (a : α) : Gasless (Pure.pure a) := fun _ _ => rfl

theorem failAt (offset : Nat) (cause : Cause) : Gasless (Step.failAt offset cause : Play α) :=
  fun _ _ => rfl

theorem bind {p : Play α} {f : α → Play β} (first : Gasless p) (second : ∀ a, Gasless (f a)) :
    Gasless (p >>= f) := by
  intro gas s
  rw [EStateM.run_bind, EStateM.run_bind, first gas s]
  cases p.run s with
  | ok a t => exact second a gas t
  | error fault t => rfl

theorem read {f : α → Play β} (view : Session → α) (blind : ∀ gas s, view (withGas gas s) = view s)
    (rest : ∀ a, Gasless (f a)) : Gasless (get >>= fun s => f (view s)) := by
  intro gas s
  have view' := blind gas s
  have both : (f (view (withGas gas s))).run (withGas gas s) = _ := rest _ gas s
  rw [view'] at both
  rw [EStateM.run_bind, EStateM.run_bind, EStateM.run_get, EStateM.run_get]
  dsimp only
  rw [view', both]

theorem modify {f : Session → Session} (blind : ∀ gas s, f (withGas gas s) = withGas gas (f s)) :
    Gasless (modify f) := by
  intro gas s
  rw [EStateM.run_modify, EStateM.run_modify, blind]

theorem onArena (step : Step Arena α) : Gasless (onArena step) := by
  intro gas s
  rw [onArena_run, onArena_run]
  have arena : (s.withGas gas).arena = s.arena := rfl
  rw [arena]
  cases step.run s.arena <;> rfl

theorem onDefinitions (step : Step Definitions α) : Gasless (onDefinitions step) := by
  intro gas s
  rw [Session.onDefinitions, Step.within_run, Step.within_run]
  have definitions : (s.withGas gas).definitions = s.definitions := rfl
  rw [definitions]
  cases step.run s.definitions <;> rfl

theorem onConductor (step : Step Conductor α) : Gasless (onConductor step) := by
  intro gas s
  rw [Session.onConductor, Step.within_run, Step.within_run]
  have conductor : (s.withGas gas).conductor = s.conductor := rfl
  rw [conductor]
  cases step.run s.conductor <;> rfl

end Gasless

/-- Every primitive step but one has no part in the gas. -/
theorem Primitive.by_gas {motive : ∀ {α : Type}, Play α → Prop} {p : Play α}
    (primitive : Primitive here p) (burns : ∀ offset, motive (Session.burn offset))
    (rest : ∀ {α : Type} {p : Play α}, Gasless p → motive p) : motive p := by
  cases primitive with
  | burn offset => exact burns offset
  | definitions request => exact rest (.onDefinitions _)
  | beginTuplet | reserve | rest | note | arpeggio | tie => exact rest (.onArena _)
  | change | modifiers | graces | onsets | restore => exact rest (.modify fun _ _ => rfl)

theorem gasless_startChannel (channel : Nat) : Gasless (startChannel channel) :=
  (Gasless.onArena _).bind fun here => (Gasless.modify fun _ _ => rfl).bind fun _ => .pure here

theorem gasless_activate : Gasless (activate active) := by
  cases active with
  | none => exact gasless_startChannel 1
  | some here => exact .pure here

theorem gasless_adjustRepeats (f : Repeats → Repeats) : Gasless (adjustRepeats active f) := by
  cases active with
  | none => exact .pure _
  | some here => exact .modify fun _ _ => rfl

theorem gasless_ensureRepeatClosed : Gasless (ensureRepeatClosed active) := by
  intro gas s
  rw [ensureRepeatClosed_run, ensureRepeatClosed_run]
  cases active with
  | none => rfl
  | some here =>
    have arena : (s.withGas gas).arena = s.arena := rfl
    dsimp only
    rw [arena]
    cases (s.arena.repeats here).capture <;> rfl

theorem gasless_declareChannel (offset id : Nat) (resume : Bool) :
    Gasless (declareChannel offset id resume) := by
  intro gas s
  rw [declareChannel_run, declareChannel_run]
  have latest : (s.withGas gas).latest? id = s.latest? id := rfl
  rw [latest]
  split
  · rfl
  · split
    · cases s.latest? id <;> rfl
    · exact gasless_startChannel id gas s

theorem gasless_globalSetting (offset : Nat) (key value : String) :
    Gasless (globalSetting active offset key value) := by
  have moved (position : Nat) (event : Conductor → Conductor) : Gasless (do
      onConductor (Conductor.moveTo offset position)
      modify fun s => { s with conductor := event s.conductor }) :=
    (Gasless.onConductor _).bind fun _ => .modify fun _ _ => rfl
  have conducted (event : Conductor → Conductor) : Gasless (conduct active offset event) := by
    cases active with
    | none => exact moved 0 event
    | some here =>
      exact .read (fun s => (s.arena.timeline here).position) (fun _ _ => rfl) fun position =>
        moved position event
  simp only [globalSetting]
  split
  · split
    · exact conducted _
    · exact .failAt _ _
  · split
    · exact conducted _
    · exact .failAt _ _
  · split
    · exact .modify fun _ _ => rfl
    · exact .failAt _ _
  · exact .failAt _ _

/-- Nodes that are no items look at the gas only where they close a repeat. -/
theorem gasless_performNode {node : Node} (other : node.isItem = false)
    (unclosing : ∀ offset count, node ≠ .repeatClose offset count) :
    Gasless (performNode active node) := by
  have done {p : Play Unit} (gasless : Gasless p) :
      Gasless (do p; return (active, ([] : List Node))) := gasless.bind fun _ => .pure _
  cases node with
  | item item => exact nomatch other
  | channel offset id resume =>
    exact gasless_ensureRepeatClosed.bind fun _ =>
      (gasless_declareChannel offset id resume).bind fun _ => .pure _
  | «global» offset key value => exact done (gasless_globalSetting offset key value)
  | define | declareEmoji => exact done (.onDefinitions _)
  | repeatOpen | volta =>
    exact gasless_activate.bind fun here => (Gasless.onArena _).bind fun _ => .pure _
  | repeatClose offset count => exact absurd rfl (unclosing offset count)

/-- Burning the last unit fails. -/
theorem burn_solvent {offset : Nat} (done : (burn offset).run s = .ok () t) : 0 < t.gas.remaining := by
  rw [burn_run] at done
  split at done
  · exact nomatch done
  · next left =>
    cases done
    exact Nat.pos_of_ne_zero left

theorem upkeep_solvent : Upkeep fun _ _ s => 0 < s.gas.remaining where
  shrink _ := id
  primitive {m live here α p s t a} _ primitive solvent done := by
    refine primitive.by_gas (motive := fun p => ∀ a t, p.run s = .ok a t → 0 < t.gas.remaining)
      (fun offset a t => burn_solvent) (fun {β q} gasless a t done => ?_) a t done
    rwa [gasless.ok done]
  branch _ solvent done := by rwa [(Gasless.onArena _).ok done]
  copy := id

theorem perform_solvent {references ticks : Nat} {item : Item}
    (done : (perform depth here references item).run s = .ok ticks t) : 0 < t.gas.remaining :=
  (upkeep_solvent.burnt done Nat.sub_pos_of_lt).2

theorem performNode_solvent (node : Node) :
    Keeps (fun s => node.isItem = false → 0 < s.gas.remaining) (performNode active node)
      fun _ s => 0 < s.gas.remaining := by
  intro s next t solvent done
  have plain (other : node.isItem = false)
      (unclosing : ∀ offset count, node ≠ .repeatClose offset count) : 0 < t.gas.remaining := by
    rw [(gasless_performNode other unclosing).ok done]
    exact solvent other
  cases node with
  | item item =>
    obtain ⟨here, u, -, done⟩ := Step.bind_ok done
    obtain ⟨_, _, read, done⟩ := Step.bind_ok done
    cases read
    obtain ⟨ticks, v, performed, done⟩ := Step.bind_ok done
    cases done
    exact perform_solvent performed
  | repeatClose offset count =>
    obtain ⟨here, u, activated, done⟩ := Step.bind_ok done
    obtain ⟨_, _, read, done⟩ := Step.bind_ok done
    cases read
    obtain ⟨again, v, closed, done⟩ := Step.bind_ok done
    cases done
    rw [(Gasless.onArena _).ok closed, gasless_activate.ok activated]
    exact solvent rfl
  | _ => exact plain rfl nofun

theorem step_solvent {queued : Queued} {next : Option TimelineId × List Node}
    (done : (step active queued).run s = .ok next t) : 0 < t.gas.remaining := by
  obtain ⟨node, played⟩ := queued
  have adjusted (P : Gas → Prop) (active : Option TimelineId) (f : Repeats → Repeats) :
      Keeps (fun s => P s.gas) (adjustRepeats active f) fun _ s => P s.gas := by
    intro s a t held done
    rwa [(gasless_adjustRepeats f).ok done]
  have attended : Keeps (fun s => node.isItem = false → 0 < s.gas.remaining) (do
      if !played && !node.isSecondaVolta then adjustRepeats active Repeats.expire
      let next ← performNode active node
      if !played then adjustRepeats next.1 (Repeats.record node)
      return next) fun _ s => 0 < s.gas.remaining := by
    refine Keeps.when (adjusted (fun gas => node.isItem = false → 0 < gas.remaining) ..) ?_
    refine (performNode_solvent node).bind fun next => ?_
    exact Keeps.when (adjusted (fun gas => 0 < gas.remaining) ..) (.pure id)
  cases mark : node.isItem with
  | true =>
    simp only [step, mark, Bool.not_true, Bool.false_eq_true, reduceIte] at done
    exact attended (fun other => by cases mark.symm.trans other) done
  | false =>
    simp only [step, mark, Bool.not_false, reduceIte] at done
    obtain ⟨_, u, burnt, done⟩ := Step.bind_ok done
    exact attended (fun _ => burn_solvent burnt) done

section Runs
variable {rounds : Nat} {queue : List Queued} {score : List Node}

/-- Every node of the queue burns gas. -/
theorem drain_spends (done : (drain rounds active queue).run s = .ok () t) :
    t.gas.remaining + queue.length ≤ s.gas.remaining := by
  induction rounds generalizing active queue s with
  | zero => cases queue with
    | nil => exact Nat.le_of_eq (congrArg Gas.remaining (gasless_ensureRepeatClosed.ok done))
    | cons queued rest => exact nomatch done
  | succ rounds ih => cases queue with
    | nil => exact Nat.le_of_eq (congrArg Gas.remaining (gasless_ensureRepeatClosed.ok done))
    | cons queued rest =>
      obtain ⟨⟨active', again⟩, u, stepped, done⟩ := Step.bind_ok done
      have burnt := step_burns stepped
      have spent := ih done
      rw [List.length_append] at spent
      rw [List.length_cons]
      omega

theorem drain_solvent (done : (drain rounds active queue).run s = .ok () t)
    (solvent : queue = [] → 0 < s.gas.remaining) : 0 < t.gas.remaining := by
  induction rounds generalizing active queue s with
  | zero => cases queue with
    | nil =>
      rw [gasless_ensureRepeatClosed.ok done]
      exact solvent rfl
    | cons queued rest => exact nomatch done
  | succ rounds ih => cases queue with
    | nil =>
      rw [gasless_ensureRepeatClosed.ok done]
      exact solvent rfl
    | cons queued rest =>
      obtain ⟨next, u, stepped, done⟩ := Step.bind_ok done
      exact ih done fun _ => step_solvent stepped

/-- A score that is not empty is never played for the last unit of gas. -/
theorem run_solvent {gas : Nat} (nonempty : score ≠ [])
    (plays : (run score).run { gas := ⟨gas⟩ } = .ok () t) : 0 < t.gas.remaining :=
  drain_solvent plays fun empty => absurd (List.map_eq_nil_iff.mp empty) nonempty

end Runs

end TextScore.Session
