import TextScore.Proofs.Depths
import TextScore.Proofs.Rehearsal
import TextScore.Proofs.Gasless

/-! Gas is a threshold and nothing else. A run with more gas does the same and keeps the difference,
and one that has no more than a run burns runs out of it. -/
namespace TextScore

theorem Repeats.length_copies (count : Nat) (nodes : List Node) :
    (copies count nodes).length = count * nodes.length := by
  unfold copies
  split
  · next empty => rw [List.isEmpty_iff.mp empty, List.length_nil, Nat.mul_zero]
  · rw [List.length_flatten, List.map_replicate, List.sum_replicate_nat]

/-- With a larger budget a close does the same, or plays again what the smaller one could not have
paid for. -/
theorem Repeats.close_budget (offset : Nat) (count : Option Nat) (budget k : Nat) (r : Repeats) :
    (close offset count budget).run r = (close offset count (budget + k)).run r ∨
      ∃ r' again r'', (close offset count budget).run r = .error ⟨.exhausted, offset⟩ r' ∧
        (close offset count (budget + k)).run r = .ok again r'' ∧ budget ≤ again.length := by
  rw [close_run, close_run]
  split
  · exact .inl rfl
  split
  · exact .inl rfl
  split
  · next short =>
    split
    · exact .inl rfl
    · refine .inr ⟨_, _, _, rfl, rfl, ?_⟩
      rwa [length_copies, Array.length_toList]
  · rw [if_neg (by omega)]
    exact .inl rfl

namespace Session
open Step (Follows)

variable {k owed depth : Nat} {s s' t : Session} {here : TimelineId} {α : Type}

/-- The same session with so much more gas. -/
def spare (k : Nat) (s : Session) : Session := s.withGas ⟨s.gas.remaining + k⟩

/-- Gas left over changes nothing, and where the run with less of it has run out the other one has no
more left than the difference, and what it owes for nodes that it will play again. -/
def thrifty (k owed : Nat) : Coupling Session where
  both s s' := s' = s.spare k
  alone fault s' := fault.cause = .exhausted ∧ s'.gas.remaining ≤ k + owed

theorem Gasless.follows {p : Play α} (gasless : Gasless p) :
    Follows Excused (thrifty k owed) p p fun _ => thrifty k owed := by
  constructor
  · rintro s _ rfl
    cases done : p.run s with
    | ok a t =>
      have gas := gasless.ok done
      rw [spare, gasless, done]
      refine ⟨rfl, ?_⟩
      rw [← gas]
      rfl
    | error fault t =>
      rw [spare, gasless, done]
      exact .inr rfl
  · rintro fault s' ⟨exhausted, less⟩
    cases done : p.run s' with
    | ok a t =>
      refine ⟨exhausted, ?_⟩
      rw [gasless.ok done]
      exact less
    | error fault' t => exact .inl exhausted

theorem thrifty_burn (offset : Nat) :
    Follows Excused (thrifty k owed) (burn offset) (burn offset) fun _ => thrifty k owed := by
  constructor
  · rintro s _ rfl
    rw [burn_run, burn_run]
    have gas : (s.spare k).gas.remaining = s.gas.remaining + k := rfl
    by_cases last : s.gas.remaining - 1 = 0
    · rw [if_pos last]
      split
      · exact .inl rfl
      · refine ⟨rfl, ?_⟩
        dsimp only
        omega
    · rw [if_neg last, if_neg (by omega)]
      refine ⟨rfl, ?_⟩
      rw [gas]
      have more : s.gas.remaining + k - 1 = s.gas.remaining - 1 + k := by omega
      rw [more]
      rfl
  · rintro fault s' ⟨exhausted, less⟩
    rw [burn_run]
    split
    · exact .inl exhausted
    · refine ⟨exhausted, ?_⟩
      dsimp only
      omega

theorem unison_thrifty : Unison Excused fun _ _ => thrifty k owed where
  reflexive _ := .inr rfl
  loose left _ := .inl left.1
  alike := by
    rintro _ _ s _ rfl
    exact ⟨fun _ => ⟨rfl, rfl, rfl⟩, rfl, rfl, rfl, rfl, rfl, rfl⟩
  shrink _ := .refl _
  primitive _ primitive := by
    refine primitive.by_gas (motive := fun p => Follows Excused (thrifty k owed) p p fun _ =>
      thrifty k owed) thrifty_burn fun gasless => gasless.follows
  branch _ _ _ := (Gasless.onArena _).follows

section Dynamics
variable {references : Nat} {ramp : Ramp} {body : List Item} {ticks : Nat}

/-- A span that is played for real takes the gas that its measurement took. -/
theorem shaded_gas (real : s.measuring = false)
    (played : (underModifier (perform depth) here references (.dynamics ramp) body).run s =
      .ok ticks t) :
    ∃ u, (performAll (perform depth) here references body).run s.measured = .ok ticks u ∧
      u.gas = t.gas := by
  obtain ⟨_, _, pushed, played⟩ := Step.bind_ok played
  cases pushed
  obtain ⟨_, v, performed, played⟩ := Step.bind_ok played
  cases played
  obtain ⟨w, afresh, unheard⟩ := performed_afresh performed
  obtain ⟨u, measured, after⟩ := rehearsed (s := { s with onsets := none }) ramp here references depth
    body real afresh
  exact ⟨u, measured, congrArg Gas.mk (after.gas.trans unheard.gas)⟩

/-- The copy that is measured has the gas of the session. If it runs out in one run and not in the
other, what comes after the measurement leaves that one no more than the copy has left. -/
theorem thrifty_measure {offset : Nat} {f : Nat × Nat → Play Nat}
    (all : Follows Excused (thrifty k owed) (performAll (perform depth) here references body)
      (performAll (perform depth) here references body) fun _ => thrifty k owed)
    (rest : ∀ bounds, Follows Excused (thrifty k owed) (f bounds) (f bounds) fun _ => thrifty k owed)
    (charged : ∀ {bounds ticks t}, (f bounds).run (s.spare k) = .ok ticks t →
      ∃ u, (performAll (perform depth) here references body).run (s.spare k).measured =
        .ok ticks u ∧ u.gas = t.gas) :
    Coupling.Agree Excused (fun _ => thrifty k owed)
      ((measure (perform depth) here references offset body >>= f).run s)
      ((measure (perform depth) here references offset body >>= f).run (s.spare k)) := by
  have agree := all.both s.measured (s.spare k).measured rfl
  rw [EStateM.run_bind, EStateM.run_bind, measure_run, measure_run]
  generalize (performAll (perform depth) here references body).run s.measured = first at agree ⊢
  generalize (performAll (perform depth) here references body).run (s.spare k).measured = second
    at agree charged ⊢
  cases first with
  | ok ticks t => cases second with
    | ok ticks' t' =>
      obtain ⟨-, rfl⟩ := agree
      have onsets : (t.spare k).onsets = t.onsets := rfl
      dsimp only
      rw [onsets]
      cases t.onsets with
      | none => exact .inr rfl
      | some bounds => exact (rest bounds).both _ _ rfl
    | error fault' t' => exact agree.elim
  | error fault t => cases second with
    | ok ticks' t' =>
      obtain ⟨exhausted, less⟩ := agree
      dsimp only
      cases t'.onsets with
      | none => exact .inl exhausted
      | some bounds =>
        dsimp only
        cases done : (f bounds).run (s.spare k) with
        | ok ticks u =>
          obtain ⟨v, copied, gas⟩ := charged done
          cases copied
          exact ⟨exhausted, gas ▸ less⟩
        | error fault' u => exact .inl exhausted
    | error fault' t' => exact agree

theorem sways_thrifty (accompanies : Performer.Accompanies Excused (shared fun _ _ => thrifty k owed)
      (perform depth) (perform depth)) :
    Performer.Sways Excused (shared fun _ _ => thrifty k owed) (perform depth) (perform depth) := by
  intro here here' use references offset direction target body
  refine follows_shared fun same member => ?_
  subst same
  have unison : Unison Excused fun _ _ => thrifty k owed := unison_thrifty
  have all := Unison.of_shared (m := false) member (Ensemble.follows_all accompanies references body)
  have shaded (m : Modifier) := Unison.of_shared (m := false) member
    (unison.ensemble.follows_underModifier accompanies references m body)
  have finish {p : Play Nat} (played : Follows Excused (thrifty k owed) p p fun _ => thrifty k owed) :
      Follows Excused (thrifty k owed) (do let ticks ← p; setVelocity here target; return ticks)
        (do let ticks ← p; setVelocity here target; return ticks) fun _ => thrifty k owed :=
    played.bind fun ticks => (Gasless.modify fun _ _ => rfl).follows.bind fun _ =>
      Follows.pure (Q := fun _ => thrifty k owed) ticks
  refine @Unison.follows_timeline _ _ false [] here _ _ unison _ _ fun t t' alike => ?_
  rw [alike.state]
  refine @Unison.follows_unless _ _ false [] _ _ unison _ _ _ _ _ _ nofun ⟨?_, fun fault s left => ?_⟩
  · rintro s _ rfl
    rw [EStateM.run_bind, EStateM.run_bind, EStateM.run_get, EStateM.run_get]
    dsimp only
    have measuring : (s.spare k).measuring = s.measuring := rfl
    rw [measuring]
    split
    · exact (finish all).both s _ rfl
    · next real =>
      refine thrifty_measure all (fun bounds => finish (shaded _)) fun {bounds ticks t} done => ?_
      obtain ⟨ticks', u, played, done⟩ := Step.bind_ok done
      cases done
      obtain ⟨copy, copied, same⟩ := shaded_gas (s := s.spare k)
        (Bool.eq_false_iff.mpr real) played
      exact ⟨copy, copied, same⟩
  · rw [EStateM.run_bind, EStateM.run_get]
    dsimp only
    split
    · exact (finish all).alone fault s left
    · refine Follows.survives (Q := fun _ => thrifty k owed) ?_ fun bounds => finish (shaded _)
      cases measured : (measure (perform depth) here references offset body).run s with
      | ok bounds t =>
        obtain rfl := measure_ok measured
        exact left
      | error => exact .inl left.1

/-- Performing an item leaves the difference alone. -/
theorem thrifty_perform (depth : Nat) (here : TimelineId) (references : Nat) (item : Item) :
    Follows Excused (thrifty k owed) (perform depth here references item)
      (perform depth here references item) fun _ => thrifty k owed :=
  Unison.of_shared (m := false) (List.mem_singleton_self here)
    (unison_thrifty.ensemble.follows_perform sways_thrifty depth references item)

end Dynamics

section Nodes
variable {active : Option TimelineId}

/-- A close looks at the gas, but refuses only what could not be played again to the end. -/
theorem thrifty_close (offset : Nat) (count : Option Nat) :
    Follows Excused (thrifty k 0) (do
        let budget := (← get).gas.remaining
        onRepeats here (Repeats.close offset count budget)) (do
        let budget := (← get).gas.remaining
        onRepeats here (Repeats.close offset count budget))
      fun again => thrifty k again.length := by
  have closed (s : Session) : (do
      let budget := (← get).gas.remaining
      onRepeats here (Repeats.close offset count budget) : Play (List Node)).run s =
        (onRepeats here (Repeats.close offset count s.gas.remaining)).run s := rfl
  constructor
  · rintro s _ rfl
    have repeats : (s.spare k).arena.repeats here = s.arena.repeats here := rfl
    have gas : (s.spare k).gas.remaining = s.gas.remaining + k := rfl
    rw [closed, closed, onRepeats_run, onRepeats_run, repeats, gas]
    rcases Repeats.close_budget offset count s.gas.remaining k (s.arena.repeats here) with
      same | ⟨r, again, r', refused, accepted, long⟩
    · rw [same]
      cases (Repeats.close offset count (s.gas.remaining + k)).run (s.arena.repeats here) with
      | ok again r => exact ⟨rfl, rfl⟩
      | error fault r => exact .inr rfl
    · rw [refused, accepted]
      refine ⟨rfl, ?_⟩
      have kept : ((s.spare k).setRepeats here r').gas.remaining = s.gas.remaining + k := rfl
      omega
  · rintro fault s ⟨exhausted, less⟩
    rw [closed]
    cases done : (onRepeats here (Repeats.close offset count s.gas.remaining)).run s with
    | ok again t =>
      refine ⟨exhausted, ?_⟩
      have kept : t.gas = s.gas := (Gasless.onArena _).ok done
      rw [kept]
      exact Nat.le_trans less (Nat.le_add_right ..)
    | error fault' t => exact .inl exhausted

/-- Items are performed as deep as there is gas, and so deep is as deep as one likes. -/
theorem thrifty_item (here : TimelineId) (item : Item) :
    Follows Excused (thrifty k 0) (do perform ((← get).gas.remaining + 1) here 0 item)
      (do perform ((← get).gas.remaining + 1) here 0 item) fun _ => thrifty k 0 := by
  constructor
  · rintro s _ rfl
    have more : s.gas.remaining + 1 ≤ s.gas.remaining + k + 1 :=
      Nat.succ_le_succ (Nat.le_add_right ..)
    have same := (follows_depths (Nat.le_refl _) more (m := false) (List.mem_singleton_self here) 0
      item).both s s ⟨rfl, Nat.lt_succ_self _⟩
    exact same.of_same ((thrifty_perform _ here 0 item).both s _ rfl)
  · intro fault s left
    exact (thrifty_perform _ here 0 item).alone fault s left

theorem thrifty_performNode (node : Node) :
    Follows Excused (thrifty k 0) (performNode active node) (performNode active node)
      fun next => thrifty k next.2.length := by
  let after (next : Option TimelineId × List Node) : Coupling Session := thrifty k next.2.length
  have activated {f : TimelineId → Play (Option TimelineId × List Node)}
      (rest : ∀ here, Follows Excused (thrifty k 0) (f here) (f here) after) :
      Follows Excused (thrifty k 0) (activate active >>= f) (activate active >>= f) after :=
    gasless_activate.follows.bind rest
  have plain (other : node.isItem = false)
      (unclosing : ∀ offset count, node ≠ .repeatClose offset count) :
      Follows Excused (thrifty k 0) (performNode active node) (performNode active node) after :=
    (gasless_performNode other unclosing).follows.mono (.refl _) fun _ =>
      ⟨id, And.imp_right fun less => Nat.le_trans less (Nat.le_add_right ..)⟩
  cases node with
  | item item =>
    exact activated fun here => (thrifty_item here item).bind fun _ =>
      Follows.pure (Q := after) (some here, [])
  | repeatClose offset count =>
    exact activated fun here => (thrifty_close offset count).bind fun again =>
      Follows.pure (Q := after) (some here, again)
  | _ => exact plain rfl nofun

theorem thrifty_step (queued : Queued) :
    Follows Excused (thrifty k 0) (step active queued) (step active queued)
      fun next => thrifty k next.2.length := by
  unfold step
  refine follows_when (thrifty_burn _) ?_
  refine follows_when (gasless_adjustRepeats _).follows ?_
  refine (thrifty_performNode queued.node).bind fun next => ?_
  exact follows_when (gasless_adjustRepeats _).follows
    (Follows.pure (Q := fun next => thrifty k next.2.length) next)

end Nodes

section Runs
variable {rounds : Nat} {active : Option TimelineId} {queue : List Queued} {score : List Node}

theorem thrifty_drain (rounds : Nat) (active : Option TimelineId) (queue : List Queued) (s : Session) :
    Coupling.Agree Excused (fun _ => thrifty k 0) ((drain rounds active queue).run s)
      ((drain rounds active queue).run (s.spare k)) := by
  induction rounds generalizing active queue s with
  | zero => cases queue with
    | nil => exact gasless_ensureRepeatClosed.follows.both s _ rfl
    | cons queued rest => exact .inr rfl
  | succ rounds ih => cases queue with
    | nil => exact gasless_ensureRepeatClosed.follows.both s _ rfl
    | cons queued rest =>
      have agree := (@thrifty_step k active queued).both s (s.spare k) rfl
      simp only [drain, EStateM.run_bind]
      generalize (step active queued).run s = first at agree ⊢
      generalize (step active queued).run (s.spare k) = second at agree ⊢
      cases first with
      | ok next t => cases second with
        | ok next' t' =>
          obtain ⟨rfl, rfl⟩ := agree
          exact ih _ _ t
        | error fault' t' => exact agree.elim
      | error fault t => cases second with
        | ok next t' =>
          obtain ⟨exhausted, less⟩ := agree
          dsimp only
          cases done : (drain rounds next.1 (next.2.map (⟨·, true⟩) ++ rest)).run t' with
          | ok _ u =>
            refine ⟨exhausted, ?_⟩
            have spent := drain_spends done
            rw [List.length_append, List.length_map] at spent
            omega
          | error fault' u => exact .inl exhausted
        | error fault' t' => exact agree

theorem thrifty_run (gas k : Nat) (score : List Node) :
    Coupling.Agree Excused (fun _ => thrifty k 0) ((run score).run { gas := ⟨gas⟩ })
      ((run score).run { gas := ⟨gas + k⟩ }) := by
  have drained (gas : Nat) : (run score).run { gas := ⟨gas⟩ } =
      (drain (gas + 1) none (score.map (⟨·, false⟩))).run { gas := ⟨gas⟩ } := rfl
  rw [drained, drained, drain_rounds (Nat.lt_succ_self gas)
    (show gas < gas + k + 1 by omega)]
  exact thrifty_drain ..

/-- A crescendo or decrescendo takes the gas that its body takes once. -/
theorem dynamics_charged_once {references offset target ticks : Nat} {direction : Direction}
    {body : List Item}
    (done : (performDynamics (perform depth) here references offset direction target body).run s =
      .ok ticks t) :
    ∃ u, (performAll (perform depth) here references body).run { s with measuring := true } =
      .ok ticks u ∧ u.gas = t.gas := by
  obtain ⟨_, _, read, done⟩ := Step.bind_ok done
  cases read
  have done := (Step.unless_ok done).2
  obtain ⟨_, _, read, done⟩ := Step.bind_ok done
  cases read
  split at done
  · next measuring =>
    obtain ⟨_, u, performed, done⟩ := Step.bind_ok done
    cases done
    have same : ({ s with measuring := true } : Session) = s := by rw [← measuring]
    exact ⟨u, same.symm ▸ performed, rfl⟩
  · next real =>
    obtain ⟨bounds, _, measured, done⟩ := Step.bind_ok done
    obtain rfl := measure_ok measured
    obtain ⟨_, u, played, done⟩ := Step.bind_ok done
    cases done
    obtain ⟨_, _, pushed, played⟩ := Step.bind_ok played
    cases pushed
    obtain ⟨_, v, performed, played⟩ := Step.bind_ok played
    cases played
    obtain ⟨w, copied, after⟩ := rehearsed _ here references depth body (Bool.eq_false_iff.mpr real)
      performed
    exact ⟨w, copied, congrArg Gas.mk after.gas⟩

/-- Gas is a threshold. A run that leaves some of its gas burns the same with any other budget, and does
the same, if that leaves it some; otherwise it runs out. So a close refuses in advance only what could
not have been paid for. A crescendo or decrescendo, which is measured first, takes what its body takes
once. -/
theorem gas_threshold {gas : Nat} (nonempty : score ≠ [])
    (plays : (run score).run { gas := ⟨gas⟩ } = .ok () t) :
    (∀ budget, gas - t.gas.remaining < budget → (run score).run { gas := ⟨budget⟩ } =
      .ok () { t with gas := ⟨budget - (gas - t.gas.remaining)⟩ }) ∧
    (∀ budget, budget ≤ gas - t.gas.remaining → ∃ fault u,
      (run score).run { gas := ⟨budget⟩ } = .error fault u ∧ fault.cause.kind = .resource) ∧
    ∀ depth here references offset direction target body ticks (s u : Session),
      (performDynamics (perform depth) here references offset direction target body).run s =
        .ok ticks u →
      ∃ v, (performAll (perform depth) here references body).run { s with measuring := true } =
        .ok ticks v ∧ v.gas = u.gas := by
  have left := run_solvent nonempty plays
  have spends : t.gas.remaining + (score.map fun node => ⟨node, false⟩ : List Queued).length ≤ gas :=
    drain_spends plays
  have spent : t.gas.remaining ≤ gas := Nat.le_trans (Nat.le_add_right ..) spends
  -- Either budget is the poorer one: what the poorer run does decides on which side of the
  -- threshold it is.
  have poorer (budget k : Nat) (same : gas = budget + k) :
      (gas - t.gas.remaining < budget ∧ (run score).run { gas := ⟨budget⟩ } =
        .ok () { t with gas := ⟨budget - (gas - t.gas.remaining)⟩ }) ∨
      (budget ≤ gas - t.gas.remaining ∧ ∃ fault u,
        (run score).run { gas := ⟨budget⟩ } = .error fault u ∧ fault.cause.kind = .resource) := by
    have agree := thrifty_run budget k score
    rw [← same, plays] at agree
    cases poor : (run score).run { gas := ⟨budget⟩ } with
    | ok _ u =>
      rw [poor] at agree
      obtain ⟨-, rfl⟩ := agree
      have positive := run_solvent nonempty poor
      have more : (u.spare k).gas.remaining = u.gas.remaining + k := rfl
      rw [more] at spent
      refine .inl ⟨by omega, ?_⟩
      have rest : budget - (gas - (u.spare k).gas.remaining) = u.gas.remaining := by omega
      rw [rest]
      rfl
    | error fault u =>
      rw [poor] at agree
      obtain ⟨exhausted, less⟩ := agree
      exact .inr ⟨by omega, fault, u, rfl, by rw [exhausted]; rfl⟩
  have richer (k : Nat) : (run score).run { gas := ⟨gas + k⟩ } =
      .ok () { t with gas := ⟨gas + k - (gas - t.gas.remaining)⟩ } := by
    have agree := thrifty_run gas k score
    rw [plays] at agree
    cases rich : (run score).run { gas := ⟨gas + k⟩ } with
    | ok _ u =>
      rw [rich] at agree
      obtain ⟨-, rfl⟩ := agree
      have rest : gas + k - (gas - t.gas.remaining) = t.gas.remaining + k := by omega
      rw [rest]
      rfl
    | error fault u =>
      rw [rich] at agree
      exact agree.elim
  refine ⟨fun budget enough => ?_, fun budget short => ?_, ?_⟩
  · rcases Nat.le_total gas budget with more | less
    · obtain ⟨k, rfl⟩ := Nat.exists_eq_add_of_le more
      exact richer k
    · obtain ⟨k, same⟩ := Nat.exists_eq_add_of_le less
      rcases poorer budget k same with ⟨-, done⟩ | ⟨short, -⟩
      · exact done
      · omega
  · obtain ⟨k, same⟩ := Nat.exists_eq_add_of_le (Nat.le_trans short (Nat.sub_le ..))
    rcases poorer budget k same with ⟨enough, -⟩ | ⟨-, failed⟩
    · omega
    · exact failed
  · exact fun _ _ _ _ _ _ _ _ _ _ done => dynamics_charged_once done

/-- A definition and three passes of a crescendo, an invocation and a setting take 27 units. -/
theorem gas_threshold_repeated :
    let key (offset class_ : Nat) : Item := .key ⟨offset, .pitchClass class_, 0, 0⟩
    let score : List Node := [.define 0 "w" [key 1 2, .key ⟨2, .placeholder, 0, 0⟩],
      .repeatOpen 3, .item (.ornament 4 (.crescendo 100) [key 5 0, key 6 2]),
      .item (.range 7 (.userRange "w") [key 8 4]), .item (.setting ⟨9, "v", "64"⟩),
      .repeatClose 10 (some 3)]
    ∃ t, score ≠ [] ∧ (run score).run { gas := ⟨40⟩ } = .ok () t ∧ t.gas.remaining = 13 ∧
      (run score).run { gas := ⟨28⟩ } = .ok () { t with gas := ⟨1⟩ } ∧
      ∃ fault u, (run score).run { gas := ⟨27⟩ } = .error fault u ∧
        fault.cause.kind = .resource := by
  intro key score
  have played : (do run score; return (← get).gas.remaining : Play Nat).run' { gas := ⟨40⟩ } =
      some 13 := by decide +kernel
  obtain ⟨_, played⟩ := Step.exists_of_run' played
  obtain ⟨_, t, played, read⟩ := Step.bind_ok played
  have left : t.gas.remaining = 13 := by
    injection read
  have nonempty : score ≠ [] := List.cons_ne_nil _ _
  obtain ⟨enough, short, -⟩ := gas_threshold nonempty played
  rw [left] at enough short
  exact ⟨t, nonempty, played, left, enough 28 (by decide), short 27 (by decide)⟩

end Runs

end Session
end TextScore