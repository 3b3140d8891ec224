import TextScore.Proofs.Budget

/-! The bounds that make runs finite decide nothing. An item burns gas before anything inside it is
performed, and so does a round, so every depth and every number of rounds above the gas that is left
give the same answer. -/
namespace TextScore
open Step (Follows)

/-- Of two runs from one state, what the first one answers the second one does. -/
theorem Coupling.Agree.of_same {σ α : Type} {meets : Fault → Fault → Prop} {Q : α → Coupling σ}
    {P : α → σ → Prop} {first second third : EStateM.Result Fault σ α}
    (same : Agree Eq (fun a => ⟨fun s s' => s = s' ∧ P a s, fun _ _ => False⟩) first second)
    (agree : Agree meets Q second third) : Agree meets Q first third := by
  cases first with
  | ok a t => cases second with
    | ok b t' =>
      obtain ⟨rfl, rfl, -⟩ := same
      exact agree
    | error => exact same.elim
  | error fault t => cases second with
    | ok b t' => exact same.elim
    | error fault' t' =>
      obtain rfl : fault = fault' := same
      exact agree

namespace Session
variable {gas depth depth' rounds rounds' : Nat} {s : Session}

/-- The same session in both performances, with less gas than this. -/
abbrev below (gas : Nat) : Coupling Session :=
  Upkeep.lockstep (fun _ _ s => s.gas.remaining < gas) false []

theorem follows_burn_below (gas offset : Nat) :
    Follows Eq (below (gas + 1)) (burn offset) (burn offset) fun _ => below gas := by
  refine Upkeep.follows_same (fun _ => rfl) False.elim (fun {s t a} less done => ?_) False.elim
  rw [burn_run] at done
  split at done
  · exact nomatch done
  · cases done
    dsimp only
    omega

theorem follows_opened_below {here : TimelineId} {offset : Nat} {p p' : Play Nat}
    (rest : Follows Eq (below gas) p p' fun _ => below gas) :
    Follows Eq (below (gas + 1)) (opened here offset p) (opened here offset p')
      fun _ => below (gas + 1) := by
  have unison := (upkeep_below gas).simulation.toUnison
  have later : (below gas).Within (below (gas + 1)) :=
    ⟨And.imp_right fun less => Nat.lt_succ_of_lt less, id⟩
  refine (follows_burn_below gas offset).bind fun _ => ?_
  refine unison.follows_timeline (m := false) fun t t' alike => ?_
  rw [alike.position]
  exact unison.follows_unless nofun (rest.mono (.refl _) fun _ => later)

/-- Items are performed down to some depth, and below that by someone else. -/
def performDown (bottom : Performer) : (depth : Nat) → Performer
  | 0 => bottom
  | depth + 1 => performWith (performDown bottom depth)

theorem perform_eq_down (depth : Nat) : perform depth = performDown (perform 0) depth := by
  induction depth with
  | zero => rfl
  | succ depth ih => exact congrArg performWith ih

/-- The depth is never what ends a performance: nobody asks who performs what is deeper. -/
theorem follows_down (bottom bottom' : Performer) (enough : gas ≤ depth) (enough' : gas ≤ depth') :
    Performer.Follows Eq (Upkeep.lockstep fun _ _ s => s.gas.remaining < gas)
      (performDown bottom depth) (performDown bottom' depth') := by
  induction gas generalizing depth depth' with
  | zero =>
    refine fun _ _ _ _ _ _ => ⟨?_, fun _ _ left => left.elim⟩
    exact fun _ _ coupled => absurd coupled.2 (Nat.not_lt_zero _)
  | succ gas ih => cases depth with
    | zero => exact absurd enough (Nat.not_succ_le_zero gas)
    | succ depth => cases depth' with
      | zero => exact absurd enough' (Nat.not_succ_le_zero gas)
      | succ depth' =>
        intro m live here member references item
        have inner := ih (Nat.le_of_succ_le_succ enough) (Nat.le_of_succ_le_succ enough')
        rcases (upkeep_below gas).simulation.exists_opened inner (m := m) member references item with
          ⟨offset, value, rfl⟩ | ⟨p, p', first, second, rest⟩
        · exact .failAt _ _ rfl False.elim
        · have opens : performDown bottom (depth + 1) here references item = _ := first
          have opens' : performDown bottom' (depth' + 1) here references item = _ := second
          rw [opens, opens']
          exact follows_opened_below rest

theorem follows_depths (enough : gas ≤ depth) (enough' : gas ≤ depth') :
    Performer.Follows Eq (Upkeep.lockstep fun _ _ s => s.gas.remaining < gas) (perform depth)
      (perform depth') := by
  rw [perform_eq_down, perform_eq_down depth']
  exact follows_down _ _ enough enough'

/-- Neither is the number of rounds. -/
theorem drain_rounds (enough : s.gas.remaining < rounds) (enough' : s.gas.remaining < rounds')
    (active : Option TimelineId) (queue : List Queued) :
    (drain rounds active queue).run s = (drain rounds' active queue).run s := by
  induction rounds generalizing rounds' active queue s with
  | zero => exact absurd enough (Nat.not_lt_zero _)
  | succ rounds ih => cases rounds' with
    | zero => exact absurd enough' (Nat.not_lt_zero _)
    | succ rounds' => cases queue with
      | nil => rfl
      | cons queued rest =>
        simp only [drain, EStateM.run_bind]
        cases stepped : (step active queued).run s with
        | error fault t => rfl
        | ok next t =>
          have burnt : t.gas.remaining < s.gas.remaining := step_burns stepped
          exact ih (by omega) (by omega) _ _

end Session
end TextScore
