import TextScore.Proofs.Nodes

/-! The budget bounds every run. Each item that is performed burns gas, and so does each round, so
the rounds that a run is given never end it before the gas does. -/
namespace TextScore.Session
variable {s t : Session} {here : TimelineId}

theorem upkeep_below (n : Nat) : Upkeep fun _ _ s => s.gas.remaining < n where
  shrink _ := id
  primitive _ primitive spent done := Nat.lt_of_le_of_lt (primitive.played done).gas spent
  branch _ spent done := by
    obtain ⟨_, -, rfl⟩ := onArena_ok done
    exact spent
  copy := id

theorem upkeep_spent (n : Nat) : Upkeep fun _ _ s => s.gas.remaining ≤ n := by
  simpa only [Nat.lt_succ_iff] using upkeep_below (n + 1)

/-- What holds once the gas of an item has been burnt, and is kept, holds after the item. -/
theorem Upkeep.burnt {I : Session → Prop} (up : Upkeep fun _ _ => I) {depth references ticks : Nat}
    {item : Item} (done : (Session.perform depth here references item).run s = .ok ticks t)
    (burnt : 1 < s.gas.remaining → I { s with gas := ⟨s.gas.remaining - 1⟩ }) :
    1 < s.gas.remaining ∧ I t := by
  cases depth with
  | zero =>
    obtain ⟨u, failed⟩ := perform_zero here references item s
    exact nomatch failed.symm.trans done
  | succ depth =>
    have sim := up.simulation
    have member : here ∈ [here] := List.mem_singleton_self here
    rcases sim.exists_opened (sim.follows_perform depth) (m := false) member references item with
      ⟨offset, value, rfl⟩ | ⟨p, p', first, -, follows⟩
    · exact nomatch done
    · have done : (opened here item.offset p).run s = .ok ticks t := first ▸ done
      obtain ⟨left, done⟩ := opened_ok done
      obtain ⟨u, -, rfl, held⟩ := follows.ok ⟨rfl, burnt left⟩ done
      exact ⟨left, held⟩

theorem perform_burns {depth references ticks : Nat} {item : Item}
    (done : (perform depth here references item).run s = .ok ticks t) :
    t.gas.remaining < s.gas.remaining := by
  obtain ⟨left, spent⟩ := (upkeep_spent (s.gas.remaining - 1)).burnt done fun _ => Nat.le_refl _
  omega

theorem handover_spent (n : Nat) : Handover fun _ s => s.gas.remaining ≤ n where
  aside spent _ _ _ gas := Nat.le_trans gas spent
  start _ := id
  resume spent _ := spent
  repeats _ := id
  item spent done := Nat.le_trans (Nat.le_of_lt (perform_burns done)) spent

/-- What a node that is an item does after the item has been performed gives no gas back. -/
theorem step_item_ok {active : Option TimelineId} {item : Item} {again : Bool}
    {next : Option TimelineId × List Node}
    (done : (step active ⟨.item item, again⟩).run s = .ok next t) :
    ∃ here u ticks v, (approach active again).run s = .ok here u ∧
      (perform (u.gas.remaining + 1) here 0 item).run u = .ok ticks v ∧
      t.gas.remaining ≤ v.gas.remaining := by
  rw [step_item] at done
  obtain ⟨here, u, approached, done⟩ := Step.bind_ok done
  obtain ⟨_, _, read, done⟩ := Step.bind_ok done
  cases read
  obtain ⟨ticks, v, performed, done⟩ := Step.bind_ok done
  have finish : Keeps (fun s => s.gas.remaining ≤ v.gas.remaining) (do
      if !again then adjustRepeats (some here) (Repeats.record (.item item))
      return (some here, ([] : List Node))) fun _ s => s.gas.remaining ≤ v.gas.remaining :=
    Keeps.when ((handover_spent _).adjustRepeats _) (.pure id)
  exact ⟨here, u, ticks, v, approached, performed, finish (Nat.le_refl _) done⟩

/-- A node that is no item burns gas of its own, an item that of its performance. -/
theorem step_burns {active active' : Option TimelineId} {queued : Queued} {again : List Node}
    (done : (step active queued).run s = .ok (active', again) t) :
    t.gas.remaining < s.gas.remaining := by
  obtain ⟨node, played⟩ := queued
  cases mark : node.isItem with
  | true => cases node with
    | item item =>
      obtain ⟨here, u, ticks, v, approached, performed, left⟩ := step_item_ok done
      have before : u.gas.remaining ≤ s.gas.remaining :=
        (handover_spent _).approach played (Nat.le_refl s.gas.remaining) approached
      have burnt : v.gas.remaining < u.gas.remaining := perform_burns performed
      omega
    | _ => cases mark
  | false =>
    simp only [step, mark, Bool.not_false, reduceIte] at done
    obtain ⟨_, u, burnt, done⟩ := Step.bind_ok done
    rw [burn_run] at burnt
    split at burnt
    · cases burnt
    · cases burnt
      have after : t.gas.remaining ≤ s.gas.remaining - 1 :=
        (handover_spent _).attend ⟨node, played⟩ (Nat.le_refl _) done
      omega

/-- As many rounds as there is gas are enough. -/
theorem drain_of_ends {c : Config} (ends : c.Ends t) {rounds : Nat}
    (enough : c.session.gas.remaining ≤ rounds) :
    (drain rounds c.active c.queue).run c.session = .ok () t := by
  obtain ⟨last, path, closed⟩ := ends
  induction path using Relation.ReflTransGen.head_induction_on generalizing rounds with
  | refl => cases rounds <;> exact closed
  | @head c c' round _ ih =>
    obtain ⟨done⟩ := round
    have burnt := step_burns done
    cases rounds with
    | zero => exact absurd (Nat.lt_of_lt_of_le burnt enough) (Nat.not_lt_zero _)
    | succ rounds =>
      simp only [drain, EStateM.run_bind, done]
      exact ih (by dsimp only at enough ⊢; omega)

theorem plays_iff {score : List Node} {gas : Nat} :
    Plays score gas t ↔ (Config.start gas score).Ends t := by
  constructor
  · intro plays
    exact drain_ok plays
  · intro ends
    exact drain_of_ends ends (Nat.le_succ gas)

end TextScore.Session
