import Mathlib.Data.Set.Card
import Mathlib.Order.Interval.Finset.Nat
import TextScore.Proofs.Gasless
import TextScore.Proofs.Invocations
import TextScore.Proofs.Onsets

/-! What burns gas in a run, and how often. Every task that a run takes up, be it a node, an item or a
key that invokes a template, finds less gas than all the tasks before it, so no more tasks are taken
up than there is gas. -/
namespace TextScore.Session

/-- What burns gas of its own in a run. A key that invokes a template is told by the items that come
before it in the invocation, and by the session that it finds. -/
inductive Task
  | node (config : Config)
  | item (call : Call)
  | key (call : Call) (before : List Item) (session : Session)

/-- The gas that a task finds. -/
def Task.gas : Task → Nat
  | node config => config.session.gas.remaining
  | item call => call.session.gas.remaining
  | key _ _ session => session.gas.remaining

/-- The tasks of performing an item, outside copies that are only measured. -/
inductive Takes : (depth : Nat) → Call → Task → Prop
  | item {depth : Nat} {call : Call} : Takes depth call (.item call)
  | key {depth : Nat} {call : Call} {before : List Item} {s : Session}
    (invokes : Invokes depth call before s) : Takes (depth + 1) call (.key call before s)
  | inner {depth : Nat} {outer call : Call} {task : Task} (asks : Asks (perform depth) outer call)
    (real : call.session.measuring = false) (takes : Takes depth call task) :
    Takes (depth + 1) outer task

namespace Takes
variable {depth ticks : Nat} {call : Call} {task task' : Task} {t : Session}

/-- The item itself comes first. -/
theorem first (takes : Takes depth call task) :
    task = .item call ∨ task.gas < call.session.gas.remaining := by
  induction takes with
  | item => exact .inl rfl
  | key invokes => exact .inr invokes.poorer
  | inner asks real takes ih =>
    refine .inr ?_
    rcases ih with rfl | less
    · exact asks.poorer
    · exact Nat.lt_trans less asks.poorer

/-- Every task has burnt gas by the end of the performance. -/
theorem spends (takes : Takes depth call task)
    (done : (perform depth).answer call = .ok ticks t) : t.gas.remaining < task.gas := by
  induction takes generalizing ticks t with
  | item => exact perform_burns done
  | key invokes => exact invokes.spends done
  | @inner depth outer call task asks real takes ih =>
    have member : outer.here ∈ [outer.here] := List.mem_singleton_self outer.here
    exact upkeep_marked.resumed (upkeep_below task.gas) id member rfl asks real
      (fun _ _ answered => ih answered) done

theorem gas_le (takes : Takes depth call task) : task.gas ≤ call.session.gas.remaining := by
  rcases takes.first with rfl | less
  · exact Nat.le_refl _
  · exact Nat.le_of_lt less

/-- A key finds other gas than the tasks of the items that are performed before and after it. -/
theorem ne_key {outer : Call} {before : List Item} {s : Session}
    (invokes : Invokes depth outer before s) (asks : Asks (perform depth) outer call)
    (real : call.session.measuring = false) (takes : Takes depth call task) :
    task.gas ≠ s.gas.remaining := by
  rcases invokes.around asks real with later | ⟨ticks, t, done, left⟩
  · exact Nat.ne_of_lt (Nat.lt_of_le_of_lt takes.gas_le later)
  · exact Nat.ne_of_gt (Nat.lt_of_le_of_lt left (takes.spends done))

/-- So do tasks of two items that are performed one after the other. -/
theorem ne_apart {outer other : Call} (apart : call ≠ other) (asks : Asks (perform depth) outer call)
    (asks' : Asks (perform depth) outer other) (real : call.session.measuring = false)
    (real' : other.session.measuring = false) (takes : Takes depth call task)
    (takes' : Takes depth other task') : task.gas ≠ task'.gas := by
  rcases asks.ordered apart asks' real real' with ⟨ticks, t, done, left⟩ | ⟨ticks, t, done, left⟩
  · exact Nat.ne_of_gt (Nat.lt_of_le_of_lt (Nat.le_trans takes'.gas_le left) (takes.spends done))
  · exact Nat.ne_of_lt (Nat.lt_of_le_of_lt (Nat.le_trans takes.gas_le left) (takes'.spends done))

/-- Tasks that find the same gas are one. -/
theorem unique (takes : Takes depth call task) (takes' : Takes depth call task')
    (same : task.gas = task'.gas) : task = task' := by
  have itself {depth : Nat} {call : Call} {task : Task} (takes : Takes depth call task)
      (same : call.session.gas.remaining = task.gas) : task = .item call :=
    takes.first.resolve_right (Nat.not_lt_of_le (Nat.le_of_eq same))
  induction takes with
  | item => exact (itself takes' same).symm
  | key invokes => cases takes' with
    | item => exact itself (.key invokes) same.symm
    | key invokes' =>
      obtain ⟨rfl, rfl⟩ := invokes.unique invokes' same
      rfl
    | inner asks' real' takes' => exact absurd same.symm (ne_key invokes asks' real' takes')
  | @inner depth outer call task asks real takes ih => cases takes' with
    | item => exact itself (.inner asks real takes) same.symm
    | key invokes' => exact absurd same (ne_key invokes' asks real takes)
    | @inner _ _ other _ asks' real' takes' =>
      by_cases apart : call = other
      · subst apart
        exact ih takes' same
      · exact absurd same (ne_apart apart asks asks' real real' takes takes')

end Takes

/-- The tasks of the first node of the queue. -/
inductive Config.Takes : Config → Task → Prop
  | node {active : Option TimelineId} {queued : Queued} {rest : List Queued} {s : Session}
    (other : queued.node.isItem = false) :
    Takes ⟨active, queued :: rest, s⟩ (.node ⟨active, queued :: rest, s⟩)
  | item {active : Option TimelineId} {item : Item} {again : Bool} {rest : List Queued}
    {s t : Session} {here : TimelineId} {task : Task}
    (approached : (approach active again).run s = .ok here t)
    (takes : Session.Takes (t.gas.remaining + 1) ⟨here, 0, item, t⟩ task) :
    Takes ⟨active, ⟨.item item, again⟩ :: rest, s⟩ task

theorem gasless_approach (active : Option TimelineId) (again : Bool) :
    Gasless (approach active again) := by
  cases again with
  | true => exact gasless_activate
  | false => exact (gasless_adjustRepeats _).bind fun _ => gasless_activate

namespace Config.Takes
variable {c c' : Config} {task task' : Task}

theorem gas_le (takes : c.Takes task) : task.gas ≤ c.session.gas.remaining := by
  cases takes with
  | node => exact Nat.le_refl _
  | item approached takes =>
    have kept := (gasless_approach _ _).ok approached
    exact Nat.le_trans takes.gas_le (Nat.le_of_eq (congrArg Gas.remaining kept))

theorem spends (takes : c.Takes task) (round : Round c c') :
    c'.session.gas.remaining < task.gas := by
  obtain ⟨done⟩ := round
  cases takes with
  | node => exact step_burns done
  | item approached takes =>
    obtain ⟨_, _, ticks, v, approached', performed, left⟩ := step_item_ok done
    obtain ⟨rfl, rfl⟩ := EStateM.Result.ok.inj (approached.symm.trans approached')
    exact Nat.lt_of_le_of_lt left (takes.spends performed)

theorem unique (takes : c.Takes task) (takes' : c.Takes task') (same : task.gas = task'.gas) :
    task = task' := by
  cases takes with
  | node other => cases takes' with
    | node => rfl
    | item => exact nomatch other
  | item approached takes => cases takes' with
    | node other => exact nomatch other
    | item approached' takes' =>
      obtain ⟨rfl, rfl⟩ := EStateM.Result.ok.inj (approached.symm.trans approached')
      exact takes.unique takes' same

end Config.Takes

/-- The tasks that a run of a score takes up, outside copies that are only measured. -/
inductive TakesUp (gas : Nat) (score : List Node) : Task → Prop
  | node {active : Option TimelineId} {queued : Queued} {rest : List Queued} {s : Session}
    (rounds : Rounds (.start gas score) ⟨active, queued :: rest, s⟩)
    (other : queued.node.isItem = false) : TakesUp gas score (.node ⟨active, queued :: rest, s⟩)
  | item {depth : Nat} {call : Call} (reached : Reaches gas score depth call)
    (real : call.session.measuring = false) : TakesUp gas score (.item call)
  | key {depth : Nat} {call : Call} {before : List Item} {s : Session}
    (reached : Reaches gas score (depth + 1) call) (real : call.session.measuring = false)
    (invokes : Invokes depth call before s) : TakesUp gas score (.key call before s)

section Runs
variable {gas depth : Nat} {score : List Node} {call : Call} {c c' : Config} {task task' : Task}

/-- What an item takes up is taken up by the node that the item is part of. -/
theorem Reaches.takes (reached : Reaches gas score depth call)
    (real : call.session.measuring = false) (takes : Takes depth call task) :
    ∃ c, Rounds (.start gas score) c ∧ c.Takes task := by
  induction reached generalizing task with
  | node rounds approached => exact ⟨_, rounds, .item approached takes⟩
  | inner reached asks ih => exact ih (asks.measuring real) (.inner asks real takes)

theorem TakesUp.exists_config (taken : TakesUp gas score task) :
    ∃ c, Rounds (.start gas score) c ∧ c.Takes task := by
  cases taken with
  | node rounds other => exact ⟨_, rounds, .node other⟩
  | item reached real => exact reached.takes real .item
  | key reached real invokes => exact reached.takes real (.key invokes)

theorem Rounds.gas_le (rounds : Rounds c c') :
    c'.session.gas.remaining ≤ c.session.gas.remaining :=
  (handover_spent c.session.gas.remaining).rounds rounds (Nat.le_refl _)

/-- What one node takes up finds more gas than what a later one does. -/
theorem Config.Takes.lt_of_later (takes : c.Takes task) (takes' : c'.Takes task')
    (later : Relation.TransGen Round c c') : task'.gas < task.gas := by
  obtain ⟨next, round, rounds⟩ := Relation.TransGen.head'_iff.mp later
  exact Nat.lt_of_le_of_lt (Nat.le_trans takes'.gas_le (Rounds.gas_le rounds)) (takes.spends round)

/-- No two tasks of a run find the same gas. -/
theorem TakesUp.unique (taken : TakesUp gas score task) (taken' : TakesUp gas score task')
    (same : task.gas = task'.gas) : task = task' := by
  obtain ⟨c, rounds, takes⟩ := taken.exists_config
  obtain ⟨c', rounds', takes'⟩ := taken'.exists_config
  have unique : Relator.RightUnique Round := fun _ _ _ => Round.unique
  rcases Relation.ReflTransGen.total_of_right_unique unique rounds rounds' with later | later
  · rcases Relation.reflTransGen_iff_eq_or_transGen.mp later with rfl | later
    · exact takes.unique takes' same
    · exact absurd same.symm (Nat.ne_of_lt (takes.lt_of_later takes' later))
  · rcases Relation.reflTransGen_iff_eq_or_transGen.mp later with rfl | later
    · exact takes.unique takes' same
    · exact absurd same (Nat.ne_of_lt (takes'.lt_of_later takes later))

theorem TakesUp.gas_le (taken : TakesUp gas score task) : task.gas ≤ gas := by
  obtain ⟨c, rounds, takes⟩ := taken.exists_config
  exact Nat.le_trans takes.gas_le (Rounds.gas_le rounds)

/-- A run takes up no more tasks than it has gas. -/
theorem encard_taken (gas : Nat) (score : List Node) :
    { task | TakesUp gas score task ∧ 0 < task.gas }.encard ≤ gas := by
  have bounded : Set.MapsTo Task.gas { task | TakesUp gas score task ∧ 0 < task.gas }
      (Set.Icc 1 gas) := fun task taken => ⟨taken.2, taken.1.gas_le⟩
  have distinct : Set.InjOn Task.gas { task | TakesUp gas score task ∧ 0 < task.gas } :=
    fun task taken task' taken' same => taken.1.unique taken'.1 same
  calc { task | TakesUp gas score task ∧ 0 < task.gas }.encard
      ≤ (Set.Icc 1 gas).encard := Set.encard_le_encard_of_injOn bounded distinct
    _ = gas := by
      rw [← Finset.coe_Icc, Set.encard_coe_eq_coe_finsetCard, Nat.card_Icc, Nat.add_sub_cancel]

end Runs

end TextScore.Session
