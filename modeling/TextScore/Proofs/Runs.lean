import Mathlib.Logic.Relation
import TextScore.Proofs.Upkeep
import TextScore.Session.Run

/-! Runs of whole scores, node by node, and the calls that a run makes. -/
namespace TextScore.Session

/-- A performance between two nodes: the active timeline, the nodes still to come, and the
session. -/
structure Config where
  active : Option TimelineId
  queue : List Queued
  session : Session

def Config.start (gas : Nat) (score : List Node) : Config :=
  ⟨none, score.map (⟨·, false⟩), { gas := ⟨gas⟩ }⟩

/-- One node is taken from the queue and performed. -/
inductive Round : Config → Config → Prop
  | node {active active' : Option TimelineId} {queued : Queued} {rest : List Queued}
      {again : List Node} {s t : Session}
      (done : (step active queued).run s = .ok (active', again) t) :
      Round ⟨active, queued :: rest, s⟩ ⟨active', again.map (⟨·, true⟩) ++ rest, t⟩

abbrev Rounds : Config → Config → Prop := Relation.ReflTransGen Round

theorem Round.unique {c c' c'' : Config} (first : Round c c') (second : Round c c'') :
    c' = c'' := by
  obtain ⟨done⟩ := first
  obtain ⟨done'⟩ := second
  cases done.symm.trans done'
  rfl

/-- A run that has ended went through every configuration that it reached. -/
theorem Rounds.through {c c' : Config} {last : Option TimelineId} {t : Session} (reached : Rounds c c')
    (ended : Rounds c ⟨last, [], t⟩) : Rounds c' ⟨last, [], t⟩ := by
  have unique : Relator.RightUnique Round := fun _ _ _ => Round.unique
  rcases Relation.ReflTransGen.total_of_right_unique unique reached ended with rest | beyond
  · exact rest
  · cases beyond.cases_head with
    | inl same => exact same ▸ .refl
    | inr round =>
      obtain ⟨_, round, -⟩ := round
      cases round

/-- A run from one configuration to another, with the ones that it leaves behind, in order. -/
inductive Route : Config → List Config → Config → Prop
  | refl (c : Config) : Route c [] c
  | round {c c' c'' : Config} {passed : List Config} (route : Route c passed c')
      (round : Round c' c'') : Route c (passed ++ [c']) c''

theorem Route.rounds {c c' : Config} {passed : List Config} (route : Route c passed c') :
    Rounds c c' := by
  induction route with
  | refl => exact .refl
  | round _ round ih => exact ih.tail round

theorem Rounds.route {c c' : Config} (rounds : Rounds c c') : ∃ passed, Route c passed c' := by
  induction rounds with
  | refl => exact ⟨[], .refl c⟩
  | tail _ round ih =>
    obtain ⟨passed, route⟩ := ih
    exact ⟨_, route.round round⟩

/-- What a node that is an item does before the item itself is performed. -/
def approach (active : Option TimelineId) (again : Bool) : Play TimelineId := do
  if !again then adjustRepeats active Repeats.expire
  activate active

/-- The calls that a run of a score makes, each with the depth that is left for it. -/
inductive Reaches (gas : Nat) (score : List Node) : (depth : Nat) → Call → Prop
  | node {active : Option TimelineId} {item : Item} {again : Bool} {rest : List Queued}
      {s t : Session} {here : TimelineId}
      (rounds : Rounds (.start gas score) ⟨active, ⟨.item item, again⟩ :: rest, s⟩)
      (approached : (approach active again).run s = .ok here t) :
      Reaches gas score (t.gas.remaining + 1) ⟨here, 0, item, t⟩
  | inner {depth : Nat} {outer call : Call} (reached : Reaches gas score (depth + 1) outer)
      (asks : Asks (perform depth) outer call) : Reaches gas score depth call

/-- The score is performed to its end with this gas. -/
def Plays (score : List Node) (gas : Nat) (t : Session) : Prop :=
  (run score).run { gas := ⟨gas⟩ } = .ok () t

/-- From here on the run goes to its end. -/
def Config.Ends (c : Config) (t : Session) : Prop :=
  ∃ last, Rounds c ⟨last, [], t⟩ ∧ (ensureRepeatClosed last).run t = .ok () t

theorem Config.Ends.next {active : Option TimelineId} {queued : Queued} {rest : List Queued}
    {s u : Session} (ends : Config.Ends ⟨active, queued :: rest, s⟩ u) :
    ∃ active' again t, (step active queued).run s = .ok (active', again) t ∧
      Config.Ends ⟨active', again.map (⟨·, true⟩) ++ rest, t⟩ u := by
  obtain ⟨last, path, closed⟩ := ends
  rcases path.cases_head with same | ⟨_, ⟨done⟩, path⟩
  · exact nomatch congrArg Config.queue same
  · exact ⟨_, _, _, done, last, path, closed⟩

theorem Config.Ends.through {c c' : Config} {u : Session} (ends : c.Ends u) (path : Rounds c c') :
    c'.Ends u := by
  obtain ⟨last, whole, closed⟩ := ends
  exact ⟨last, path.through whole, closed⟩

theorem Config.Ends.after {c c' : Config} {u : Session} (ends : c'.Ends u) (path : Rounds c c') :
    c.Ends u := by
  obtain ⟨last, rest, closed⟩ := ends
  exact ⟨last, path.trans rest, closed⟩

theorem ensureRepeatClosed_ok {active : Option TimelineId} {s t : Session}
    (done : (ensureRepeatClosed active).run s = .ok () t) : s = t := by
  cases active with
  | none =>
    cases done
    rfl
  | some here =>
    simp only [ensureRepeatClosed, EStateM.run_bind, timeline, EStateM.run_get] at done
    split at done
    · next read =>
      cases read
      split at done
      · cases done
        rfl
      · exact nomatch done
    · exact nomatch done

theorem drain_ok {rounds : Nat} {active : Option TimelineId} {queue : List Queued}
    {s t : Session} (done : (drain rounds active queue).run s = .ok () t) :
    Config.Ends ⟨active, queue, s⟩ t := by
  have finished {active : Option TimelineId} {s : Session}
      (done : (ensureRepeatClosed active).run s = .ok () t) : Config.Ends ⟨active, [], s⟩ t := by
    obtain rfl := ensureRepeatClosed_ok done
    exact ⟨active, .refl, done⟩
  induction rounds generalizing active queue s with
  | zero => cases queue with
    | nil => exact finished done
    | cons queued rest => exact nomatch done
  | succ rounds ih => cases queue with
    | nil => exact finished done
    | cons queued rest =>
      obtain ⟨⟨active', again⟩, u, stepped, done⟩ := Step.bind_ok done
      obtain ⟨last, rounds, closed⟩ := ih done
      exact ⟨last, .head (.node stepped) rounds, closed⟩

theorem step_item (active : Option TimelineId) (item : Item) (again : Bool) :
    step active ⟨.item item, again⟩ = (do
      let here ← approach active again
      let _ ← perform ((← get).gas.remaining + 1) here 0 item
      if !again then adjustRepeats (some here) (Repeats.record (.item item))
      return (some here, [])) := by
  cases again <;>
    simp only [step, performNode, approach, Node.isItem, Node.isSecondaVolta, Bool.not_true,
      Bool.not_false, Bool.and_true, Bool.false_eq_true, reduceIte,
      bind_assoc, pure_bind]

end TextScore.Session
