import Mathlib.Algebra.GroupWithZero.Nat
import TextScore.Proofs.Advances
import TextScore.Proofs.Tempi

/-! The log of the conductor. Its fillers add up to where the conductor stands, so they place every
other entry on a tick. These are the ticks in the list of tempos, and they are where the active timeline
had got to when the entry was asked for. -/
namespace TextScore

/-- Only fillers take time. -/
def ConductorEvent.wait : ConductorEvent → Nat
  | .filler wait => wait
  | .tempo _ => 0
  | .timeSignature _ _ => 0

namespace Conductor

/-- A log from some tick on, without its fillers, and with the tick of each entry instead. -/
def placed (tick : Nat) : List ConductorEvent → List (Nat × ConductorEvent)
  | [] => []
  | .filler wait :: events => placed (tick + wait) events
  | .tempo bpm :: events => (tick, .tempo bpm) :: placed tick events
  | .timeSignature numerator denominator :: events =>
    (tick, .timeSignature numerator denominator) :: placed tick events

def tempo? : Nat × ConductorEvent → Option (Nat × Binary64)
  | (tick, .tempo bpm) => some (tick, bpm)
  | _ => none

theorem placed_append (events more : List ConductorEvent) (tick : Nat) :
    placed tick (events ++ more) =
      placed tick events ++ placed (tick + (events.map ConductorEvent.wait).sum) more := by
  induction events generalizing tick with
  | nil => rfl
  | cons event events ih => cases event with
    | filler wait =>
      simp only [List.cons_append, placed, ih, List.map_cons, List.sum_cons, ConductorEvent.wait,
        Nat.add_assoc]
    | tempo bpm =>
      simp only [List.cons_append, placed, ih, List.map_cons, List.sum_cons, ConductorEvent.wait,
        Nat.zero_add]
    | timeSignature numerator denominator =>
      simp only [List.cons_append, placed, ih, List.map_cons, List.sum_cons, ConductorEvent.wait,
        Nat.zero_add]

/-- The log of a conductor, with its entries placed on ticks, and the list of tempos say the same. -/
structure Logs (c : Conductor) (entries : List (Nat × ConductorEvent)) : Prop where
  elapsed : (c.events.toList.map ConductorEvent.wait).sum = c.position
  placed : placed 0 c.events.toList = entries
  tempos : entries.filterMap tempo? = c.tempos.toList

variable {c c' : Conductor} {entries : List (Nat × ConductorEvent)}

theorem logs_new : Logs {} [] := ⟨rfl, rfl, rfl⟩

theorem Logs.moveTo (logs : c.Logs entries) {offset tick : Nat}
    (done : (moveTo offset tick).run c = .ok () c') : c'.Logs entries := by
  obtain ⟨-, rfl | ⟨behind, rfl⟩⟩ := moveTo_ok done
  · exact logs
  · constructor
    · simp only [Array.toList_push, List.map_append, List.sum_append, logs.elapsed, List.map_cons,
        List.map_nil, ConductorEvent.wait, List.sum_singleton]
      omega
    · simp only [Array.toList_push, placed_append, logs.placed, Conductor.placed, List.append_nil]
    · exact logs.tempos

/-- What is entered is placed where the conductor stands. -/
theorem Logs.enter (logs : c.Logs entries) {event : ConductorEvent}
    (real : ∀ wait, event ≠ .filler wait) :
    (c.enter event).Logs (entries ++ [(c.position, event)]) := by
  cases event with
  | filler wait => exact absurd rfl (real wait)
  | tempo bpm =>
    constructor
    · simp only [Conductor.enter, setTempo, Array.toList_push, List.map_append, List.sum_append,
        logs.elapsed, List.map_cons, List.map_nil, ConductorEvent.wait, List.sum_singleton,
        Nat.add_zero]
    · simp only [Conductor.enter, setTempo, Array.toList_push, placed_append, logs.placed,
        logs.elapsed, Conductor.placed, Nat.zero_add]
    · simp only [Conductor.enter, setTempo, Array.toList_push, List.filterMap_append, logs.tempos,
        List.filterMap_cons, tempo?, List.filterMap_nil]
  | timeSignature numerator denominator =>
    constructor
    · simp only [Conductor.enter, setTimeSignature, Array.toList_push, List.map_append,
        List.sum_append, logs.elapsed, List.map_cons, List.map_nil, ConductorEvent.wait,
        List.sum_singleton, Nat.add_zero]
    · simp only [Conductor.enter, setTimeSignature, Array.toList_push, placed_append, logs.placed,
        logs.elapsed, Conductor.placed, Nat.zero_add]
    · simp only [Conductor.enter, setTimeSignature, List.filterMap_append, logs.tempos,
        List.filterMap_cons, tempo?, List.filterMap_nil, List.append_nil]

end Conductor

namespace Session
variable {gas : Nat} {score : List Node} {active : Option TimelineId} {s t : Session}
  {event : ConductorEvent}

theorem request_real {node : Node} (asks : node.request? = some event) (wait : Nat) :
    event ≠ .filler wait := by
  rintro rfl
  unfold Node.request? at asks
  split at asks
  · split at asks
    · obtain ⟨_, -, same⟩ := Option.map_eq_some_iff.mp asks
      exact nomatch same
    · obtain ⟨_, -, same⟩ := Option.map_eq_some_iff.mp asks
      exact nomatch same
    · exact nomatch asks
  · exact nomatch asks

/-- What the next node asks the conductor to enter, and the tick of the timeline that is active. -/
def Config.requests (c : Config) : List (Nat × ConductorEvent) :=
  match c.queue with
  | [] => []
  | queued :: _ => queued.node.request?.toList.map fun event => (c.session.cursor c.active, event)

theorem Round.logs {c c' : Config} {entries : List (Nat × ConductorEvent)} (round : Round c c')
    (logs : c.session.conductor.Logs entries) :
    c'.session.conductor.Logs (entries ++ c.requests) := by
  obtain @⟨active, active', queued, rest, again, s, t, done⟩ := round
  change t.conductor.Logs _
  cases asks : queued.node.request? with
  | none =>
    rw [step_quiet asks done]
    simpa only [Config.requests, asks, Option.toList_none, List.map_nil, List.append_nil] using logs
  | some event =>
    obtain ⟨c, moved, entered⟩ := step_enters asks done
    have there : c.position = s.cursor active := (Conductor.moveTo_ok moved).1
    have entry := (logs.moveTo moved).enter (request_real asks)
    rw [there] at entry
    simpa only [Config.requests, asks, Option.toList_some, List.map_cons, List.map_nil, entered]
      using entry

theorem Route.logs {c c' : Config} {passed : List Config} (route : Route c passed c')
    (new : c.session.conductor.Logs []) :
    c'.session.conductor.Logs (passed.flatMap Config.requests) := by
  induction route with
  | refl => exact new
  | round _ round ih =>
    rw [List.flatMap_append, List.flatMap_singleton]
    exact round.logs ih

/-- While an item is performed the conductor is as it was before the node of the item. -/
theorem Reaches.led {depth : Nat} {call : Call} (reached : Reaches gas score depth call) :
    ∃ c, Rounds (.start gas score) c ∧ call.session.Led c.session.conductor := by
  induction reached with
  | @node active item again rest s t here rounds approached =>
    refine ⟨_, rounds, ?_⟩
    have led : Keeps (Led s.conductor) (approach active again) fun _ => Led s.conductor := by
      unfold approach
      exact Keeps.when (led_adjustRepeats ..) (led_activate active)
    exact led rfl approached
  | @inner depth outer call reached asks ih =>
    obtain ⟨c, rounds, led⟩ := ih
    have member : outer.here ∈ [outer.here] := List.mem_cons_self
    obtain ⟨_, _, -, led⟩ :=
      (upkeep_conductor c.session.conductor).asked (m := outer.session.measuring) member led asks
    exact ⟨c, rounds, led⟩

theorem Visits.led (visits : Visits gas score s) :
    ∃ c, Rounds (.start gas score) c ∧ s.Led c.session.conductor := by
  cases visits with
  | between rounds => exact ⟨_, rounds, rfl⟩
  | before reached => exact reached.led
  | @after depth ticks call t reached performed =>
    obtain ⟨c, rounds, led⟩ := reached.led
    have member : call.here ∈ [call.here] := List.mem_cons_self
    exact ⟨c, rounds, (upkeep_conductor c.session.conductor).perform (m := call.session.measuring)
      member led performed⟩

theorem moveTo_behind {offset tick : Nat} {c : Conductor} (behind : tick < c.position) :
    (Conductor.moveTo offset tick).run c = .error ⟨.conductorBehind, offset⟩ c := by
  simp only [Conductor.moveTo, EStateM.run_bind, EStateM.run_get, if_pos behind]
  rfl

/-- Without the gas for its own node a node that is no item fails at once. -/
theorem step_short {queued : Queued} (plain : queued.node.isItem = false)
    (short : s.gas.remaining ≤ 1) :
    ∃ fault, (step active queued).run s = .error fault { s with gas := ⟨s.gas.remaining - 1⟩ } := by
  refine ⟨⟨.exhausted, queued.node.offset⟩, ?_⟩
  have burnt : (burn queued.node.offset).run s =
      .error ⟨.exhausted, queued.node.offset⟩ { s with gas := ⟨s.gas.remaining - 1⟩ } := by
    rw [burn_run, if_pos (by omega)]
  simp only [step, plain, Bool.not_false, reduceIte]
  rw [EStateM.run_bind, burnt]

/-- A request for what lies behind the conductor fails, and leaves the conductor alone. -/
theorem step_behind {queued : Queued} (asks : queued.node.request? = some event)
    (behind : s.cursor active < s.conductor.position) :
    ∃ fault t, (step active queued).run s = .error fault t ∧ t.conductor = s.conductor ∧
      (1 < s.gas.remaining → fault = ⟨.conductorBehind, queued.node.offset⟩) := by
  by_cases enough : 1 < s.gas.remaining
  · obtain ⟨u, heard, still, same⟩ := step_asks asks enough
    refine ⟨_, { u with conductor := s.conductor }, ?_, rfl, fun _ => rfl⟩
    rw [same, EStateM.run_bind, conduct_run, heard, still, moveTo_behind behind]
  · have plain : queued.node.isItem = false := by
      cases node : queued.node with
      | item item =>
        rw [node] at asks
        exact nomatch asks
      | _ => rfl
    obtain ⟨fault, failed⟩ := step_short plain (Nat.le_of_not_lt enough)
    exact ⟨fault, _, failed, rfl, fun more => absurd more enough⟩

/-- Wherever a run comes through, the log and the tempos of the conductor agree and are in order, and
the entries are those that nodes have asked for, at the ticks of the timelines that were active. What
lies behind the conductor is not entered. -/
theorem conductor_logs (gas : Nat) (score : List Node) :
    (∀ s, Visits gas score s → (s.conductor.tempos.toList.map Prod.fst).Pairwise (· ≤ ·) ∧
      ∃ passed c, Route (.start gas score) passed c ∧
        s.conductor.Logs (passed.flatMap Config.requests)) ∧
    (∀ passed c, Route (.start gas score) passed c →
      c.session.conductor.Logs (passed.flatMap Config.requests)) ∧
    ∀ active queued s event, queued.node.request? = some event →
      s.cursor active < s.conductor.position →
      ∃ fault t, (step active queued).run s = .error fault t ∧ t.conductor = s.conductor ∧
        (1 < s.gas.remaining → fault = ⟨.conductorBehind, queued.node.offset⟩) := by
  refine ⟨fun s visits => ?_, fun passed c route => route.logs Conductor.logs_new,
    fun active queued s event asks behind => step_behind asks behind⟩
  obtain ⟨c, rounds, led⟩ := visits.led
  have timely := rounds.onTime Conductor.timely_new
  obtain ⟨passed, route⟩ := rounds.route
  have logs := route.logs Conductor.logs_new
  rw [← led] at logs
  rw [OnTime, ← led] at timely
  exact ⟨timely.ordered, passed, c, route, logs⟩

/-- Two tempos with a rest between them. In another channel a third one comes too early. -/
theorem tempo_behind : ∃ (score : List Node) (active : Option TimelineId) (s t : Session)
    (third : Node) (passed : List Config), Visits 20 score s ∧
    s.conductor.tempos.toList.map Prod.fst = [0, 32] ∧
    s.conductor.Logs (passed.flatMap Config.requests) ∧
    s.cursor active = 0 ∧ s.conductor.position = 32 ∧
    (step active ⟨third, false⟩).run s = .error ⟨.conductorBehind, 9⟩ t ∧
    t.conductor = s.conductor := by
  let first : Node := .global 0 "bpm" "120"
  let second : Node := .global 5 "bpm" "90"
  let third : Node := .global 9 "bpm" "60"
  let score := [first, .item (.rest 3), second, .channel 7 2 false]
  have played : (do
      let next ← step none ⟨first, false⟩
      let next' ← step next.1 ⟨.item (.rest 3), false⟩
      let next'' ← step next'.1 ⟨second, false⟩
      let last ← step next''.1 ⟨.channel 7 2 false, false⟩
      let s ← get
      return (last.1, [next, next', next'', last].map fun next => next.2.length,
        s.conductor.tempos.toList.map Prod.fst,
        [s.cursor last.1, s.conductor.position, s.gas.remaining]) :
          Play (Option TimelineId × List Nat × List Nat × List Nat)).run' { gas := ⟨20⟩ } =
            some (some 1, [0, 0, 0, 0], [0, 32], [0, 32, 16]) := by decide +kernel
  obtain ⟨_, played⟩ := Step.exists_of_run' played
  obtain ⟨⟨active, again⟩, s, stepped, played⟩ := Step.bind_ok played
  obtain ⟨⟨active', again'⟩, s', stepped', played⟩ := Step.bind_ok played
  obtain ⟨⟨active'', again''⟩, s'', stepped'', played⟩ := Step.bind_ok played
  obtain ⟨⟨here, none⟩, t, last, played⟩ := Step.bind_ok played
  obtain ⟨_, _, read, played⟩ := Step.bind_ok played
  cases read
  obtain ⟨told, -⟩ := EStateM.Result.ok.inj played
  simp only [Prod.mk.injEq, List.map_cons, List.map_nil, List.cons.injEq,
    List.length_eq_zero_iff] at told
  obtain ⟨rfl, ⟨rfl, rfl, rfl, rfl, -⟩, tempos, cursor, position, gas, -⟩ := told
  have rounds : Rounds (.start 20 score) ⟨some 1, [], t⟩ :=
    (((Relation.ReflTransGen.single (.node stepped)).tail (.node stepped')).tail
      (.node stepped'')).tail (.node last)
  obtain ⟨visited, -, behind⟩ := conductor_logs 20 score
  obtain ⟨-, passed, c, -, logs⟩ := visited t (.between rounds)
  have asks : third.request?.isSome := by decide +kernel
  obtain ⟨event, asks⟩ := Option.isSome_iff_exists.mp asks
  obtain ⟨fault, u, failed, same, cause⟩ := behind (some 1) ⟨third, false⟩ t event asks (by omega)
  rw [cause (by omega)] at failed
  exact ⟨score, some 1, t, u, third, passed, .between rounds, by simp [tempos], logs, cursor,
    position, failed, same⟩

end Session
end TextScore
