import TextScore.Proofs.Tasks

/-! Every run halts, whatever refers to itself and whatever is repeated. Items burn gas before the items
inside them are performed, nodes before the nodes after them, and references are nested only so
deep. -/
namespace TextScore.Session

section References
variable {references offset : Nat} {inner inner' : Performer} {here : TimelineId} {α : Type}

theorem refer_congr {f g : Nat → Play α} (same : ∀ references, references ≤ mostReferences →
    f references = g references) : refer references offset >>= f = refer references offset >>= g := by
  unfold refer
  split
  · rfl
  · next shallow => exact same _ (Nat.lt_of_not_le shallow)

section Same
variable (same : ∀ here, inner here references = inner' here references)
include same

theorem performAll_congr (here : TimelineId) :
    performAll inner here references = performAll inner' here references := by
  funext items
  rw [performAll, performAll, same here]

theorem invokeWith_congr (here : TimelineId) (name : String) (template : List Item) :
    invokeWith inner here references name template =
      invokeWith inner' here references name template := by
  funext item
  cases item with
  | key k => simp only [invokeWith, performAll_congr same]
  | setting | rest => exact congrFun (same here) _
  | _ => rfl

theorem performOrnament_congr (kind : Ornament) (body : List Item) :
    performOrnament inner here references offset kind body =
      performOrnament inner' here references offset kind body := by
  have all := performAll_congr same
  have measured (body : List Item) : measure inner here references offset body =
      measure inner' here references offset body := by
    funext s
    simp only [measure, all]
  cases kind with
  | staccato | sforzando | trill | fermata => simp only [performOrnament, underModifier, all]
  | crescendo target | decrescendo target =>
    simp only [performOrnament, performDynamics, underModifier, all, measured]
  | pitchBend => simp only [performOrnament, performBend, same here]

theorem performSound_congr (sound : Item) : performWith.performSound inner here references sound =
    performWith.performSound inner' here references sound := by
  cases sound with
  | key | chord | tie => rfl
  | ornament => simp only [performWith.performSound, performOrnament_congr same]
  | _ => simp only [performWith.performSound, same here]

theorem performParallel_congr (branches : List (List Item)) :
    performParallel inner here references offset branches =
      performParallel inner' here references offset branches := by
  have other : performBranch inner references offset = performBranch inner' references offset := by
    funext expected branch
    simp only [performBranch, performAll_congr same]
  cases branches with
  | nil => rfl
  | cons branch branches => simp only [performParallel, performAll_congr same, other]

end Same

/-- What is asked deeper than references may be nested has no part in a performance. -/
theorem performWith_congr (same : ∀ here references, references ≤ mostReferences →
      inner here references = inner' here references) (within : references ≤ mostReferences)
    (item : Item) : performWith inner here references item = performWith inner' here references item := by
  have now (here : TimelineId) := same here references within
  have all := performAll_congr now
  cases item with
  | range offset kind body =>
    cases kind with
    | userRange name =>
      have invoked : invoke inner here references offset name body =
          invoke inner' here references offset name body := by
        unfold invoke
        refine congrArg _ (funext fun template => refer_congr fun references within => ?_)
        simp only [performAll, invokeWith_congr (same · references within)]
      simp only [performWith, performRange, invoked]
    | _ => simp only [performWith, performRange, performOctave, performTuplet, performSustain, all]
  | group => simp only [performWith, all]
  | groupRef offset id =>
    have referred (p : Performer) : performWith p here references (.groupRef offset id) =
      opened here offset (refer references offset >>= fun references => do
        performAll p here references (← onDefinitions (Definitions.group id offset))) := rfl
    rw [referred, referred]
    refine congrArg _ (refer_congr fun references within => ?_)
    rw [performAll_congr (same · references within)]
  | parallel => simp only [performWith, performParallel_congr now]
  | graced | key | chord | ornament | tie => simp only [performWith, performSound_congr now]
  | _ => rfl

end References

variable {gas depth rounds : Nat} {score : List Node} {call outer : Call} {c c' : Config}
  {fault : Fault} {s t : Session}

theorem Asks.references_le (asks : Asks (perform depth) outer call)
    (within : outer.references ≤ mostReferences) : call.references ≤ mostReferences := by
  refine asks.of_unnoticed (I := fun other => other.references ≤ mostReferences) Eq
    (fun _ => Coupling.lockstep fun _ => True) id fun refusing alike => ?_
  have same (here : TimelineId) (references : Nat) (within : references ≤ mostReferences) :
      perform depth here references = refusing here references := by
    funext item s
    exact (alike ⟨here, references, item, s⟩ within).symm
  have unnoticed : (performWith (perform depth)).answer outer =
      (performWith refusing).answer outer :=
    congrFun (performWith_congr same within outer.item) outer.session
  rw [← unnoticed]
  cases (performWith (perform depth)).answer outer with
  | ok ticks t => exact ⟨rfl, rfl, trivial⟩
  | error fault t => exact rfl

theorem Reaches.references_le (reached : Reaches gas score depth call) :
    call.references ≤ mostReferences := by
  induction reached with
  | node => exact Nat.zero_le _
  | inner _ asks ih => exact asks.references_le ih

/-- Every item is performed as deep as there is gas. -/
theorem Reaches.gas_lt (reached : Reaches gas score depth call) :
    call.session.gas.remaining < depth := by
  induction reached with
  | node => exact Nat.lt_succ_self _
  | inner _ asks ih => exact Nat.lt_of_lt_of_le asks.poorer (Nat.le_of_lt_succ ih)

/-- What comes of a call. The session that a failed performance leaves behind is not used again. -/
def Performer.outcome (p : Performer) (c : Call) : Except Fault (Nat × Session) :=
  match p.answer c with
  | .ok ticks t => .ok (ticks, t)
  | .error fault _ => .error fault

/-- So the performance ends before anything is performed deeper than that. -/
theorem Reaches.outcome_down (reached : Reaches gas score depth call) (bottom : Performer) :
    (performDown bottom depth).outcome call = (perform depth).outcome call := by
  have agree := (follows_down bottom (perform 0) reached.gas_lt reached.gas_lt (m := false)
    (List.mem_singleton_self call.here) call.references call.item).both call.session call.session
      ⟨rfl, Nat.lt_succ_self _⟩
  rw [← perform_eq_down] at agree
  rw [Performer.outcome, Performer.outcome, Performer.answer, Performer.answer]
  generalize (performDown bottom depth call.here call.references call.item).run call.session = first
    at agree ⊢
  generalize (perform depth call.here call.references call.item).run call.session = second
    at agree ⊢
  cases first with
  | ok ticks t => cases second with
    | ok ticks' t' =>
      obtain ⟨rfl, rfl, -⟩ := agree
      rfl
    | error => exact agree.elim
  | error fault t => cases second with
    | ok => exact agree.elim
    | error fault' t' => exact congrArg Except.error agree

/-- What the rounds from some configuration on come to. -/
inductive Config.Halts : Config → EStateM.Result Fault Session Unit → Prop
  | closes {active : Option TimelineId} {s : Session} :
    Halts ⟨active, [], s⟩ ((ensureRepeatClosed active).run s)
  | fails {active : Option TimelineId} {queued : Queued} {rest : List Queued} {s t : Session}
    {fault : Fault} (failed : (step active queued).run s = .error fault t) :
    Halts ⟨active, queued :: rest, s⟩ (.error fault t)
  | round {c c' : Config} {result : EStateM.Result Fault Session Unit} (round : Round c c')
    (halts : Halts c' result) : Halts c result

theorem drain_halts (enough : s.gas.remaining < rounds) (active : Option TimelineId)
    (queue : List Queued) :
    Config.Halts ⟨active, queue, s⟩ ((drain rounds active queue).run s) := by
  induction rounds generalizing active queue s with
  | zero => exact absurd enough (Nat.not_lt_zero _)
  | succ rounds ih => cases queue with
    | nil => exact .closes
    | cons queued rest =>
      simp only [drain, EStateM.run_bind]
      cases stepped : (step active queued).run s with
      | error fault t => exact .fails stepped
      | ok next t =>
        have burnt : t.gas.remaining < s.gas.remaining := step_burns stepped
        exact .round (.node stepped) (ih (by omega) _ _)

theorem run_halts_at (gas : Nat) (score : List Node) :
    (Config.start gas score).Halts ((run score).run { gas := ⟨gas⟩ }) :=
  drain_halts (Nat.lt_succ_self gas) none _

theorem Config.Halts.through {result : EStateM.Result Fault Session Unit} (halts : c.Halts result)
    (rounds : Rounds c c') : c'.Halts result := by
  induction rounds with
  | refl => exact halts
  | tail _ round ih => cases ih with
    | closes => cases round
    | fails failed =>
      obtain ⟨done⟩ := round
      cases failed.symm.trans done
    | round round' halts => exact round.unique round' ▸ halts

theorem step_fails {active : Option TimelineId} {item : Item} {again : Bool} {here : TimelineId}
    (approached : (approach active again).run s = .ok here t) {u : Session}
    (failed : (perform (t.gas.remaining + 1) here 0 item).run t = .error fault u) :
    (step active ⟨.item item, again⟩).run s = .error fault u := by
  simp only [step_item, EStateM.run_bind, approached, EStateM.run_get, failed]

/-- An item that fails fails the run. -/
theorem Reaches.fails (reached : Reaches gas score depth call)
    (failed : (perform depth).answer call = .error fault t) :
    ∃ u, (run score).run { gas := ⟨gas⟩ } = .error fault u := by
  induction reached generalizing t with
  | node rounds approached =>
    have halts := (run_halts_at gas score).through rounds
    generalize (run score).run { gas := ⟨gas⟩ } = result at halts ⊢
    have stuck := step_fails approached failed
    cases halts with
    | fails failed' =>
      cases stuck.symm.trans failed'
      exact ⟨_, rfl⟩
    | round round _ =>
      obtain ⟨done⟩ := round
      cases stuck.symm.trans done
  | inner _ asks ih =>
    obtain ⟨u, failed⟩ := asks fault (perform _) ⟨⟨t, failed⟩, fun _ _ => rfl⟩
    exact ih failed

/-- Every run halts. The rounds of every run come to an end; performing an item never goes deeper
than the gas that the item finds, whatever would be performed there; outside copies that are
measured there are no more tasks than there is gas; every item burns gas or fails the run; and
references are nested at most 64 deep. -/
theorem run_halts (gas : Nat) (score : List Node) :
    (Config.start gas score).Halts ((run score).run { gas := ⟨gas⟩ }) ∧
    (∀ depth call, Reaches gas score depth call → ∀ bottom,
      (performDown bottom depth).outcome call = (perform depth).outcome call) ∧
    { task | TakesUp gas score task ∧ 0 < task.gas }.encard ≤ gas ∧
    (∀ depth call, Reaches gas score depth call →
      (∃ ticks t, (perform depth).answer call = .ok ticks t ∧
        t.gas.remaining < call.session.gas.remaining) ∨
      ∃ fault t u, (perform depth).answer call = .error fault t ∧
        (run score).run { gas := ⟨gas⟩ } = .error fault u) ∧
    ∀ depth call, Reaches gas score depth call → call.references ≤ 64 := by
  refine ⟨run_halts_at gas score, fun _ _ reached => reached.outcome_down, encard_taken gas score,
    fun depth call reached => ?_, fun _ _ reached => reached.references_le⟩
  cases answered : (perform depth).answer call with
  | ok ticks t => exact .inl ⟨ticks, t, rfl, perform_burns answered⟩
  | error fault t =>
    obtain ⟨u, failed⟩ := reached.fails answered
    exact .inr ⟨fault, t, u, rfl, failed⟩

/-- A group that plays itself, and one that would go on for longer than there is gas. -/
example : ((run [.item (.group 0 1 [.groupRef 3 1])]).run { gas := ⟨100⟩ } matches
      .error ⟨.nestedTooDeeply, 3⟩ _) ∧
    ((run [.item (.group 0 1 [.rest 3, .groupRef 4 1])]).run { gas := ⟨100⟩ } matches
      .error ⟨.exhausted, 3⟩ _) := by decide +kernel

end TextScore.Session
