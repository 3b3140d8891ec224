import Mathlib.Data.List.TakeWhile
import TextScore.Proofs.Gasless
import TextScore.Proofs.Interchange
import TextScore.Proofs.Sections

/-! What a node does to repeats. A node from the score steers those of the active timeline, or of the
one that begins with it, and says what is played again. What is played again changes none, nor does a node
that needs no timeline where there is none. -/
namespace TextScore

/-- What is recorded and is no ending is played again without steering the run. -/
theorem Node.isPlain_of_replay? {node : Node} (played : node.replay?.isSome)
    (other : node.isPrimaVolta = false) : node.isPlain := by
  cases node with
  | volta offset ending =>
    cases ending with
    | prima => exact nomatch other
    | seconda => exact nomatch played
  | item | «global» => rfl
  | _ => exact nomatch played

theorem Node.isSecondaVolta_of_isMark {node : Node} (other : node.isMark = false) :
    node.isSecondaVolta = false := by
  cases node with
  | volta => exact nomatch other
  | _ => rfl

namespace Repeats
variable {q q' : Repeats} {again : List Node} {offset budget : Nat} {count : Option Nat} {node : Node}

/-- No ending is played again. -/
theorem plain_close (closed : (close offset count budget).run q = .ok again q')
    (known : ∀ node ∈ q.captured, node.replay?.isSome) : ∀ node ∈ again, node.isPlain := by
  intro node listed
  have captured := mem_close closed node listed
  refine Node.isPlain_of_replay? (known node captured) ?_
  rw [close_run] at closed
  split at closed
  · exact nomatch closed
  split at closed
  · split at closed
    · exact nomatch closed
    · cases closed
      simpa using List.mem_takeWhile_imp listed
  · next none =>
    rw [Bool.not_eq_true, Array.any_eq_false'] at none
    exact Bool.eq_false_iff.mpr (none node captured)

theorem secondaAllowed_close (closed : (close offset count budget).run q = .ok again q')
    (lapsed : q.secondaAllowed = false) :
    q'.secondaAllowed = q.captured.any Node.isPrimaVolta := by
  rw [close_run] at closed
  split at closed
  · exact nomatch closed
  split at closed
  · next found =>
    split at closed
    · exact nomatch closed
    · cases closed
      exact found.symm
  · next none =>
    split at closed
    · exact nomatch closed
    · cases closed
      exact lapsed.trans (Bool.eq_false_iff.mpr none).symm

/-- What a node that is accepted does to the repeats that it steers. -/
inductive Steers (budget : Nat) (q : Repeats) : Node → List Node → Repeats → Prop
  | starts {offset : Nat} (closed : q.capture = none) :
    Steers budget q (.repeatOpen offset) [] ⟨q.performed, some ⟨offset, #[]⟩, false⟩
  | closes {offset : Nat} {count : Option Nat} {again : List Node} {q' : Repeats}
    (closed : (close offset count budget).run q.expire = .ok again q') :
    Steers budget q (.repeatClose offset count) again q'
  | prima {offset : Nat} {c : Capture} (opened : q.capture = some c)
    (first : c.nodes.any Node.isPrimaVolta = false) :
    Steers budget q (.volta offset .prima) [] (q.expire.record (.volta offset .prima))
  | seconda {offset : Nat} (allowed : q.secondaAllowed = true) :
    Steers budget q (.volta offset .seconda) [] q.expire
  | passes {node : Node} (other : node.isMark = false) :
    Steers budget q node [] (q.expire.record node)

theorem steer_ok (done : (node.steer budget).run q = .ok again q') :
    q.Steers budget node again q' := by
  have passed (other : node.isMark = false)
      (same : (node.steer budget).run q = .ok [] (q.expire.record node)) :
      q.Steers budget node again q' := by
    cases done.symm.trans same
    exact .passes other
  cases node with
  | repeatOpen offset =>
    simp only [Node.steer, Node.isSecondaVolta, Bool.not_false, reduceIte, EStateM.run_bind,
      EStateM.run_modify, start_run] at done
    by_cases opened : q.expire.capture.isSome
    · rw [if_pos opened] at done
      cases done
    · rw [if_neg opened] at done
      cases done
      exact .starts (Option.not_isSome_iff_eq_none.mp opened)
  | repeatClose offset count =>
    simp only [Node.steer, Node.isSecondaVolta, Bool.not_false, reduceIte, EStateM.run_bind,
      EStateM.run_modify] at done
    cases closed : (close offset count budget).run q.expire with
    | ok again' r =>
      rw [closed] at done
      cases done
      exact .closes closed
    | error fault r =>
      rw [closed] at done
      cases done
  | volta offset ending => cases ending with
    | prima =>
      simp only [Node.steer, Node.isSecondaVolta, Bool.not_false, reduceIte, EStateM.run_bind,
        EStateM.run_modify, volta_run] at done
      cases opened : q.expire.capture with
      | none =>
        rw [opened] at done
        cases done
      | some c =>
        rw [opened] at done
        by_cases second : c.nodes.any Node.isPrimaVolta
        · simp only [if_pos second] at done
          cases done
        · simp only [if_neg second] at done
          cases done
          exact .prima opened (Bool.eq_false_iff.mpr second)
    | seconda =>
      simp only [Node.steer, Node.isSecondaVolta, Bool.not_true, Bool.false_eq_true, reduceIte,
        EStateM.run_bind, volta_run] at done
      by_cases allowed : q.secondaAllowed
      · rw [if_pos allowed] at done
        cases done
        exact .seconda allowed
      · rw [if_neg allowed] at done
        cases done
  | _ => exact passed rfl rfl

/-- A first ending that the close has found lets a second one follow. -/
def finds (q : Repeats) : Node → Bool
  | .repeatClose .. => q.captured.any Node.isPrimaVolta
  | _ => false

theorem Steers.secondaAllowed (steers : q.Steers budget node again q') :
    q'.secondaAllowed = q.finds node := by
  cases steers with
  | starts => rfl
  | closes closed =>
    have found := secondaAllowed_close closed rfl
    exact found
  | prima => exact secondaAllowed_record _ q.expire
  | seconda => rfl
  | passes other =>
    rw [secondaAllowed_record]
    cases node with
    | repeatClose => exact nomatch other
    | _ => rfl

theorem Steers.plain (steers : q.Steers budget node again q')
    (known : ∀ node ∈ q.captured, node.replay?.isSome) : ∀ node ∈ again, node.isPlain := by
  cases steers with
  | closes closed => exact plain_close closed known
  | _ => exact nofun

theorem steers_open : (∃ again q', ((Node.repeatOpen offset).steer budget).run q = .ok again q') ↔
    q.capture = none := by
  constructor
  · rintro ⟨again, q', done⟩
    cases steer_ok done with
    | starts closed => exact closed
    | passes other => exact nomatch other
  · intro closed
    exact ⟨_, _, steer_repeatOpen closed budget⟩

theorem steers_prima :
    (∃ again q', ((Node.volta offset .prima).steer budget).run q = .ok again q') ↔
      ∃ c, q.capture = some c ∧ c.nodes.any Node.isPrimaVolta = false := by
  constructor
  · rintro ⟨again, q', done⟩
    cases steer_ok done with
    | prima opened first => exact ⟨_, opened, first⟩
    | passes other => exact nomatch other
  · rintro ⟨c, opened, first⟩
    exact ⟨_, _, steer_prima opened first budget⟩

theorem steers_seconda :
    (∃ again q', ((Node.volta offset .seconda).steer budget).run q = .ok again q') ↔
      q.secondaAllowed = true := by
  constructor
  · rintro ⟨again, q', done⟩
    cases steer_ok done with
    | seconda allowed => exact allowed
    | passes other => exact nomatch other
  · intro allowed
    exact ⟨_, _, steer_seconda allowed budget⟩

end Repeats

namespace Session
variable {active active' : Option TimelineId} {here : TimelineId}
  {s t : Session} {node : Node} {again : List Node} {r : TimelineId → Repeats}

/-- The repeats of all timelines are these, and this timeline is there to change its own. -/
def Bears (r : TimelineId → Repeats) (here : TimelineId) (s : Session) : Prop :=
  s.arena.repeats = r ∧ here < s.arena.timelines.size

theorem passing_bears (r : TimelineId → Repeats) (here : TimelineId) :
    Passing fun _ => Bears r here where
  aside bears arena _ _ _ := by
    unfold Bears
    rw [arena]
    exact bears
  start channel bears :=
    ⟨((Arena.blind_create channel).repeats _).trans bears.1,
      Nat.lt_of_lt_of_le bears.2 ((Arena.blind_create channel).size _)⟩
  resume bears _ := bears

theorem bears_perform {depth references : Nat} {id : TimelineId} {item : Item} :
    Keeps (Bears r here) (perform depth id references item) fun _ => Bears r here := by
  intro s ticks t bears done
  obtain ⟨rfl, inside⟩ := bears
  have follows : Step.Follows Excused (paired 0 (here + 1) s.arena.repeats s.arena.repeats)
      (perform depth id references item) (perform depth id references item) _ :=
    follows_item (Nat.le_refl depth) id references item
  have agree := follows.both s s ⟨.mk (.refl s.arena), rfl, rfl, inside⟩
  rw [done] at agree
  obtain ⟨-, -, same, -, size⟩ := agree
  exact ⟨same, size⟩

theorem bears_adjustRepeats (f : Repeats → Repeats) :
    Keeps (Bears r here) (adjustRepeats (some here) f) fun _ =>
      Bears (Function.update r here (f (r here))) here := by
  intro s a t bears done
  obtain ⟨rfl, inside⟩ := bears
  rw [adjustRepeats_run] at done
  cases done
  exact ⟨update_setRepeats inside _, Nat.lt_of_lt_of_eq inside (Arena.size_adjust ..).symm⟩

/-- What does not steer leaves repeats and the active timeline alone. -/
theorem bears_performNode (other : node.isMark = false)
    (same : ∀ offset id resume, node ≠ .channel offset id resume) :
    Keeps (Bears r here) (performNode (some here) node) fun next s =>
      next = (some here, []) ∧ s.Bears r here := by
  have pass := passing_bears r here
  have left : Keeps (Bears r here) (pure (some here, []) : Play (Option TimelineId × List Node))
      fun next s => next = (some here, []) ∧ s.Bears r here := .pure fun bears => ⟨rfl, bears⟩
  cases node with
  | item item =>
    simp only [performNode, activate, pure_bind]
    exact Keeps.read fun _ => bears_perform.bind fun _ => left
  | «global» offset key value =>
    exact Keeps.bind (@Passing.globalSetting _ (some here) pass offset key value) fun _ => left
  | define | declareEmoji =>
    exact Keeps.bind (@Passing.definitions _ (some here) _ pass _) fun _ => left
  | channel offset id resume => exact absurd rfl (same offset id resume)
  | _ => cases other

/-- A node from the score steers the repeats of the active timeline. -/
theorem step_steers (inside : here < s.arena.timelines.size)
    (same : ∀ offset id resume, node ≠ .channel offset id resume)
    (done : (step (some here) ⟨node, false⟩).run s = .ok (active', again) t) :
    active' = some here ∧ ∃ q,
      (s.arena.repeats here).Steers (s.gas.remaining - 1) node again q ∧
      t.arena.repeats = Function.update s.arena.repeats here q := by
  cases mark : node.isMark with
  | true =>
    rw [step_mark mark inside (step_mark_left mark done)] at done
    split at done
    · next again q steered =>
      cases done
      exact ⟨rfl, q, Repeats.steer_ok steered, update_setRepeats inside q⟩
    · exact nomatch done
  | false =>
    let r := s.arena.repeats
    let lapsed := Function.update r here (r here).expire
    have kept : Keeps (Bears r here) (step (some here) ⟨node, false⟩) fun next t =>
        next = (some here, []) ∧
          t.Bears (Function.update r here ((r here).expire.record node)) here := by
      simp only [step, Node.isSecondaVolta_of_isMark mark, Bool.not_false, Bool.and_self, reduceIte]
      refine Keeps.when (@Passing.burn _ (some here) (passing_bears r here) _) ?_
      refine (bears_adjustRepeats _).bind fun _ => ?_
      refine (bears_performNode mark same).bind fun next s a t known done => ?_
      obtain ⟨rfl, bears⟩ := known
      obtain ⟨_, u, recorded, done⟩ := Step.bind_ok done
      cases done
      have recorded := bears_adjustRepeats _ bears recorded
      rw [Function.update_self, Function.update_idem] at recorded
      exact ⟨rfl, recorded⟩
    obtain ⟨same, bears, -⟩ := kept ⟨rfl, inside⟩ done
    cases same
    exact ⟨rfl, _, .passes mark, bears⟩

theorem step_mark_ok {q : Repeats} (mark : node.isMark) (inside : here < s.arena.timelines.size)
    (left : 1 < s.gas.remaining)
    (steered : (node.steer (s.gas.remaining - 1)).run (s.arena.repeats here) = .ok again q) :
    (step (some here) ⟨node, false⟩).run s = .ok (some here, again) (s.spend.setRepeats here q) := by
  rw [step_mark mark inside left, steered]

/-- The session after its first channel has begun on its own. -/
def begun (s : Session) : Session :=
  { s with
    arena := (s.arena.create 1).2
    channels := s.channels.push s.arena.timelines.size }

theorem repeats_begun (s : Session) : s.begun.arena.repeats = s.arena.repeats :=
  (Arena.blind_create 1).repeats s.arena

theorem repeats_out {id : TimelineId} (out : s.arena.timelines.size ≤ id) :
    s.arena.repeats id = {} := by
  rw [Arena.repeats, Arena.timeline_out out]

theorem expire_begun (s : Session) :
    (adjustRepeats (some s.arena.timelines.size) Repeats.expire).run s.begun = .ok () s.begun := by
  have new : s.begun.arena.repeats s.arena.timelines.size = {} := by
    rw [repeats_begun, repeats_out (Nat.le_refl _)]
  rw [adjustRepeats_run, new]
  have lapsed : ({} : Repeats).expire = s.begun.arena.repeats s.arena.timelines.size := new.symm
  rw [lapsed, setRepeats_self]

theorem performNode_begins (activates : node.activates)
    (same : ∀ offset id resume, node ≠ .channel offset id resume) :
    performNode none node = (do performNode (some (← startChannel 1)) node) := by
  cases node with
  | channel offset id resume => exact absurd rfl (same offset id resume)
  | «global» | define | declareEmoji => exact nomatch activates
  | _ => simp only [performNode, activate, pure_bind]

/-- A node that needs a timeline begins one, and then it is as if that one had been active. -/
theorem step_begins (activates : node.activates)
    (same : ∀ offset id resume, node ≠ .channel offset id resume)
    (left : 1 < s.gas.remaining) :
    (step none ⟨node, false⟩).run s =
      (step (some s.arena.timelines.size) ⟨node, false⟩).run s.begun := by
  have attended (s : Session) : (do
        if !node.isSecondaVolta then adjustRepeats none Repeats.expire
        let next ← performNode none node
        adjustRepeats next.1 (Repeats.record node)
        return next : Play (Option TimelineId × List Node)).run s = (do
        if !node.isSecondaVolta then adjustRepeats (some s.arena.timelines.size) Repeats.expire
        let next ← performNode (some s.arena.timelines.size) node
        adjustRepeats next.1 (Repeats.record node)
        return next : Play (Option TimelineId × List Node)).run s.begun := by
    rw [performNode_begins activates same]
    cases node.isSecondaVolta with
    | true => simp only [Bool.not_true, Bool.false_eq_true, reduceIte, bind_assoc]; rfl
    | false =>
      simp only [Bool.not_false, reduceIte, bind_assoc]
      rw [EStateM.run_bind, EStateM.run_bind, expire_begun]
      rfl
  cases item : node.isItem with
  | true =>
    simp only [step, item, Bool.not_true, Bool.not_false, Bool.true_and, Bool.false_eq_true, reduceIte]
    exact attended s
  | false =>
    have burnt (t : Session) (same : t.gas = s.gas) : (burn node.offset).run t = .ok () t.spend := by
      rw [burn_run, if_neg (by rw [same]; omega)]
      rfl
    simp only [step, item, Bool.not_false, Bool.true_and, reduceIte]
    rw [EStateM.run_bind, EStateM.run_bind, burnt s rfl, burnt s.begun rfl]
    exact attended s.spend

/-- Playing a plain node again leaves all repeats as they are. -/
theorem step_replays (inside : here < s.arena.timelines.size) (plain : node.isPlain)
    (done : (step (some here) ⟨node, true⟩).run s = .ok (active', again) t) :
    active' = some here ∧ again = [] ∧ t.arena.repeats = s.arena.repeats := by
  have pass := passing_bears s.arena.repeats here
  have performed : Keeps (Bears s.arena.repeats here) (performPlain here node)
      fun _ => Bears s.arena.repeats here := by
    cases node with
    | item item => exact Keeps.read fun _ => bears_perform.bind fun _ => .pure id
    | «global» offset key value => exact @Passing.globalSetting _ (some here) pass offset key value
    | _ => exact nomatch plain
  have kept : Keeps (Bears s.arena.repeats here) (step (some here) ⟨node, true⟩) fun next t =>
      next = (some here, []) ∧ t.Bears s.arena.repeats here := by
    rw [step_plain plain]
    refine Keeps.when (@Passing.burn _ (some here) pass _) ?_
    simp only [Bool.not_true, Bool.false_eq_true, reduceIte]
    exact performed.bind fun _ => .pure fun bears => ⟨rfl, bears⟩
  obtain ⟨same, bears, -⟩ := kept ⟨rfl, inside⟩ done
  cases same
  exact ⟨rfl, rfl, bears⟩

theorem passing_repeats (r : TimelineId → Repeats) : Passing fun _ s => s.arena.repeats = r where
  aside same arena _ _ _ := (congrArg Arena.repeats arena).trans same
  start channel same := ((Arena.blind_create channel).repeats _).trans same
  resume same _ := same

/-- Before any timeline is active, a node that needs none leaves all repeats as they are. -/
theorem step_prelude (other : node.activates = false)
    (done : (step none ⟨node, false⟩).run s = .ok (active', again) t) :
    active' = none ∧ again = [] ∧ t.arena.repeats = s.arena.repeats := by
  let Same (u : Session) : Prop := u.arena.repeats = s.arena.repeats
  have pass := passing_repeats s.arena.repeats
  have left : Keeps Same (pure (none, []) : Play (Option TimelineId × List Node))
      fun next u => next = (none, []) ∧ Same u := .pure fun same => ⟨rfl, same⟩
  have performed : Keeps Same (performNode none node) fun next u => next = (none, []) ∧ Same u := by
    cases node with
    | «global» offset key value =>
      exact Keeps.bind (@Passing.globalSetting _ none pass offset key value) fun _ => left
    | define | declareEmoji => exact Keeps.bind (@Passing.definitions _ none _ pass _) fun _ => left
    | _ => exact nomatch other
  have kept : Keeps Same (step none ⟨node, false⟩) fun next u => next = (none, []) ∧ Same u := by
    unfold step
    refine Keeps.when (@Passing.burn _ none pass _) (Keeps.when (.pure id) ?_)
    refine performed.bind fun next u result v known done => ?_
    obtain ⟨rfl, same⟩ := known
    cases done
    exact ⟨rfl, same⟩
  obtain ⟨same, repeats⟩ := kept rfl done
  cases same
  exact ⟨rfl, rfl, repeats⟩

/-- A channel leaves the active timeline where no repeat is open on it. -/
theorem leave_ok {offset : Nat} (inside : ∀ here, active = some here → here < s.arena.timelines.size)
    (done : (leave active offset).run s = .ok () t) :
    (∀ here, active = some here → (s.arena.repeats here).capture = none) ∧
    ∀ other, t.arena.repeats other =
      if active = some other then (s.arena.repeats other).expire else s.arena.repeats other := by
  obtain ⟨_, u, burnt, done⟩ := Step.bind_ok done
  have same : u.arena = s.arena := by
    rw [burn_ok burnt]
  obtain ⟨_, v, expired, done⟩ := Step.bind_ok done
  obtain rfl := ensureRepeatClosed_ok done
  cases active with
  | none =>
    cases expired
    rw [same]
    exact ⟨nofun, fun other => (if_neg nofun).symm⟩
  | some here =>
    have within : here < u.arena.timelines.size := same ▸ inside here rfl
    rw [adjustRepeats_run] at expired
    cases expired
    have closed := capture_of_closed done
    rw [repeats_setRepeats, if_pos ⟨rfl, within⟩, same] at closed
    refine ⟨fun other seat => ?_, fun other => ?_⟩
    · cases seat
      exact closed
    · rw [update_setRepeats within, Function.update_apply, same]
      by_cases here' : other = here
      · rw [if_pos here', if_pos (congrArg some here'.symm), here']
      · rw [if_neg here', if_neg fun both => here' (Option.some.inj both).symm]

end Session
end TextScore
