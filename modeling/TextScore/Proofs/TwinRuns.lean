import TextScore.Proofs.Budget
import TextScore.Proofs.Onsets
import TextScore.Proofs.Repetition

/-! Runs of twins. As long as repeats that are open have captured the same, twins that are handed
the same nodes stay twins, and the one with more gas gets as far as the other. -/
namespace TextScore
open Step (Follows)

/-- How a node changes whether a repeat is open, which some nodes do not bear. -/
def Node.turn (capturing : Bool) : Node → Option Bool
  | .repeatOpen _ => if capturing then none else some true
  | .channel .. => if capturing then none else some false
  | .repeatClose .. => some false
  | _ => some capturing

namespace Session
variable {k n : Nat} {r r' : TimelineId → Repeats} {exact : Prop} {s s' t : Session}
  {active : Option TimelineId} {here : TimelineId} {capturing : Bool} {α : Type}

def setRepeats (here : TimelineId) (r : Repeats) (s : Session) : Session :=
  { s with arena := s.arena.adjust here (Timeline.setRepeats r) }

theorem repeats_setRepeats (here id : TimelineId) (r : Repeats) (s : Session) :
    (s.setRepeats here r).arena.repeats id =
      if id = here ∧ here < s.arena.timelines.size then r else s.arena.repeats id := by
  simp only [Arena.repeats, setRepeats, Arena.timeline_adjust_or]
  split <;> rfl

theorem twin_setRepeats (here : TimelineId) (r : Repeats) (arena : Arena) :
    arena.Twin (arena.adjust here (Timeline.setRepeats r)) := by
  constructor
  · exact Arena.size_adjust ..
  · intro id
    rw [Arena.repeats, Arena.timeline_adjust_or]
    split
    · next both =>
      rw [both.1]
      rfl
    · rfl

theorem Twin.setRepeats_left (twin : s.Twin k s') (here : TimelineId) (r : Repeats) :
    (s.setRepeats here r).Twin k s' := by
  obtain @⟨arena, twin⟩ := twin
  exact .mk ((twin_setRepeats here r s.arena).symm.trans twin)

theorem Twin.setRepeats_right (twin : s.Twin k s') (here : TimelineId) (r : Repeats) :
    s.Twin k (s'.setRepeats here r) := by
  obtain @⟨arena, twin⟩ := twin
  exact .mk (twin.trans (twin_setRepeats here r arena))

theorem adjustRepeats_run (here : TimelineId) (f : Repeats → Repeats) (s : Session) :
    (adjustRepeats (some here) f).run s = .ok () (s.setRepeats here (f (s.arena.repeats here))) := by
  have same : s.arena.adjust here (fun t => { t with repeats := f t.repeats }) =
      s.arena.adjust here (Timeline.setRepeats (f (s.arena.repeats here))) := Arena.adjust_congr rfl
  have unfolded : (adjustRepeats (some here) f).run s =
      .ok () { s with arena := s.arena.adjust here fun t => { t with repeats := f t.repeats } } := rfl
  rw [unfolded, same]
  rfl

theorem onRepeats_run (here : TimelineId) (step : Step Repeats α) (s : Session) :
    (onRepeats here step).run s = match step.run (s.arena.repeats here) with
      | .ok a r => .ok a (s.setRepeats here r)
      | .error fault r => .error fault (s.setRepeats here r) := by
  have same (r : Repeats) : s.arena.adjust here (fun _ => (s.arena.timeline here).setRepeats r) =
      s.arena.adjust here (Timeline.setRepeats r) := Arena.adjust_congr rfl
  have unfolded : (onRepeats here step).run s = _ := onArena_run ..
  have within : (Timeline.onRepeats step).run (s.arena.timeline here) = _ := Step.within_run ..
  rw [unfolded, Arena.on_run, within]
  have view : (s.arena.timeline here).repeats = s.arena.repeats here := rfl
  rw [view]
  cases step.run (s.arena.repeats here) with
  | ok a r => exact congrArg (fun arena => EStateM.Result.ok a { s with arena := arena }) (same r)
  | error fault r =>
    exact congrArg (fun arena => EStateM.Result.error fault { s with arena := arena }) (same r)

/-- Twins between two nodes, with so many timelines at least. Their repeats are alike, and the
active timeline has an open repeat if `capturing` says so. -/
structure Mates (k n : Nat) (exact : Prop) (active : Option TimelineId) (capturing : Bool)
    (s s' : Session) : Prop where
  twin : s.Twin k s'
  size : n ≤ s.arena.timelines.size
  alike : ∀ id, (s.arena.repeats id).Alike exact (s'.arena.repeats id)
  opened : capturing = true → ∃ here, active = some here ∧ (s.arena.repeats here).capture.isSome

abbrev mates (k n : Nat) (exact : Prop) (active : Option TimelineId) (capturing : Bool) :
    Coupling Session :=
  tolerant (Mates k n exact active capturing)

/-- What leaves repeats alone keeps twins mates. -/
theorem follows_mates {p q : Play α}
    (follows : ∀ r r', Follows Excused (paired k n r r') p q fun _ => paired k n r r') :
    Follows Excused (mates k n exact active capturing) p q
      fun _ => mates k n exact active capturing := by
  apply follows_of_agree
  intro s s' coupled
  have agree := (follows s.arena.repeats s'.arena.repeats).both s s'
    ⟨coupled.twin, rfl, rfl, coupled.size⟩
  cases first : p.run s with
  | ok a t => cases second : q.run s' with
    | ok b t' =>
      rw [first, second] at agree
      obtain ⟨same, twin, left, right, size⟩ := agree
      exact ⟨same, twin, size, fun id => left ▸ right ▸ coupled.alike id, left ▸ coupled.opened⟩
    | error fault' t' =>
      rw [first, second] at agree
      exact agree.elim
  | error fault t => cases second : q.run s' with
    | ok b t' =>
      rw [first, second] at agree
      exact agree
    | error fault' t' =>
      rw [first, second] at agree
      exact agree

section Nodes
variable {Q : α → Coupling Session}

theorem follows_pure (a : α) :
    Follows Excused (Q a) (pure a) (pure a) Q :=
  Follows.pure a

theorem follows_conduct (active : Option TimelineId) (offset : Nat)
    (event : Conductor → Conductor) :
    Follows Excused (paired k n r r') (conduct active offset event) (conduct active offset event)
      fun _ => paired k n r r' := by
  have moved (position : Nat) : Follows Excused (paired k n r r') (do
        onConductor (Conductor.moveTo offset position)
        modify fun s => { s with conductor := event s.conductor }) (do
        onConductor (Conductor.moveTo offset position)
        modify fun s => { s with conductor := event s.conductor }) fun _ => paired k n r r' :=
    (follows_conductor _).bind fun _ => follows_aside (fun ⟨twin⟩ => .mk twin) fun _ => rfl
  cases active with
  | none => exact moved 0
  | some here =>
    refine @Unison.follows_timeline _ _ false [] here _ _ simulation_paired.toUnison _ _ ?_
    intro t t' alike
    rw [alike.position]
    exact moved t'.position

theorem follows_globalSetting (active : Option TimelineId) (offset : Nat) (key value : String) :
    Follows Excused (paired k n r r') (globalSetting active offset key value)
      (globalSetting active offset key value) fun _ => paired k n r r' := by
  have refused (cause : Cause) : Follows Excused (paired k n r r')
      (Step.failAt offset cause : Play Unit) (Step.failAt offset cause)
      fun _ => paired k n r r' :=
    follows_of_agree fun _ _ _ => .inr rfl
  simp only [globalSetting]
  split
  · split
    · exact follows_conduct ..
    · exact refused _
  · split
    · exact follows_conduct ..
    · exact refused _
  · split
    · refine follows_aside (fun twin => ?_) fun _ => rfl
      obtain ⟨twin⟩ := twin
      exact .mk twin
    · exact refused _
  · exact refused _

theorem follows_startChannel (channel : Nat) :
    Follows Excused (paired k n r r') (startChannel channel) (startChannel channel)
      fun _ => paired k n r r' := by
  apply (follows_onArena (Arena.steady_create channel)).bind
  intro here
  refine Follows.bind (follows_aside (fun ⟨twin⟩ => .mk twin) fun _ => rfl) fun _ => ?_
  exact follows_pure (Q := fun _ => paired k n r r') here

/-- A timeline that starts has no open repeat. -/
theorem follows_start (channel : Nat) :
    Follows Excused (mates k n exact active false) (startChannel channel) (startChannel channel)
      fun here => mates k n exact (some here) false := by
  apply (follows_mates fun r r' => follows_startChannel channel).mono (.refl _)
  intro here
  exact ⟨fun coupled => ⟨coupled.twin, coupled.size, coupled.alike, fun none => nomatch none⟩, id⟩

theorem follows_activate (inside : ∀ here, active = some here → here < n) :
    Follows Excused (mates k n exact active capturing) (activate active) (activate active)
      fun here => tolerant fun s s' =>
        Mates k n exact (some here) capturing s s' ∧ here < s.arena.timelines.size := by
  cases active with
  | some here => exact follows_of_agree fun s s' coupled =>
      ⟨rfl, coupled, Nat.lt_of_lt_of_le (inside here rfl) coupled.size⟩
  | none =>
    apply follows_of_agree
    intro s s' coupled
    cases capturing with
    | false =>
      have agree := (follows_start 1).both s s' coupled
      exact ⟨agree.1, agree.2, Nat.lt_of_lt_of_eq (Nat.lt_succ_self _) (Array.size_push _).symm⟩
    | true =>
      obtain ⟨here, none, -⟩ := coupled.opened rfl
      exact nomatch none

theorem Twin.latest (twin : s.Twin k s') (channel : Nat) :
    latest? s' channel = latest? s channel := by
  obtain @⟨arena, twin⟩ := twin
  have same (here : TimelineId) : (arena.timeline here).channel = (s.arena.timeline here).channel := by
    rw [twin.timeline here]
    rfl
  simp only [latest?, same]

theorem declareChannel_run (offset id : Nat) (resume : Bool) (s : Session) :
    (declareChannel offset id resume).run s =
      if id = 0 ∨ 16 < id then .error ⟨.invalidChannel id, offset⟩ s
      else if resume then match s.latest? id with
        | some here => .ok here s
        | none => .error ⟨.noSuchChannel id, offset⟩ s
      else (startChannel id).run s := by
  simp only [declareChannel]
  split
  · rfl
  · split
    · simp only [EStateM.run_bind, EStateM.run_get]
      cases s.latest? id <;> rfl
    · rfl

theorem follows_declareChannel (offset id : Nat) (resume : Bool) :
    Follows Excused (mates k n exact active false) (declareChannel offset id resume)
      (declareChannel offset id resume) fun here => mates k n exact (some here) false := by
  apply follows_of_agree
  intro s s' coupled
  rw [declareChannel_run, declareChannel_run, coupled.twin.latest]
  by_cases invalid : id = 0 ∨ 16 < id
  · rw [if_pos invalid, if_pos invalid]
    exact .inr rfl
  rw [if_neg invalid, if_neg invalid]
  cases resume with
  | true =>
    rw [if_pos rfl, if_pos rfl]
    cases s.latest? id with
    | some here => exact ⟨rfl, coupled.twin, coupled.size, coupled.alike, fun none => nomatch none⟩
    | none => exact .inr rfl
  | false => exact (follows_start id).both s s' coupled

theorem ensureRepeatClosed_run (active : Option TimelineId) (s : Session) :
    (ensureRepeatClosed active).run s = match active with
      | none => .ok () s
      | some here => match (s.arena.repeats here).capture with
        | none => .ok () s
        | some c => .error ⟨.incompleteRepeat, c.offset⟩ s := by
  cases active with
  | none => rfl
  | some here =>
    have view : (s.arena.timeline here).repeats = s.arena.repeats here := rfl
    have read : (timeline here).run s = .ok (s.arena.timeline here) s := rfl
    simp only [ensureRepeatClosed, EStateM.run_bind, read, Repeats.ensureClosed, view]
    cases (s.arena.repeats here).capture <;> rfl

/-- Nothing is left open where a channel is declared. -/
theorem follows_ensureRepeatClosed :
    Follows Excused (mates k n exact active capturing) (ensureRepeatClosed active)
      (ensureRepeatClosed active)
      fun _ => tolerant fun s s' => Mates k n exact active false s s' ∧ capturing = false := by
  apply follows_of_agree
  intro s s' coupled
  have open_of_capturing := coupled.opened
  have rest : Mates k n exact active false s s' :=
    ⟨coupled.twin, coupled.size, coupled.alike, fun none => nomatch none⟩
  rw [ensureRepeatClosed_run, ensureRepeatClosed_run]
  cases active with
  | none =>
    refine ⟨rfl, rest, Bool.eq_false_iff.mpr fun capturing => ?_⟩
    obtain ⟨here, none, -⟩ := open_of_capturing capturing
    exact nomatch none
  | some here =>
    dsimp only
    rw [(coupled.alike here).capture]
    cases closed : (s.arena.repeats here).capture with
    | none =>
      refine ⟨rfl, rest, Bool.eq_false_iff.mpr fun capturing => ?_⟩
      obtain ⟨_, same, opened⟩ := open_of_capturing capturing
      cases same
      rw [closed] at opened
      exact nomatch opened
    | some c => exact .inr rfl

theorem Mates.setRepeats {capturing' : Bool} (coupled : Mates k n exact active capturing s s')
    {q q' : Repeats} (alike : q.Alike exact q') (opened : capturing' = true →
      ∃ here', active = some here' ∧ ((s.setRepeats here q).arena.repeats here').capture.isSome) :
    Mates k n exact active capturing' (s.setRepeats here q) (s'.setRepeats here q') := by
  refine ⟨(coupled.twin.setRepeats_left here q).setRepeats_right here q', ?_, fun id => ?_, opened⟩
  · exact Nat.le_trans coupled.size (Nat.le_of_eq (Arena.size_adjust ..).symm)
  · rw [repeats_setRepeats, repeats_setRepeats, coupled.twin.size]
    split
    · exact alike
    · exact coupled.alike id

/-- An open repeat stays open if it is only written to. -/
theorem Mates.still_opened (coupled : Mates k n exact active capturing s s') {q : Repeats}
    (same : q.capture.isSome = (s.arena.repeats here).capture.isSome) (yes : capturing = true) :
    ∃ here', active = some here' ∧
      ((s.setRepeats here q).arena.repeats here').capture.isSome := by
  obtain ⟨here', seated, opened⟩ := coupled.opened yes
  refine ⟨here', seated, ?_⟩
  rw [repeats_setRepeats]
  split
  · next both => rw [same, ← both.1, opened]
  · exact opened

theorem follows_adjustRepeats {f : Repeats → Repeats}
    (alike : ∀ {q q' : Repeats}, q.Alike exact q' → (f q).Alike exact (f q'))
    (same : ∀ q, (f q).capture.isSome = q.capture.isSome) :
    Follows Excused (mates k n exact active capturing) (adjustRepeats active f)
      (adjustRepeats active f) fun _ => mates k n exact active capturing := by
  cases active with
  | none => exact follows_pure (Q := fun _ => mates k n exact none capturing) ()
  | some here =>
    apply follows_of_agree
    intro s s' coupled
    rw [adjustRepeats_run, adjustRepeats_run]
    exact ⟨rfl, coupled.setRepeats (alike (coupled.alike here)) (coupled.still_opened (same _))⟩

theorem agree_onRepeats {p p' : Step Repeats α} {Q : α → Session → Session → Prop}
    (agree : Coupling.Agree Excused (fun _ => Repeats.mates exact)
      (p.run (s.arena.repeats here)) (p'.run (s'.arena.repeats here)))
    (finish : ∀ a q q', p.run (s.arena.repeats here) = .ok a q → q.Alike exact q' →
      Q a (s.setRepeats here q) (s'.setRepeats here q')) :
    Coupling.Agree Excused (fun a => tolerant (Q a)) ((onRepeats here p).run s)
      ((onRepeats here p').run s') := by
  rw [onRepeats_run, onRepeats_run]
  cases first : p.run (s.arena.repeats here) with
  | ok a q => cases second : p'.run (s'.arena.repeats here) with
    | ok b q' =>
      rw [first, second] at agree
      obtain ⟨rfl, alike⟩ := agree
      exact ⟨rfl, finish a q q' first alike⟩
    | error fault' q' =>
      rw [first, second] at agree
      exact agree.elim
  | error fault q => cases second : p'.run (s'.arena.repeats here) with
    | ok b q' =>
      rw [first, second] at agree
      exact agree
    | error fault' q' =>
      rw [first, second] at agree
      exact agree

/-- Twins after a node, which has handed back nodes to be played again. -/
structure Turned (k : Nat) (exact : Prop) (node : Node) (capturing : Bool)
    (next : Option TimelineId × List Node) (s s' : Session) : Prop where
  mates : ∃ capturing', node.turn capturing = some capturing' ∧
    Mates k 0 exact next.1 capturing' s s'
  again : (capturing = true ∨ ∀ offset count, node ≠ .repeatClose offset count) →
    ∀ again ∈ next.2, again.replay?.isSome

theorem Mates.turned {node : Node} {capturing' : Bool} (coupled : Mates k n exact active capturing' s s')
    (turn : node.turn capturing = some capturing') : Turned k exact node capturing (active, []) s s' :=
  ⟨⟨capturing', turn, coupled.twin, Nat.zero_le _, coupled.alike, coupled.opened⟩,
    fun _ _ none => nomatch none⟩

theorem follows_repeatOpen (inside : ∀ here, active = some here → here < n) (offset : Nat) :
    Follows Excused (mates k n exact active capturing) (performNode active (.repeatOpen offset))
      (performNode active (.repeatOpen offset))
      fun next => tolerant (Turned k exact (.repeatOpen offset) capturing next) := by
  apply (follows_activate inside).bind
  intro here
  refine Follows.bind (Q := fun _ => tolerant fun s s' =>
    Mates k n exact (some here) true s s' ∧ capturing = false) ?_ fun _ => ?_
  · apply follows_of_agree
    rintro s s' ⟨coupled, seated⟩
    refine agree_onRepeats (Repeats.agree_start (coupled.alike here) offset)
      fun _ q q' started alike => ?_
    rw [Repeats.start_run] at started
    split at started
    · exact nomatch started
    · next closed =>
      cases started
      refine ⟨coupled.setRepeats alike fun _ => ⟨here, rfl, ?_⟩, ?_⟩
      · rw [repeats_setRepeats, if_pos ⟨rfl, seated⟩]
        rfl
      · refine Bool.eq_false_iff.mpr fun yes => closed ?_
        obtain ⟨_, same, opened⟩ := coupled.opened yes
        cases same
        exact opened
  · apply follows_of_agree
    rintro s s' ⟨coupled, closed⟩
    exact ⟨rfl, coupled.turned (by rw [closed]; rfl)⟩

theorem follows_repeatClose (inside : ∀ here, active = some here → here < n) (offset : Nat)
    (count : Option Nat) (closable : exact ∨ capturing = true) :
    Follows Excused (mates k n exact active capturing)
      (performNode active (.repeatClose offset count))
      (performNode active (.repeatClose offset count))
      fun next => tolerant (Turned k exact (.repeatClose offset count) capturing next) := by
  apply (follows_activate inside).bind
  intro here
  apply follows_of_agree
  rintro s s' ⟨coupled, _⟩
  have opened : exact ∨ (s.arena.repeats here).capture.isSome := by
    rcases closable with real | yes
    · exact .inl real
    · obtain ⟨_, same, opened⟩ := coupled.opened yes
      cases same
      exact .inr opened
  have more : s.gas.remaining ≤ s'.gas.remaining := by
    rw [coupled.twin.gas]
    exact Nat.le_add_right ..
  have closes : Follows Excused (tolerant fun t t' => t = s ∧ t' = s')
      (onRepeats here (Repeats.close offset count s.gas.remaining))
      (onRepeats here (Repeats.close offset count s'.gas.remaining))
      fun again => tolerant
        (Turned k exact (.repeatClose offset count) capturing (some here, again)) := by
    apply follows_of_agree
    rintro t t' ⟨first, second⟩
    subst first second
    refine agree_onRepeats (Repeats.agree_close (coupled.alike here) opened offset count more)
      fun again q q' closed alike => ⟨⟨false, rfl, ?_⟩, fun yes node listed => ?_⟩
    · have kept : Mates k n exact (some here) false (t.setRepeats here q) (t'.setRepeats here q') :=
        coupled.setRepeats alike fun none => nomatch none
      exact ⟨kept.twin, Nat.zero_le _, kept.alike, kept.opened⟩
    · rcases yes with yes | other
      · obtain ⟨_, same, opened⟩ := coupled.opened yes
        cases same
        exact (coupled.alike here).replayed_captured opened node
          (Repeats.mem_close closed node listed)
      · exact absurd rfl (other offset count)
  have answered : Follows Excused (tolerant fun t t' => t = s ∧ t' = s') (do
      let again ← onRepeats here (Repeats.close offset count s.gas.remaining)
      return (some here, again)) (do
      let again ← onRepeats here (Repeats.close offset count s'.gas.remaining)
      return (some here, again))
      fun next => tolerant (Turned k exact (.repeatClose offset count) capturing next) :=
    closes.bind fun again => follows_of_agree fun t t' turned => ⟨rfl, turned⟩
  exact answered.both s s' ⟨rfl, rfl⟩

theorem follows_volta (inside : ∀ here, active = some here → here < n) (offset : Nat)
    (ending : Volta) :
    Follows Excused (mates k n exact active capturing) (performNode active (.volta offset ending))
      (performNode active (.volta offset ending))
      fun next => tolerant (Turned k exact (.volta offset ending) capturing next) := by
  apply (follows_activate inside).bind
  intro here
  refine Follows.bind (Q := fun _ => mates k n exact (some here) capturing) ?_ fun _ => ?_
  · apply follows_of_agree
    rintro s s' ⟨coupled, seated⟩
    refine agree_onRepeats (Repeats.agree_volta (coupled.alike here) offset ending)
      fun _ q q' passed alike => ?_
    exact coupled.setRepeats alike (coupled.still_opened (by rw [Repeats.volta_capture passed]))
  · exact follows_of_agree fun s s' coupled => ⟨rfl, coupled.turned rfl⟩

theorem follows_performItem (inside : ∀ here, active = some here → here < n) (item : Item) :
    Follows Excused (mates k n exact active capturing) (performNode active (.item item))
      (performNode active (.item item))
      fun next => tolerant (Turned k exact (.item item) capturing next) := by
  apply (follows_activate inside).bind
  intro here
  apply follows_deepen (f := fun depth => do
    let _ ← perform depth here 0 item
    return (some here, [])) fun coupled => coupled.1.twin
  intro depth depth' deeper
  have same : Follows Excused (mates k n exact (some here) capturing)
      (perform depth here 0 item) (perform depth' here 0 item)
      fun _ => mates k n exact (some here) capturing :=
    follows_mates fun r r' => follows_item deeper here 0 item
  have performed : Follows Excused (tolerant fun s s' =>
      Mates k n exact (some here) capturing s s' ∧ here < s.arena.timelines.size)
      (perform depth here 0 item) (perform depth' here 0 item)
      fun _ => mates k n exact (some here) capturing :=
    same.mono ⟨And.left, id⟩ fun _ => .refl _
  apply performed.bind
  intro _
  exact follows_of_agree fun t t' coupled => ⟨rfl, coupled.turned rfl⟩

theorem follows_channel (offset id : Nat) (resume : Bool) :
    Follows Excused (mates k n exact active capturing) (performNode active (.channel offset id resume))
      (performNode active (.channel offset id resume))
      fun next => tolerant (Turned k exact (.channel offset id resume) capturing next) := by
  apply follows_ensureRepeatClosed.bind
  intro _
  apply follows_of_agree
  rintro s s' ⟨coupled, closed⟩
  refine ((follows_declareChannel offset id resume).bind fun here => ?_).both s s' coupled
  exact follows_of_agree fun t t' coupled => ⟨rfl, coupled.turned (by rw [closed]; rfl)⟩

/-- Every node is followed, if what it closes has been captured alike. -/
theorem follows_performNode (inside : ∀ here, active = some here → here < n) (node : Node)
    (closable : ∀ offset count, node = .repeatClose offset count → exact ∨ capturing = true) :
    Follows Excused (mates k n exact active capturing) (performNode active node)
      (performNode active node) fun next => tolerant (Turned k exact node capturing next) := by
  have same {node : Node} (turn : node.turn capturing = some capturing) {p : Play Unit}
      (follows : ∀ r r', Follows Excused (paired k n r r') p p fun _ => paired k n r r') :
      Follows Excused (mates k n exact active capturing)
        (do p; return (active, ([] : List Node))) (do p; return (active, ([] : List Node)))
        fun next => tolerant (Turned k exact node capturing next) :=
    (follows_mates follows).bind fun _ =>
      follows_of_agree fun s s' coupled => ⟨rfl, coupled.turned turn⟩
  cases node with
  | item item => exact follows_performItem inside item
  | channel offset id resume => exact follows_channel offset id resume
  | «global» offset key value => exact same rfl fun r r' => follows_globalSetting active offset key value
  | define offset name template => exact same rfl fun r r' => follows_definitions _
  | declareEmoji offset symbol setting => exact same rfl fun r r' => follows_definitions _
  | repeatOpen offset => exact follows_repeatOpen inside offset
  | repeatClose offset count =>
    exact follows_repeatClose inside offset count (closable offset count rfl)
  | volta offset ending => exact follows_volta inside offset ending

theorem follows_when {P : Coupling Session} {Q : α → Coupling Session} {c : Prop} [Decidable c]
    {p : Play PUnit} {f g : PUnit → Play α} (first : Follows Excused P p p fun _ => P)
    (rest : Follows Excused P (f ⟨⟩) (g ⟨⟩) Q) :
    Follows Excused P (if c then p >>= f else f ⟨⟩) (if c then p >>= g else g ⟨⟩) Q := by
  split
  · exact first.bind fun _ => rest
  · exact rest

theorem agree_imp {Q Q' : α → Session → Session → Prop}
    {first second : EStateM.Result Fault Session α} (imp : ∀ a t t', Q a t t' → Q' a t t')
    (agree : Coupling.Agree Excused (fun a => tolerant (Q a)) first second) :
    Coupling.Agree Excused (fun a => tolerant (Q' a)) first second := by
  cases first <;> cases second
  · exact ⟨agree.1, imp _ _ _ agree.2⟩
  · exact agree
  · exact agree
  · exact agree

/-- Nodes are recorded alike. -/
theorem follows_record {node : Node} {next : Option TimelineId × List Node} :
    Follows Excused (tolerant (Turned k exact node capturing next))
      (adjustRepeats next.1 (Repeats.record node)) (adjustRepeats next.1 (Repeats.record node))
      fun _ => tolerant (Turned k exact node capturing next) := by
  apply follows_of_agree
  rintro s s' ⟨⟨capturing', turn, coupled⟩, again⟩
  have agree := (follows_adjustRepeats (fun alike => Repeats.Alike.record alike node)
    (Repeats.isSome_capture_record node)).both s s' coupled
  exact agree_imp (fun _ t t' coupled => ⟨⟨capturing', turn, coupled⟩, again⟩) agree

/-- Twins that are handed the same node stay twins. -/
theorem follows_step (inside : ∀ here, active = some here → here < n) (queued : Queued)
    (closable : ∀ offset count, queued.node = .repeatClose offset count →
      exact ∨ capturing = true) :
    Follows Excused (mates k n exact active capturing) (step active queued) (step active queued)
      fun next => tolerant (Turned k exact queued.node capturing next) := by
  unfold step
  refine follows_when (follows_mates fun r r' => follows_burn _) ?_
  refine follows_when (follows_adjustRepeats Repeats.Alike.expire fun _ => rfl) ?_
  apply (follows_performNode inside queued.node closable).bind
  intro next
  apply follows_when follows_record
  exact follows_of_agree fun s s' turned => ⟨rfl, turned⟩

end Nodes

/-- Each close in a list of nodes closes a repeat that the list has opened, or one of so many that
were open before. -/
def ClosesMatched : (opened : Nat) → List Node → Prop
  | _, [] => True
  | opened, .repeatOpen _ :: rest => ClosesMatched (opened + 1) rest
  | 0, .repeatClose .. :: _ => False
  | opened + 1, .repeatClose .. :: rest => ClosesMatched opened rest
  | opened, _ :: rest => ClosesMatched opened rest

theorem closesMatched_replayed {opened : Nat} {again rest : List Node}
    (replayed : ∀ node ∈ again, node.replay?.isSome) :
    ClosesMatched opened (again ++ rest) ↔ ClosesMatched opened rest := by
  induction again with
  | nil => rfl
  | cons node again ih =>
    have played := replayed node List.mem_cons_self
    have ih := ih fun node listed => replayed node (List.mem_cons_of_mem _ listed)
    cases node with
    | repeatOpen | repeatClose => exact nomatch played
    | _ => cases opened <;> exact ih

theorem closesMatched_turn {capturing capturing' : Bool} {node : Node} {rest : List Node}
    (turn : node.turn capturing = some capturing')
    (matched : ClosesMatched capturing.toNat (node :: rest)) :
    ClosesMatched capturing'.toNat rest := by
  cases node with
  | repeatOpen offset => cases capturing with
    | false =>
      cases turn
      exact matched
    | true => exact nomatch turn
  | repeatClose offset count => cases capturing with
    | false => exact matched.elim
    | true =>
      cases turn
      exact matched
  | channel => cases capturing with
    | false =>
      cases turn
      exact matched
    | true => exact nomatch turn
  | _ =>
    cases turn
    cases capturing <;> exact matched

/-- What is open stays so, unless the list closes it. -/
theorem closesMatched_open {capturing' : Bool} {node : Node} {rest : List Node}
    (turn : node.turn true = some capturing') (matched : ClosesMatched 0 (node :: rest)) :
    capturing' = true ∧ ClosesMatched 0 rest := by
  cases node with
  | repeatOpen | channel => exact nomatch turn
  | repeatClose => exact matched.elim
  | _ =>
    cases turn
    exact ⟨rfl, matched⟩

theorem Held.inside {P : Arena → Prop} (held : Held P active s) (here : TimelineId)
    (seated : active = some here) : here < s.arena.timelines.size := by
  subst seated
  exact held.tended.sound.inside (held.tended.playable here List.mem_cons_self)

theorem capturing_or_of_closesMatched {node : Node} {rest : List Node}
    (matched : ClosesMatched capturing.toNat (node :: rest)) :
    capturing = true ∨ ∀ offset count, node ≠ .repeatClose offset count := by
  cases capturing with
  | true => exact .inl rfl
  | false =>
    apply Or.inr
    intro offset count close
    rw [close] at matched
    exact matched

/-- One node is performed on both, and what was said of the nodes to come holds of those that come
after it. -/
theorem Mates.step {queued : Queued} {rest again : List Node} {active' : Option TimelineId}
    (held : Held (fun _ => True) active s) (coupled : Mates k 0 exact active capturing s s')
    (settled : exact ∨ ClosesMatched capturing.toNat (queued.node :: rest))
    (stepped : (step active queued).run s = .ok (active', again) t) :
    ∃ capturing' t', (Session.step active queued).run s' = .ok (active', again) t' ∧
      Mates k 0 exact active' capturing' t t' ∧
      (exact ∨ ClosesMatched capturing'.toNat (again ++ rest)) ∧
      (capturing = true → ClosesMatched 0 (queued.node :: rest) →
        capturing' = true ∧ ClosesMatched 0 (again ++ rest)) := by
  have closable : ∀ offset count, queued.node = .repeatClose offset count →
      exact ∨ capturing = true := by
    intro offset count close
    rcases settled with real | matched
    · exact .inl real
    · rcases capturing_or_of_closesMatched matched with yes | other
      · exact .inr yes
      · exact absurd close (other offset count)
  have seated : Mates k s.arena.timelines.size exact active capturing s s' :=
    ⟨coupled.twin, Nat.le_refl _, coupled.alike, coupled.opened⟩
  obtain ⟨t', stepped', ⟨capturing', turn, coupled'⟩, replayed⟩ :=
    (follows_step held.inside queued closable).ok seated stepped
  refine ⟨capturing', t', stepped', coupled', ?_, fun yes matched => ?_⟩
  · rcases settled with real | matched
    · exact .inl real
    · rw [closesMatched_replayed (replayed (capturing_or_of_closesMatched matched))]
      exact .inr (closesMatched_turn turn matched)
  · subst yes
    rw [closesMatched_replayed (replayed (.inl rfl))]
    exact closesMatched_open turn matched

/-- Both runs get through a queue, whatever comes behind it, and are mates again. A repeat that is
open before and that the queue does not close is open still. -/
def Mates.Through (k : Nat) (exact : Prop) (active : Option TimelineId) (capturing : Bool)
    (s s' : Session) (queue : List Queued) : Prop :=
  ∃ active' capturing' t t',
    (∀ rest, Rounds ⟨active, queue ++ rest, s⟩ ⟨active', rest, t⟩) ∧
    (∀ rest, Rounds ⟨active, queue ++ rest, s'⟩ ⟨active', rest, t'⟩) ∧
    Held (fun _ => True) active' t ∧ Mates k 0 exact active' capturing' t t' ∧
    (capturing = true → ClosesMatched 0 (queue.map Queued.node) → capturing' = true)

theorem Mates.Through.nil (held : Held (fun _ => True) active s)
    (coupled : Mates k 0 exact active capturing s s') :
    Mates.Through k exact active capturing s s' [] :=
  ⟨active, capturing, s, s', fun _ => .refl, fun _ => .refl, held, coupled, fun yes _ => yes⟩

/-- The nodes that one of the queue has handed back come before its rest. -/
theorem map_node_again (again : List Node) (queue : List Queued) :
    (again.map (⟨·, true⟩) ++ queue : List Queued).map Queued.node =
      again ++ queue.map Queued.node := by
  simp only [List.map_append, List.map_map, Function.comp_def, List.map_id']

theorem Mates.Through.cons {queued : Queued} {queue : List Queued} {again : List Node}
    {active' : Option TimelineId} {capturing' : Bool} {t' : Session}
    (stepped : (Session.step active queued).run s = .ok (active', again) t)
    (stepped' : (Session.step active queued).run s' = .ok (active', again) t')
    (still : capturing = true → ClosesMatched 0 (queued.node :: queue.map Queued.node) →
      capturing' = true ∧ ClosesMatched 0 (again ++ queue.map Queued.node))
    (through : Mates.Through k exact active' capturing' t t' (again.map (⟨·, true⟩) ++ queue)) :
    Mates.Through k exact active capturing s s' (queued :: queue) := by
  obtain ⟨last, capturing'', u, u', first, second, held, coupled, kept⟩ := through
  refine ⟨last, capturing'', u, u', fun rest => ?_, fun rest => ?_, held, coupled, ?_⟩
  · have next := first rest
    rw [List.append_assoc] at next
    exact .head (.node stepped) next
  · have next := second rest
    rw [List.append_assoc] at next
    exact .head (.node stepped') next
  · intro yes matched
    obtain ⟨yes, matched⟩ := still yes matched
    rw [map_node_again] at kept
    exact kept yes matched

/-- Both runs get through nodes that the first one gets through. -/
theorem Mates.rounds {c ended : Config} (path : Rounds c ended) (finished : ended.queue = [])
    {queue rest : List Queued} (start : c = ⟨active, queue ++ rest, s⟩)
    (held : Held (fun _ => True) active s) (coupled : Mates k 0 exact active capturing s s')
    (settled : exact ∨ ClosesMatched capturing.toNat (queue.map Queued.node)) :
    Mates.Through k exact active capturing s s' queue := by
  induction path using Relation.ReflTransGen.head_induction_on
    generalizing active queue s s' capturing with
  | refl =>
    subst start
    obtain ⟨rfl, -⟩ := List.append_eq_nil_iff.mp finished
    exact .nil held coupled
  | @head c c' round path ih =>
    subst start
    cases queue with
    | nil => exact .nil held coupled
    | cons queued queue =>
      obtain ⟨stepped⟩ := round
      rename_i active' again t
      obtain ⟨capturing', t', stepped', coupled', settled', still⟩ :=
        coupled.step held settled stepped
      have held' := (handover_held lasts_true).step queued held stepped
      refine .cons stepped stepped' still (ih ?_ held' coupled' ?_)
      · rw [List.append_assoc]
        rfl
      · rwa [map_node_again]

/-- A run of nodes that leave no repeat of before closed has the same end on twins. -/
theorem Config.Ends.mates {queue : List Queued} {u : Session}
    (ends : Config.Ends ⟨active, queue, s⟩ u) (held : Held (fun _ => True) active s)
    (coupled : Mates k 0 exact active capturing s s')
    (settled : exact ∨ ClosesMatched capturing.toNat (queue.map Queued.node)) :
    ∃ u', Config.Ends ⟨active, queue, s'⟩ u' ∧ u.Twin k u' := by
  obtain ⟨last, path, closed⟩ := ends
  have start : (⟨active, queue, s⟩ : Config) = ⟨active, queue ++ [], s⟩ := by
    rw [List.append_nil]
  obtain ⟨last', capturing', t, t', first, second, -, coupled, -⟩ :=
    Mates.rounds path rfl start held coupled settled
  have first := first []
  have second := second []
  rw [List.append_nil] at first second
  have rest := Rounds.through first path
  cases rest.cases_head with
  | inr round =>
    obtain ⟨_, round, -⟩ := round
    exact nomatch round
  | inl same =>
    cases same
    obtain ⟨u', closed', coupled', -⟩ := follows_ensureRepeatClosed.ok coupled closed
    obtain rfl := ensureRepeatClosed_ok closed'
    exact ⟨_, ⟨last, second, closed'⟩, coupled'.twin⟩

/-- A repeat that is open and that the nodes to come do not close keeps a run from ending. -/
theorem not_ends_of_opened {queue : List Queued} {u : Session}
    (ends : Config.Ends ⟨active, queue, s⟩ u) (held : Held (fun _ => True) active s)
    (coupled : Mates k 0 True active true s s')
    (matched : ClosesMatched 0 (queue.map Queued.node)) : False := by
  obtain ⟨last, path, closed⟩ := ends
  have start : (⟨active, queue, s⟩ : Config) = ⟨active, queue ++ [], s⟩ := by
    rw [List.append_nil]
  obtain ⟨last', capturing', t, t', first, -, -, coupled, still⟩ :=
    Mates.rounds path rfl start held coupled (.inl trivial)
  have first := first []
  rw [List.append_nil] at first
  obtain rfl := still rfl matched
  have rest := Rounds.through first path
  cases rest.cases_head with
  | inr round =>
    obtain ⟨_, round, -⟩ := round
    exact nomatch round
  | inl same =>
    cases same
    obtain ⟨_, -, -, closed⟩ := follows_ensureRepeatClosed.ok coupled closed
    exact nomatch closed

theorem twin_start (gas k : Nat) (score : List Node) :
    Mates k 0 True none false (Config.start gas score).session
      (Config.start (gas + k) score).session :=
  ⟨.mk (.refl _), Nat.zero_le _, fun _ => Repeats.alike_new True, fun none => nomatch none⟩

/-- More gas changes nothing but what is left of it. -/
theorem Plays.richer {gas : Nat} {score : List Node} (plays : Plays score gas s) (k : Nat) :
    ∃ s', Plays score (gas + k) s' ∧ s.Twin k s' := by
  obtain ⟨s', ends, twin⟩ := (plays_iff.mp plays).mates (held_start trivial gas score)
    (twin_start gas k score) (.inl trivial)
  exact ⟨s', plays_iff.mpr ends, twin⟩

end Session
end TextScore
