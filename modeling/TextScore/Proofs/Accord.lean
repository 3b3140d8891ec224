import TextScore.Proofs.Duets
import TextScore.Proofs.Kinship

/-! Performances on counterparts. Where one performance succeeds the same items succeed on the
counterpart of its timeline, and leave counterparts behind. -/
namespace TextScore.Session
open Step (Follows)
open Coupling (Whatever lenient)

/-- What is known of two performances on counterparts. -/
structure Rapport (v : Nat → Nat) where
  /-- Counterparts that wait. -/
  pairs : List (TimelineId × TimelineId)
  /-- The gas that the second one has more. -/
  surplus : Nat
  /-- Both have seen the same onsets. -/
  tied : Prop
  /-- What items leave alone is the same. -/
  whole : Prop
  /-- Only the second one is measured. -/
  mixed : Prop
  stack : List Modifier
  stack' : List Modifier
  alike : Modifier.Alike v stack stack'
  flat : mixed → ∀ m n, v m = v n

theorem Rapport.unmixed : False → ∀ m n : Nat, id m = id n := False.elim

variable {v : Nat → Nat} {ρ : TimelineId → TimelineId → Prop} {here here' : TimelineId}
  {γ : Rapport v} {s s' t t' : Session} {α β : Type}

instance : Scene (Rapport v) where
  after _ γ := γ
  under m γ := { γ with stack := m :: γ.stack, stack' := m :: γ.stack', alike := γ.alike.cons m }
  copied γ := { γ with tied := True }
  graced γ := γ
  mixed γ := γ.mixed
  after_zero _ := rfl
  after_add _ _ _ := rfl

/-- Two sessions in which these timelines are counterparts. -/
structure Accord (ρ : TimelineId → TimelineId → Prop) (here here' : TimelineId) (γ : Rapport v)
    (s s' : Session) : Prop where
  related : Arena.Related v ρ ((here, here') :: γ.pairs) s.arena s'.arena
  gas : s'.gas.remaining = s.gas.remaining + γ.surplus
  definitions : s.definitions = s'.definitions
  fermata : s.fermata = s'.fermata
  graces : s.graces = s'.graces
  stack : s.modifiers = γ.stack
  stack' : s'.modifiers = γ.stack'
  onsets : γ.tied → s.onsets = s'.onsets
  measuring : ¬ γ.mixed → s.measuring = s'.measuring
  measured : γ.mixed → s.measuring = false ∧ s'.measuring = true
  aside : γ.whole → s.channels = s'.channels ∧ s.conductor = s'.conductor

abbrev accord (ρ : TimelineId → TimelineId → Prop) (here here' : TimelineId) (γ : Rapport v) :
    Coupling Session :=
  lenient (Accord ρ here here' γ)

namespace Accord

theorem consonant (accord : Accord ρ here here' γ s s') : Consonant here here' s s' where
  timeline := by
    obtain ⟨φ, known, kindred⟩ := accord.related
    exact (kindred.kin.like (known _ List.mem_cons_self)).alike
  definitions := accord.definitions
  fermata := accord.fermata
  substitution := by
    rw [accord.stack, accord.stack']
    exact γ.alike.substitution
  graces := accord.graces

end Accord

theorem accord_arena {p q : Step Arena α}
    (corresponds : Arena.Corresponds v ρ ((here, here') :: γ.pairs) p q) :
    Follows Whatever (accord ρ here here' γ) (onArena p) (onArena q)
      fun _ => accord ρ here here' γ :=
  .of_ok fun {s s' a t} accord done => by
    obtain ⟨arena, ran, rfl⟩ := onArena_ok done
    obtain ⟨arena', ran', related⟩ := corresponds.ok accord.related ran
    refine ⟨{ s' with arena := arena' }, ?_, { accord with related := related }⟩
    rw [onArena_run, ran']

/-- What changes neither arenas nor gas. -/
theorem accord_aside {γ' : Rapport v} {f g : Session → Session}
    (kept : ∀ {s s'}, Accord ρ here here' γ s s' → Accord ρ here here' γ' (f s) (g s')) :
    Follows Whatever (accord ρ here here' γ) (modify f) (modify g)
      fun _ => accord ρ here here' γ' :=
  .of_ok fun accord done => by
    cases done
    exact ⟨_, rfl, kept accord⟩

theorem accord_adjust {f f' g : Timeline → Timeline} (first : Timeline.Renders v f g)
    (second : Timeline.Renders v f' g) :
    Follows Whatever (accord ρ here here' γ) (adjust here f) (adjust here' f')
      fun _ => accord ρ here here' γ :=
  accord_aside fun {s s'} accord =>
    { accord with
      related := by
        obtain ⟨φ, known, kindred⟩ := accord.related
        exact ⟨φ, known, kindred.adjust (known _ List.mem_cons_self) first second⟩ }

theorem accord_gesture {p : TimelineId → Play α} (gesture : Gesture p) :
    Follows Whatever (accord ρ here here' γ) (p here) (p here')
      fun _ => accord ρ here here' γ := by
  cases gesture with
  | burn offset =>
    refine .of_ok fun {s s' a t} accord done => ?_
    have gas := accord.gas
    rw [burn_run] at done ⊢
    split at done
    · exact nomatch done
    · next left =>
      cases done
      rw [if_neg (by omega)]
      refine ⟨_, rfl, { accord with gas := ?_ }⟩
      dsimp only
      omega
  | change tweak =>
    have renders := Timeline.renders_change (v := v) tweak.change
    exact accord_adjust renders renders
  | beginTuplet offset size =>
    exact accord_arena (Arena.corresponds_beginTuplet List.mem_cons_self offset size)
  | @definitions _ step request =>
    refine .of_ok fun {s s' a t} accord done => ?_
    rw [onDefinitions, Step.within_run, accord.definitions] at done
    rw [onDefinitions, Step.within_run]
    cases ran : step.run s'.definitions with
    | error fault definitions =>
      rw [ran] at done
      exact nomatch done
    | ok b definitions =>
      rw [ran] at done
      cases done
      exact ⟨_, rfl, { accord with definitions := rfl }⟩
  | restore definitions fermata =>
    exact accord_aside fun accord => { accord with definitions := rfl, fermata := rfl }

theorem stage_run (here : TimelineId) (pitches : List Nat) (s : Session) :
    (stage here pitches).run s =
      let state := (s.arena.timeline here).state
      match s.graces with
      | none => .ok ⟨[⟨pitches, state.quantization, state.velocity, false⟩], 0⟩
        { s with graces := none }
      | some (offset, graces) =>
        let length := Modifier.graceLength * graces.length
        if state.quantization ≤ length then .error ⟨.graceTooLong, offset⟩ { s with graces := none }
        else .ok ⟨graces.map (⟨·, Modifier.graceLength, state.velocity, true⟩) ++
          [⟨pitches, state.quantization - length, state.velocity, false⟩], 0⟩
          { s with graces := none } := by
  have read : (timeline here).run s = .ok (s.arena.timeline here) s := rfl
  have taken : takeGraces.run s = .ok s.graces { s with graces := none } := rfl
  simp only [stage, EStateM.run_bind, read, taken]
  cases s.graces with
  | none => rfl
  | some waiting =>
    dsimp only
    split <;> rfl

theorem accord_stage (pitches : List Nat) :
    Follows Whatever (accord ρ here here' γ) (stage here pitches) (stage here' pitches)
      fun _ => accord ρ here here' γ := by
  refine .of_both fun {s s'} coupled => ?_
  have silent : Accord ρ here here' γ { s with graces := none } { s' with graces := none } :=
    { coupled with graces := rfl }
  rw [stage_run, stage_run, coupled.consonant.timeline.state, coupled.graces]
  cases s'.graces with
  | none => exact ⟨rfl, silent⟩
  | some waiting =>
    dsimp only
    split
    · trivial
    · exact ⟨rfl, silent⟩

theorem accord_timeline {Q : β → Session → Session → Prop} {f f' : Timeline → Play β}
    (rest : ∀ t t' : Timeline, t.Alike t' →
      Follows Whatever (accord ρ here here' γ) (f t) (f' t') fun b => lenient (Q b)) :
    Follows Whatever (accord ρ here here' γ) (timeline here >>= f) (timeline here' >>= f')
      fun b => lenient (Q b) :=
  .of_both fun coupled => (rest _ _ coupled.consonant.timeline).both _ _ coupled

theorem accord_unless {Q : β → Session → Session → Prop} {c : Prop} [Decidable c] {offset : Nat}
    {cause : Cause} {f f' : PUnit → Play β}
    (rest : Follows Whatever (accord ρ here here' γ) (f ⟨⟩) (f' ⟨⟩) fun b => lenient (Q b)) :
    Follows Whatever (accord ρ here here' γ) (if c then Step.failAt offset cause >>= f else f ⟨⟩)
      (if c then Step.failAt offset cause >>= f' else f' ⟨⟩) fun b => lenient (Q b) := by
  split
  · exact .of_both fun _ => trivial
  · exact rest

theorem accord_session {Q : β → Session → Session → Prop} {f f' : Session → Play β}
    (rest : ∀ {s s'}, Accord ρ here here' γ s s' →
      Follows Whatever (accord ρ here here' γ) (f s) (f' s') fun b => lenient (Q b)) :
    Follows Whatever (accord ρ here here' γ) (get >>= f) (get >>= f')
      fun b => lenient (Q b) :=
  .of_both fun coupled => (rest coupled).both _ _ coupled

theorem accord_commit (offset : Nat) (pitches : List Nat) (arpeggio : Bool) :
    Follows Whatever (accord ρ here here' γ) (commit here offset pitches arpeggio)
      (commit here' offset pitches arpeggio) fun _ => accord ρ here here' γ := by
  apply accord_timeline
  intro t t' alike
  rw [alike.position]
  apply (accord_stage pitches).bind
  intro plain
  refine accord_session fun {s s'} coupled => ?_
  dsimp only
  rw [coupled.stack, coupled.stack', γ.alike.interval]
  have shown : (Modifier.applyAll γ.stack t'.position plain).tint v =
      (Modifier.applyAll γ.stack' t'.position plain).tint v := γ.alike.staged rfl
  generalize Modifier.applyAll γ.stack t'.position plain = staged at shown ⊢
  generalize Modifier.applyAll γ.stack' t'.position plain = staged' at shown ⊢
  have onsets := congrArg (fun staged => Draft.onsets t'.position staged.notes) shown
  simp only [Staged.tint, Draft.onsets_tint] at onsets
  rw [onsets]
  refine Follows.bind (accord_aside fun coupled =>
    { coupled with onsets := fun tied => by rw [coupled.onsets tied] }) fun _ => ?_
  split
  · exact accord_arena (Arena.corresponds_commitArpeggio List.mem_cons_self offset _ shown)
  · refine accord_arena (Arena.corresponds_update List.mem_cons_self
      (Timeline.renders_commit ..) ?_)
    rw [shown]
    exact Timeline.renders_commit ..

theorem accord_sound {p : TimelineId → Play Nat} (sounding : Sounding p) :
    Follows Whatever (accord ρ here here' γ) (p here) (p here')
      fun _ => accord ρ here here' γ := by
  cases sounding with
  | rest =>
    exact accord_arena (Arena.corresponds_update List.mem_cons_self Timeline.renders_rest
      Timeline.renders_rest)
  | tie offset => exact accord_arena (Arena.corresponds_tie List.mem_cons_self offset)
  | commit offset pitches arpeggio => exact accord_commit offset pitches arpeggio

/-- A measurement leaves the session as it was. -/
theorem measure_ok {inner : Performer} {references offset : Nat} {body : List Item}
    {bounds : Nat × Nat} (done : (measure inner here references offset body).run s = .ok bounds t) :
    t = s := by
  rw [measure_run] at done
  split at done
  · exact nomatch done
  · split at done
    · cases done
      rfl
    · exact nomatch done

section Solo
variable {inner inner' : Performer}
  (accompanies : Performer.Accompanies Whatever (accord (v := v) ρ) inner inner')
include accompanies

/-- Dynamics that only the first performance puts on its stack. -/
theorem accord_shaded (mixed : γ.mixed) (references : Nat) (ramp : Ramp) (body : List Item) :
    Follows Whatever (accord ρ here here' γ)
      (underModifier inner here references (.dynamics ramp) body)
      (performAll inner' here' references body) fun _ => accord ρ here here' γ :=
  .of_ok fun {s s' ticks t} coupled done => by
    let shaded : Rapport v :=
      { γ with stack := .dynamics ramp :: γ.stack, alike := γ.alike.shaded (γ.flat mixed) ramp }
    obtain ⟨_, _, pushed, done⟩ := Step.bind_ok done
    cases pushed
    obtain ⟨_, u, performed, done⟩ := Step.bind_ok done
    cases done
    have start : Accord ρ here here' shaded
        { s with modifiers := .dynamics ramp :: s.modifiers } s' :=
      { coupled with stack := congrArg _ coupled.stack }
    obtain ⟨t', performed', after⟩ :=
      (Ensemble.follows_all accompanies references body).ok start performed
    exact ⟨t', performed', { after with stack := congrArg List.tail after.stack }⟩

/-- The first performance measures the span and shades it; the second one just goes through it. -/
theorem accord_solo (mixed : γ.mixed) (references offset : Nat) (direction : Direction)
    (target : Nat) (body : List Item) : Follows Whatever (accord ρ here here' γ)
      (performDynamics inner here references offset direction target body)
      (performDynamics inner' here' references offset direction target body)
      fun _ => accord ρ here here' γ := by
  apply accord_timeline
  intro t t' alike
  rw [alike.state]
  have finish (ticks : Nat) : Follows Whatever (accord ρ here here' γ)
      (do setVelocity here target; return ticks) (do setVelocity here' target; return ticks)
      fun _ => accord ρ here here' γ := by
    have renders := Timeline.renders_change (v := v)
      (.state fun state => { state with velocity := target })
    exact (accord_adjust renders renders).bind fun _ =>
      Follows.pure (Q := fun _ => accord ρ here here' γ) ticks
  refine accord_unless (accord_session fun {s s'} coupled => ?_)
  obtain ⟨plain, measured⟩ := coupled.measured mixed
  simp only [plain, measured, Bool.false_eq_true, reduceIte]
  refine .of_ok fun {u u' ticks w} coupled done => ?_
  obtain ⟨bounds, _, found, played⟩ := Step.bind_ok done
  rw [measure_ok found] at played
  exact ((accord_shaded accompanies mixed references _ body).bind finish).ok coupled played

end Solo

/-- More counterparts that wait. -/
def Rapport.holding (pairs : List (TimelineId × TimelineId)) (γ : Rapport v) : Rapport v :=
  { γ with pairs := pairs ++ γ.pairs }

/-- Fewer counterparts need be known. -/
theorem Accord.turn {γ' : Rapport v} (accord : Accord ρ here here' γ s s')
    {there there' : TimelineId} (same : γ' = { γ with pairs := γ'.pairs })
    (known : ∀ pair ∈ (there, there') :: γ'.pairs, pair ∈ (here, here') :: γ.pairs) :
    Accord ρ there there' γ' s s' := by
  rw [same]
  obtain ⟨φ, all, kindred⟩ := accord.related
  exact { accord with related := ⟨φ, fun pair member => all pair (known pair member), kindred⟩ }

/-- Children claimed on both sides wait as counterparts. -/
theorem accord_claim (offset : Nat) (slot : Slot) {f g : TimelineId → Play α}
    {Q : α → Coupling Session} {γ' : TimelineId → TimelineId → Rapport v}
    (more : ∀ child child', γ' child child' = { γ with pairs := (γ' child child').pairs } ∧
      ∀ pair ∈ (γ' child child').pairs, pair = (child, child') ∨ pair ∈ γ.pairs)
    (rest : ∀ child child', Follows Whatever (accord ρ here here' (γ' child child')) (f child)
      (g child') Q) :
    Follows Whatever (accord ρ here here' γ) (onArena (Arena.childAt here offset slot) >>= f)
      (onArena (Arena.childAt here' offset slot) >>= g) Q := by
  have alone (fault : Fault) (s' : Session) : Coupling.Survives Whatever Q fault
      ((onArena (Arena.childAt here' offset slot) >>= g).run s') := by
    rw [EStateM.run_bind]
    cases (onArena (Arena.childAt here' offset slot)).run s' with
    | ok child' t' => exact (rest child' child').alone fault t' trivial
    | error fault' t' => trivial
  refine ⟨fun s s' coupled => ?_, fun fault s' _ => alone fault s'⟩
  rw [EStateM.run_bind]
  cases claimed : (onArena (Arena.childAt here offset slot)).run s with
  | error fault t => exact alone fault s'
  | ok child t =>
    obtain ⟨arena, ran, rfl⟩ := onArena_ok claimed
    obtain ⟨φ, known, kindred⟩ := coupled.related
    obtain ⟨φ', child', arena', grown, ran', named, kindred'⟩ :=
      kindred.childAt (known _ List.mem_cons_self) ran
    have claimed' : (onArena (Arena.childAt here' offset slot)).run s' =
        .ok child' { s' with arena := arena' } := by
      rw [onArena_run, ran']
    rw [EStateM.run_bind, claimed']
    obtain ⟨same, listed⟩ := more child child'
    refine (rest child child').both _ _ ?_
    rw [same]
    refine { coupled with related := ⟨φ', fun pair member => ?_, kindred'⟩ }
    rcases List.mem_cons.mp member with rfl | member
    · exact grown _ _ (known _ List.mem_cons_self)
    · rcases listed pair member with rfl | old
      · exact named
      · exact grown _ _ (known pair (List.mem_cons_of_mem _ old))

theorem accord_fork (here here' : TimelineId) (γ : Rapport v) (count : Nat) :
    Fork Whatever (accord (v := v) ρ) (accord ρ here here' γ) here here' count
      (fun _ pairs => accord ρ here here' (γ.holding pairs))
      (fun _ pairs => accord ρ here here' (γ.holding pairs))
      fun _ => accord ρ here here' γ where
  reserve := accord_arena (Arena.corresponds_update List.mem_cons_self
    (Timeline.renders_reserve count) (Timeline.renders_reserve count))
  claim {α base pairs offset f g R} _ rest := by
    refine accord_claim offset _ (fun child child' => ⟨rfl, fun pair member => ?_⟩) rest
    simp only [Rapport.holding, List.append_assoc, List.mem_append, List.mem_singleton] at member ⊢
    rcases member with old | new | known
    · exact .inr (.inl old)
    · exact .inl new
    · exact .inr (.inr known)
  first {base pairs} _ := by
    have renders := Timeline.renders_change (v := v) (.release base)
    exact ⟨fun coupled => ⟨_, fun _ => accord_adjust renders renders, coupled⟩,
      fun left => ⟨_, fun _ => accord_adjust renders renders, left⟩⟩
  other {ticks pair pairs} := by
    let entered : Rapport v := γ.holding ((here, here') :: pairs)
    have closes : (accord ρ pair.1 pair.2 entered).Within
        (accord ρ here here' (γ.holding pairs)) :=
      ⟨fun coupled => coupled.turn rfl fun _ => List.mem_cons_of_mem _, id⟩
    refine ⟨fun coupled => ⟨entered, closes, coupled.turn rfl fun other member => ?_⟩,
      fun left => ⟨entered, closes, left⟩⟩
    rcases List.mem_cons.mp member with rfl | member
    · exact List.mem_cons_of_mem _ List.mem_cons_self
    rcases List.mem_cons.mp member with rfl | member
    · exact List.mem_cons_self
    · exact List.mem_cons_of_mem _ (List.mem_cons_of_mem _ member)
  done := .refl _

theorem duet_accord : Duet Whatever (accord (v := v) ρ) where
  fails _ := trivial
  loose _ _ := trivial
  lone _ := .inr fun _ => trivial
  consonant := Accord.consonant
  measuring plain accord := accord.measuring plain
  gesture := accord_gesture
  sound := accord_sound
  push _ := accord_aside fun coupled =>
    { coupled with stack := congrArg _ coupled.stack, stack' := congrArg _ coupled.stack' }
  pop := accord_aside fun coupled =>
    { coupled with
      stack := congrArg List.tail coupled.stack
      stack' := congrArg List.tail coupled.stack' }
  prepare _ := accord_aside fun coupled => { coupled with graces := rfl }
  graceful := .refl _
  clear := accord_aside fun coupled => { coupled with graces := rfl }
  copy plain coupled :=
    { coupled with
      onsets := fun _ => rfl
      measuring := fun _ => rfl
      measured := fun mixed => absurd mixed plain }
  copyAlone _ _ _ := trivial
  onsets coupled := coupled.onsets trivial
  solo mixed accompanies := accord_solo accompanies mixed
  fork here here' γ count := ⟨_, _, accord_fork here here' γ count⟩

end TextScore.Session
