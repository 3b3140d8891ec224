import TextScore.Proofs.Scenes

/-! From the small steps of a performance to whole items. Performing an item is built from a few
small steps on the session; two performances whose small steps lead from scene to scene keep to their
scenes on every item, whatever the items inside it. -/
namespace TextScore.Session
open Step (Follows)
open Coupling (Agree)
open Scene

variable {meets : Fault → Fault → Prop} {Γ : Type} [Scene Γ]
  {K : (here here' : TimelineId) → Γ → Coupling Session} {here here' : TimelineId} {γ : Γ}
  {inner inner' : Performer} {α β : Type} {P : Coupling Session} {Q : β → Coupling Session}

theorem exists_consonant (here here' : TimelineId) (s' : Session) :
    ∃ s, Consonant here here' s s' := by
  let arena : Arena := ⟨Array.replicate (here + 1) (s'.arena.timeline here')⟩
  have same : arena.timeline here = s'.arena.timeline here' := by
    simp only [Arena.timeline, arena, Array.getElem?_replicate, Nat.lt_succ_self, reduceIte,
      Option.getD_some]
  exact ⟨{ s' with arena := arena }, ⟨by rw [same], by rw [same], by rw [same]⟩, rfl, rfl, rfl, rfl⟩

omit [Scene Γ] in
theorem Enters.follows {closes : Γ → Prop} (enters : Enters K P here here' closes) {p q : Play β}
    (rest : ∀ γ, closes γ → Follows meets (K here here' γ) p q Q) : Follows meets P p q Q := by
  constructor
  · intro s s' coupled
    obtain ⟨γ, closing, coupled⟩ := enters.both coupled
    exact (rest γ closing).both s s' coupled
  · intro fault s' left
    obtain ⟨γ, closing, left⟩ := enters.alone left
    exact (rest γ closing).alone fault s' left

namespace Ensemble

theorem follows_failAt (ensemble : Ensemble meets K) (offset : Nat) {cause : Cause}
    (other : cause ≠ .childAheadOfParent) (played : cause ≠ .unexpectedEnd) :
    Follows meets (K here here' γ) (Step.failAt offset cause) (Step.failAt offset cause) Q :=
  Follows.failAt offset cause (ensemble.fails other) fun left => ensemble.loose left played

theorem follows_unless (ensemble : Ensemble meets K) {c : Prop} [Decidable c] {offset : Nat}
    {cause : Cause} {f g : PUnit → Play β} (other : cause ≠ .childAheadOfParent)
    (played : cause ≠ .unexpectedEnd)
    (rest : ¬ c → Follows meets (K here here' γ) (f ⟨⟩) (g ⟨⟩) Q) :
    Follows meets (K here here' γ) (if c then Step.failAt offset cause >>= f else f ⟨⟩)
      (if c then Step.failAt offset cause >>= g else g ⟨⟩) Q := by
  split
  · exact ⟨fun s s' _ => ensemble.fails other, fun fault s' left => ensemble.loose left played⟩
  · next refused => exact rest refused

omit [Scene Γ] in
theorem follows_pure (a : α) : Follows meets (K here here' γ) (pure a) (pure a)
    fun _ => K here here' γ := Follows.pure (Q := fun _ => K here here' γ) a

/-- No ticks have passed. -/
theorem follows_still : Follows meets (K here here' γ) (pure 0) (pure 0)
    fun ticks => K here here' (after ticks γ) := by
  have still : Follows meets (K here here' (after 0 γ)) (pure 0) (pure 0) fun ticks =>
      K here here' (after ticks γ) :=
    Follows.pure (Q := fun ticks => K here here' (after ticks γ)) 0
  rwa [after_zero] at still

theorem follows_answer (ticks : Nat) : Follows meets (K here here' (after ticks γ)) (pure ticks)
    (pure ticks) fun ticks => K here here' (after ticks γ) :=
  Follows.pure (Q := fun ticks => K here here' (after ticks γ)) ticks

theorem andThen (ensemble : Ensemble meets K) {p : TimelineId → Play α} (gesture : Gesture p)
    {f g : α → Play β} (rest : ∀ a, Follows meets (K here here' γ) (f a) (g a) Q) :
    Follows meets (K here here' γ) (p here >>= f) (p here' >>= g) Q :=
  (ensemble.gesture gesture).bind rest

theorem follows_session (ensemble : Ensemble meets K) {f g : Session → Play β}
    (rest : ∀ s s', Consonant here here' s s' → Follows meets (K here here' γ) (f s) (g s') Q) :
    Follows meets (K here here' γ) (get >>= f) (get >>= g) Q := by
  constructor
  · intro s s' coupled
    exact (rest s s' (ensemble.consonant coupled)).both s s' coupled
  · intro fault s' left
    obtain ⟨s, consonant⟩ := exists_consonant here here' s'
    exact (rest s s' consonant).alone fault s' left

theorem follows_timeline (ensemble : Ensemble meets K) {f g : Timeline → Play β}
    (rest : ∀ t t' : Timeline, t.Alike t' → Follows meets (K here here' γ) (f t) (g t') Q) :
    Follows meets (K here here' γ) (timeline here >>= f) (timeline here' >>= g) Q :=
  ⟨fun s s' coupled => (rest _ _ (ensemble.consonant coupled).timeline).both s s' coupled,
    fun fault s' left => (rest _ _ ⟨rfl, rfl, rfl⟩).alone fault s' left⟩

section Pitches

theorem follows_found (ensemble : Ensemble meets K) (offset : Nat) (found : Option Nat) :
    Follows meets (K here here' γ)
      (match found with
        | some a => pure a
        | none => Step.failAt offset .pitchOutOfRange : Play Nat)
      (match found with
        | some a => pure a
        | none => Step.failAt offset .pitchOutOfRange : Play Nat) fun _ => K here here' γ := by
  cases found with
  | some a => exact follows_pure a
  | none => exact ensemble.follows_failAt offset nofun nofun

theorem follows_keyPitch (ensemble : Ensemble meets K) (key : Key) :
    Follows meets (K here here' γ) (keyPitch here key) (keyPitch here' key)
      fun _ => K here here' γ := by
  apply ensemble.follows_session
  intro s s' alike
  simp only [alike.timeline.state, alike.substitution]
  have found := @follows_found _ _ _ _ here here' γ ensemble key.offset
  cases key.tone with
  | pitchClass c => exact (follows_pure _).bind found
  | placeholder =>
    cases Modifier.substitution? s'.modifiers with
    | none =>
      exact Follows.bind (Q := fun _ => K here here' γ)
        (ensemble.follows_failAt key.offset nofun nofun) found
    | some pair => exact (follows_pure _).bind found

theorem follows_chordPitches (ensemble : Ensemble meets K) (octaves : Int) (chord : Chord) :
    Follows meets (K here here' γ) (chordPitches here octaves chord)
      (chordPitches here' octaves chord) fun _ => K here here' γ := by
  unfold chordPitches
  exact ensemble.follows_unless nofun nofun fun _ =>
    Follows.mapM fun key _ => ensemble.follows_keyPitch (raise octaves key)

mutual

theorem follows_gracePitches (ensemble : Ensemble meets K) (octaves : Int) : (item : Item) →
    Follows meets (K here here' γ) (gracePitches here octaves item)
      (gracePitches here' octaves item) fun _ => K here here' γ
  | .key k => (ensemble.follows_keyPitch (raise octaves k)).bind fun pitch => follows_pure [[pitch]]
  | .chord c => (ensemble.follows_chordPitches octaves c).bind fun pitches => follows_pure [pitches]
  | .range offset kind body => match kind with
    | .octaveUp => follows_allGracePitches ensemble (octaves + 1) body
    | .octaveDown => follows_allGracePitches ensemble (octaves - 1) body
    | .tuplet _ | .sustain | .userRange _ => ensemble.follows_failAt offset nofun nofun
  | .setting _ | .ornament .. | .tie _ | .breakpoint .. | .graced .. | .group .. | .groupRef ..
  | .parallel .. | .emoji .. | .rest _ => ensemble.follows_failAt _ nofun nofun

theorem follows_allGracePitches (ensemble : Ensemble meets K) (octaves : Int) :
    (items : List Item) → Follows meets (K here here' γ) (allGracePitches here octaves items)
      (allGracePitches here' octaves items) fun _ => K here here' γ
  | [] => follows_pure []
  | item :: rest => (follows_gracePitches ensemble octaves item).bind fun pitches =>
    (follows_allGracePitches ensemble octaves rest).bind fun more => follows_pure (pitches ++ more)

end

theorem follows_prepareGraces (ensemble : Ensemble meets K) (offset : Nat) (items : List Item) :
    Follows meets (K here here' γ) (prepareGraces here offset items)
      (prepareGraces here' offset items) fun _ => K here here' (graced γ) := by
  apply (ensemble.follows_allGracePitches 0 items).bind
  intro pitches
  exact ensemble.follows_unless nofun nofun fun _ => ensemble.prepare (offset, pitches)

/-- The graces are taken before they are looked at. -/
theorem requireNoGraces_eq : requireNoGraces = (do
    let s ← get
    modify fun s => { s with graces := none }
    match s.graces with
      | none => return
      | some (offset, _) => Step.failAt offset .graceWithoutNote) := rfl

/-- Graces that are left over are a fault, so none wait any longer. -/
theorem follows_requireNoGraces (ensemble : Ensemble meets K) {ticks : Nat} :
    Follows meets (K here here' (after ticks (graced γ))) requireNoGraces requireNoGraces
      fun _ => K here here' (after ticks γ) := by
  rw [requireNoGraces_eq]
  apply ensemble.follows_session
  intro s s' alike
  rw [alike.graces]
  apply ensemble.clear.bind
  intro _
  cases s'.graces with
  | none => exact follows_pure _
  | some waiting => exact ensemble.follows_failAt waiting.1 (by rintro ⟨⟩) (by rintro ⟨⟩)

end Pitches

theorem follows_applySetting (ensemble : Ensemble meets K) (s : Setting) (offset : Nat) :
    Follows meets (K here here' γ) (applySetting here s offset) (applySetting here' s offset)
      fun _ => K here here' γ := by
  apply ensemble.follows_timeline
  intro t t' alike
  rw [settingChange_congr alike.tuplet]
  cases change : settingChange t' s.key s.value with
  | error cause =>
    rcases settingChange_error change with rfl | rfl | rfl <;> exact ensemble.follows_failAt offset nofun nofun
  | ok f => exact ensemble.gesture (.change (settingChange_tweak change))

theorem follows_all (accompanies : Performer.Accompanies meets K inner inner') (references : Nat)
    (items : List Item) : Follows meets (K here here' γ) (performAll inner here references items)
      (performAll inner' here' references items) fun ticks => K here here' (after ticks γ) := by
  have one (ticks : Nat) (item : Item) : Follows meets (K here here' (after ticks γ))
      (do return ticks + (← inner here references item))
      (do return ticks + (← inner' here' references item))
      fun ticks => K here here' (after ticks γ) :=
    (accompanies references item).bind fun more => by
      rw [← after_add]
      exact follows_answer (ticks + more)
  have along : Follows meets (K here here' (after 0 γ)) (performAll inner here references items)
      (performAll inner' here' references items) fun ticks => K here here' (after ticks γ) :=
    Follows.foldlM_along (fun ticks item _ => one ticks item) 0
  rwa [after_zero] at along

theorem follows_refer (ensemble : Ensemble meets K) (references offset : Nat) :
    Follows meets (K here here' γ) (refer references offset) (refer references offset)
      fun _ => K here here' γ := by
  unfold refer
  split
  · exact ensemble.follows_failAt offset nofun nofun
  · exact follows_pure _

section Ranges
variable (ensemble : Ensemble meets K) (accompanies : Performer.Accompanies meets K inner inner')
include ensemble accompanies

theorem follows_octave (references : Nat) (octaves : Int) (body : List Item) :
    Follows meets (K here here' γ) (performOctave inner here references octaves body)
      (performOctave inner' here' references octaves body)
      fun ticks => K here here' (after ticks γ) := by
  have shift (octaves : Int) : Gesture fun here => shiftOctave here octaves :=
    .change ⟨.state fun state => { state with octave := state.octave + octaves }, fun _ => rfl⟩
  apply ensemble.andThen (shift octaves)
  intro _
  apply (follows_all accompanies references body).bind
  intro ticks
  exact ensemble.andThen (shift (-octaves)) fun _ => follows_answer ticks

theorem follows_tuplet (references offset size : Nat) (body : List Item) :
    Follows meets (K here here' γ) (performTuplet inner here references offset size body)
      (performTuplet inner' here' references offset size body)
      fun ticks => K here here' (after ticks γ) := by
  apply ensemble.andThen (.beginTuplet offset size)
  intro unit
  apply (follows_all accompanies references body).bind
  intro ticks
  exact ensemble.andThen (.change ⟨.endTuplet unit, fun _ => rfl⟩) fun _ => follows_answer ticks

theorem follows_sustain (references : Nat) (body : List Item) :
    Follows meets (K here here' γ) (performSustain inner here references body)
      (performSustain inner' here' references body)
      fun ticks => K here here' (after ticks γ) := by
  have pedal (value : Nat) : Gesture fun here =>
      adjust here (Timeline.setController sustainController value) :=
    .change ⟨.controller .., fun _ => rfl⟩
  apply ensemble.andThen (pedal 127)
  intro _
  apply (follows_all accompanies references body).bind
  intro ticks
  exact ensemble.andThen (pedal 0) fun _ => follows_answer ticks

/-- The template is performed for a key. -/
theorem follows_invokeKey (references : Nat) (template : List Item) (k : Key) :
    Follows meets (K here here' γ) (invokeKey inner here references template k)
      (invokeKey inner' here' references template k) fun ticks => K here here' (after ticks γ) := by
  apply (ensemble.follows_keyPitch k).bind
  intro base
  apply ensemble.follows_timeline
  intro t t' alike
  rw [alike.state]
  apply (ensemble.push _).bind
  intro _
  apply (follows_all accompanies references template).bind
  intro ticks
  exact ensemble.pop.bind fun _ => follows_answer ticks

theorem follows_invokeWith (references : Nat) (name : String) (template : List Item)
    (item : Item) : Follows meets (K here here' γ)
      (invokeWith inner here references name template item)
      (invokeWith inner' here' references name template item)
      fun ticks => K here here' (after ticks γ) := by
  cases item with
  | key k =>
    exact ensemble.andThen (.burn k.offset) fun _ =>
      ensemble.follows_invokeKey accompanies references template k
  | setting | rest => exact accompanies references _
  | _ => exact ensemble.follows_failAt _ nofun nofun

theorem follows_invoke (references offset : Nat) (name : String) (body : List Item) :
    Follows meets (K here here' γ) (invoke inner here references offset name body)
      (invoke inner' here' references offset name body)
      fun ticks => K here here' (after ticks γ) := by
  apply ensemble.andThen (.definitions (.template name offset))
  intro template
  apply (ensemble.follows_refer references offset).bind
  intro references
  exact follows_all (fun _ _ _ references item =>
    ensemble.follows_invokeWith accompanies references name template item) references body

theorem follows_range (references offset : Nat) (kind : RangeKind) (body : List Item) :
    Follows meets (K here here' γ) (performRange inner here references offset kind body)
      (performRange inner' here' references offset kind body)
      fun ticks => K here here' (after ticks γ) := by
  cases kind with
  | octaveUp | octaveDown => exact ensemble.follows_octave accompanies references _ body
  | tuplet size => exact ensemble.follows_tuplet accompanies references offset size body
  | sustain => exact ensemble.follows_sustain accompanies references body
  | userRange name => exact ensemble.follows_invoke accompanies references offset name body

end Ranges

section Ornaments
variable (ensemble : Ensemble meets K) (accompanies : Performer.Accompanies meets K inner inner')
include ensemble accompanies

theorem follows_underModifier (references : Nat) (modifier : Modifier) (body : List Item) :
    Follows meets (K here here' γ) (underModifier inner here references modifier body)
      (underModifier inner' here' references modifier body)
      fun ticks => K here here' (after ticks γ) := by
  apply (ensemble.push modifier).bind
  intro _
  apply (follows_all accompanies references body).bind
  intro ticks
  exact ensemble.pop.bind fun _ => follows_answer ticks

/-- Once the first performance has failed, the copy of the second one is on its own, too. -/
theorem measure_survives (references offset : Nat) (body : List Item) {fault : Fault} {s : Session}
    (left : (K here here' γ).alone fault s)
    (lone : (K here here' (copied γ)).alone fault s.measured ∨ ∀ fault', meets fault fault') :
    Coupling.Survives meets (fun _ => K here here' γ) fault
      ((measure inner' here' references offset body).run s) := by
  rw [measure_run]
  cases result : (performAll inner' here' references body).run s.measured with
  | ok ticks t => cases onsets : t.onsets with
    | some bounds =>
      simp only [onsets]
      exact left
    | none =>
      simp only [onsets]
      exact ensemble.loose left nofun
  | error fault' t =>
    rcases lone with copied | all
    · have survives := (follows_all accompanies references body).alone fault _ copied
      rw [result] at survives
      exact survives
    · exact all fault'

theorem follows_dynamics {references offset : Nat} {body : List Item}
    (measuring : ∀ {s s'}, (K here here' γ).both s s' → s.measuring = s'.measuring)
    (measured : Follows meets (K here here' γ) (measure inner here references offset body)
      (measure inner' here' references offset body) fun _ => K here here' γ)
    (direction : Direction) (target : Nat) : Follows meets (K here here' γ)
      (performDynamics inner here references offset direction target body)
      (performDynamics inner' here' references offset direction target body)
      fun ticks => K here here' (after ticks γ) := by
  apply ensemble.follows_timeline
  intro t t' alike
  rw [alike.state]
  have finish (ticks : Nat) : Follows meets (K here here' (after ticks γ))
      (do setVelocity here target; return ticks) (do setVelocity here' target; return ticks)
      fun ticks => K here here' (after ticks γ) :=
    ensemble.andThen (.change ⟨.state fun state => { state with velocity := target }, fun _ => rfl⟩)
      fun _ => follows_answer ticks
  refine ensemble.follows_unless nofun nofun fun _ => ?_
  refine Follows.read Session.measuring Session.measuring measuring
    (f := fun measuring => if measuring then _ else _)
    (g := fun measuring => if measuring then _ else _) fun measuring => ?_
  dsimp only
  split
  · exact (follows_all accompanies references body).bind finish
  · apply measured.bind
    intro bounds
    exact (ensemble.follows_underModifier accompanies references _ body).bind finish

theorem follows_bend (references : Nat) (body : List Item) :
    Follows meets (K here here' γ) (performBend inner here references body)
      (performBend inner' here' references body) fun ticks => K here here' (after ticks γ) := by
  have bends (list : List (Nat × Binary64)) : Gesture fun here => adjust here (addBends list) := by
    refine .change ⟨.bends list, fun t => ?_⟩
    induction list generalizing t with
    | nil => rfl
    | cons bend list ih => exact ih _
  have bend (position : Nat) (value : Binary64) :
      Gesture fun here => adjust here (Timeline.addBend position value) :=
    .change ⟨.bend .., fun _ => rfl⟩
  apply ensemble.follows_timeline
  intro t t' alike
  rw [alike.position]
  refine Follows.bind (Q := fun point => K here here' (after point.ticks γ)) ?_ fun final => ?_
  · have start : K here here' γ = K here here' (after 0 γ) := by rw [after_zero]
    rw [start]
    let along (point : BendPoint) : Coupling Session := K here here' (after point.ticks γ)
    refine @Follows.foldlM_along _ _ _ meets along _ _ _ (fun point item _ => ?_)
      ⟨0, .zero, t'.position⟩
    split
    · apply ensemble.follows_timeline
      intro t t' alike
      rw [alike.position]
      apply ensemble.andThen (bends _)
      intro _
      exact ensemble.andThen (bend ..) fun _ =>
        Follows.pure (Q := along) ⟨point.ticks, _, t'.position⟩
    · refine (accompanies references _).bind fun more => ?_
      rw [← after_add]
      exact Follows.pure (Q := along) ⟨point.ticks + more, point.value, point.position⟩
  · apply ensemble.follows_timeline
    intro t t' alike
    rw [alike.position]
    exact ensemble.andThen (bend ..) fun _ => follows_answer final.ticks

theorem follows_ornament (sways : Performer.Sways meets K inner inner') (references offset : Nat) (kind : Ornament) (body : List Item) :
    Follows meets (K here here' γ) (performOrnament inner here references offset kind body)
      (performOrnament inner' here' references offset kind body)
      fun ticks => K here here' (after ticks γ) := by
  cases kind with
  | staccato | sforzando | trill =>
    exact ensemble.follows_underModifier accompanies references _ body
  | fermata =>
    apply ensemble.follows_session
    intro s s' alike
    rw [alike.fermata]
    exact ensemble.follows_underModifier accompanies references _ body
  | crescendo target =>
    exact sways references offset .crescendo target body
  | decrescendo target =>
    exact sways references offset .decrescendo target body
  | pitchBend => exact ensemble.follows_bend accompanies references body

end Ornaments

section Parallel
variable {count : Nat} {opening waiting : Nat → List (TimelineId × TimelineId) → Coupling Session}
  {R : Nat → Coupling Session} (fork : Fork meets K P here here' count opening waiting R)
include fork

/-- The children that a passage claims, pair by pair. -/
theorem follows_children {base : Nat} (offset : Nat) {f g : List TimelineId → Play β}
    (rest : ∀ pairs : List (TimelineId × TimelineId), pairs.length = count →
      Follows meets (opening base pairs) (f (pairs.map Prod.fst)) (g (pairs.map Prod.snd)) Q) :
    Follows meets (opening base [])
      ((List.range count).mapM (fun i => onArena (Arena.childAt here offset (.branch (base + i))))
        >>= f)
      ((List.range count).mapM (fun i => onArena (Arena.childAt here' offset (.branch (base + i))))
        >>= g) Q := by
  apply Follows.mapM_paired (opening base) _ rest
  intro pairs more f g next
  exact fork.claim more next

variable (ensemble : Ensemble meets K) (accompanies : Performer.Accompanies meets K inner inner')
include ensemble accompanies

theorem follows_branch (references offset : Nat) {expected : Nat} {pair : TimelineId × TimelineId}
    {pairs : List (TimelineId × TimelineId)} (body : List Item) :
    Follows meets (waiting expected (pair :: pairs))
      (performBranch inner references offset expected (pair.1, body))
      (performBranch inner' references offset expected (pair.2, body))
      fun _ => waiting expected pairs := by
  refine fork.other.follows fun γ closes => ?_
  apply ensemble.follows_session
  intro s s' alike
  rw [alike.definitions, alike.fermata]
  apply (follows_all accompanies references body).bind
  intro ticks
  apply ensemble.andThen (.restore ..)
  intro _
  refine ensemble.follows_unless nofun nofun fun same => ?_
  obtain rfl := Decidable.not_not.mp same
  exact (Follows.pure (Q := fun _ => waiting ticks pairs) _).mono closes fun _ => .refl _

/-- Each child plays its branch while the others wait. -/
theorem follows_others (references offset : Nat) {expected : Nat}
    (pairs : List (TimelineId × TimelineId)) (branches : List (List Item))
    (all : pairs.length = branches.length) : Follows meets (waiting expected pairs)
      (((pairs.map Prod.fst).zip branches).forM (performBranch inner references offset expected))
      (((pairs.map Prod.snd).zip branches).forM (performBranch inner' references offset expected))
      fun _ => R expected := by
  induction pairs generalizing branches with
  | nil => exact (Follows.pure (Q := fun _ => R expected) _).mono fork.done fun _ => .refl _
  | cons pair pairs ih => cases branches with
    | nil => exact nomatch all
    | cons body branches =>
      exact (follows_branch fork ensemble accompanies references offset body).bind fun _ =>
        ih branches (Nat.succ.inj all)

theorem follows_passage (references offset : Nat) (branch : List Item)
    {branches : List (List Item)} (all : branches.length = count) :
    Follows meets P (performParallel inner here references offset (branch :: branches))
      (performParallel inner' here' references offset (branch :: branches)) R := by
  subst all
  apply fork.reserve.bind
  intro base
  refine follows_children fork offset fun pairs length => ?_
  refine (fork.first length).follows fun γ closes => ?_
  apply (follows_all accompanies references branch).bind
  intro expected
  apply (closes expected).bind
  intro _
  exact (follows_others fork ensemble accompanies references offset pairs branches length).bind fun _ =>
    Follows.pure (Q := R) expected

end Parallel

section Items
variable (ensemble : Ensemble meets K) (accompanies : Performer.Accompanies meets K inner inner')
include ensemble accompanies

theorem follows_parallel (references offset : Nat) (branches : List (List Item)) :
    Follows meets (K here here' γ) (performParallel inner here references offset branches)
      (performParallel inner' here' references offset branches)
      fun ticks => K here here' (after ticks γ) := by
  cases branches with
  | nil => exact follows_still
  | cons branch branches =>
    obtain ⟨opening, waiting, fork⟩ := ensemble.fork here here' γ branches.length
    exact follows_passage fork ensemble accompanies references offset branch rfl

theorem follows_sound (sways : Performer.Sways meets K inner inner') (references : Nat)
    (sound : Item) :
    Follows meets (K here here' (graced γ)) (performWith.performSound inner here references sound)
      (performWith.performSound inner' here' references sound)
      fun ticks => K here here' (after ticks γ) := by
  have finish {p q : Play Nat} (played : Follows meets (K here here' (graced γ)) p q
      fun ticks => K here here' (after ticks (graced γ))) :
      Follows meets (K here here' (graced γ)) (do let ticks ← p; requireNoGraces; return ticks)
        (do let ticks ← q; requireNoGraces; return ticks)
        fun ticks => K here here' (after ticks γ) :=
    played.bind fun ticks => ensemble.follows_requireNoGraces.bind fun _ => follows_answer ticks
  cases sound with
  | key k =>
    refine finish ((ensemble.follows_keyPitch k).bind fun pitch => ?_)
    exact ensemble.sound (.commit k.offset [pitch] false (List.cons_ne_nil pitch []))
  | chord c =>
    have pitched : Follows meets (K here here' (graced γ)) (chordPitches here 0 c)
        (chordPitches here' 0 c) fun _ => K here here' (graced γ) := ensemble.follows_chordPitches 0 c
    refine finish ((pitched.known chordPitches_some).bind fun pitches => .provided fun some => ?_)
    exact ensemble.sound (.commit c.offset pitches c.arpeggio some)
  | ornament offset kind body =>
    exact finish (ensemble.follows_ornament accompanies sways references offset kind body)
  | tie offset => exact finish (ensemble.sound (.tie offset))
  | _ => exact finish (accompanies references _)

omit accompanies in
theorem follows_opened (offset : Nat) {p q : Play Nat} {R : Nat → Coupling Session}
    (rest : Follows meets (K here here' γ) p q R) :
    Follows meets (K here here' γ) (opened here offset p) (opened here' offset q) R := by
  apply ensemble.andThen (.burn offset)
  intro _
  apply ensemble.follows_timeline
  intro t t' alike
  rw [alike.position]
  exact ensemble.follows_unless nofun nofun fun _ => rest

/-- What comes after the opening is performed alike. -/
theorem exists_opened (sways : Performer.Sways meets K inner inner') (references : Nat)
    (item : Item) : (∃ offset value, item = .breakpoint offset value) ∨ ∃ p p',
      performWith inner here references item = opened here item.offset p ∧
      performWith inner' here' references item = opened here' item.offset p' ∧
      Follows meets (K here here' γ) p p' fun ticks => K here here' (after ticks γ) := by
  have sound (item : Item) : Follows meets (K here here' (graced γ))
      (performWith.performSound inner here references item)
      (performWith.performSound inner' here' references item)
      fun ticks => K here here' (after ticks γ) := ensemble.follows_sound accompanies sways references item
  have plain (item : Item) := (sound item).mono ensemble.graceful fun _ => .refl _
  have quiet {p q : Play Unit} (played : Follows meets (K here here' γ) p q
      fun _ => K here here' γ) : Follows meets (K here here' γ) (do p; return 0) (do q; return 0)
        fun ticks => K here here' (after ticks γ) := played.bind fun _ => follows_still
  cases item with
  | breakpoint offset value => exact .inl ⟨offset, value, rfl⟩
  | setting s => exact .inr ⟨_, _, rfl, rfl, quiet (ensemble.follows_applySetting s s.offset)⟩
  | range offset kind body =>
    exact .inr ⟨_, _, rfl, rfl, ensemble.follows_range accompanies references offset kind body⟩
  | group offset id body =>
    refine .inr ⟨_, _, rfl, rfl, ensemble.andThen (.definitions (.declareGroup id body offset)) fun _ => ?_⟩
    exact follows_all accompanies references body
  | groupRef offset id =>
    refine .inr ⟨_, _, rfl, rfl, ?_⟩
    apply (ensemble.follows_refer references offset).bind
    intro references
    apply ensemble.andThen (.definitions (.group id offset))
    intro body
    exact follows_all accompanies references body
  | parallel offset branches =>
    exact .inr ⟨_, _, rfl, rfl, ensemble.follows_parallel accompanies references offset branches⟩
  | emoji offset symbol =>
    refine .inr ⟨_, _, rfl, rfl, ensemble.andThen (.definitions (.emoji symbol offset)) fun s => ?_⟩
    exact quiet (ensemble.follows_applySetting s offset)
  | rest offset => exact .inr ⟨_, _, rfl, rfl, ensemble.sound .rest⟩
  | graced offset graces main =>
    have prepared := (ensemble.follows_prepareGraces offset graces).bind fun _ => sound main
    cases main with
    | tie _ => exact .inr ⟨_, _, rfl, rfl, ensemble.follows_failAt offset nofun nofun⟩
    | _ => exact .inr ⟨_, _, rfl, rfl, prepared⟩
  | _ => exact .inr ⟨_, _, rfl, rfl, plain _⟩

theorem follows_with (sways : Performer.Sways meets K inner inner') :
    Performer.Accompanies meets K (performWith inner) (performWith inner') := by
  intro here here' γ references item
  rcases ensemble.exists_opened accompanies sways references item with
    ⟨offset, value, rfl⟩ | ⟨p, p', first, second, rest⟩
  · exact ensemble.follows_failAt offset nofun nofun
  · rw [first, second]
    exact ensemble.follows_opened item.offset rest

end Items

theorem follows_perform (ensemble : Ensemble meets K)
    (sways : ∀ {depth}, Performer.Accompanies meets K (perform depth) (perform depth) →
      Performer.Sways meets K (perform depth) (perform depth)) (depth : Nat) :
    Performer.Accompanies meets K (perform depth) (perform depth) := by
  induction depth with
  | zero =>
    intro here here' γ references item
    exact ensemble.andThen (.burn _) fun _ => ensemble.follows_failAt _ nofun nofun
  | succ depth ih => exact ensemble.follows_with ih (sways ih)

end Ensemble

namespace Duet
open Ensemble
section Dynamics
variable (duet : Duet meets K) (accompanies : Performer.Accompanies meets K inner inner')
include duet accompanies

/-- A span is measured on copies. The copies are thrown away, so the runs go on where they
were. -/
theorem follows_measure (plain : ¬ mixed γ) (references offset : Nat) (body : List Item) :
    Follows meets (K here here' γ) (measure inner here references offset body)
      (measure inner' here' references offset body) fun _ => K here here' γ := by
  constructor
  · intro s s' coupled
    have agree := (follows_all accompanies references body).both _ _ (duet.copy plain coupled)
    rw [measure_run, measure_run]
    cases first : (performAll inner here references body).run s.measured with
    | ok a t => cases second : (performAll inner' here' references body).run s'.measured with
      | ok b t' =>
        rw [first, second] at agree
        dsimp only
        rw [← duet.onsets agree.2]
        cases t.onsets with
        | none => exact duet.fails nofun
        | some bounds => exact ⟨rfl, coupled⟩
      | error fault' t' =>
        rw [first, second] at agree
        exact agree.elim
    | error fault t => cases second : (performAll inner' here' references body).run s'.measured with
      | ok b t' =>
        rw [first, second] at agree
        have left := duet.copyAlone plain coupled agree
        cases onsets : t'.onsets with
        | none =>
          simp only [onsets]
          exact duet.loose left nofun
        | some bounds =>
          simp only [onsets]
          exact left
      | error fault' t' =>
        rw [first, second] at agree
        exact agree
  · exact fun fault s' left => duet.toEnsemble.measure_survives accompanies references offset body
      left (duet.lone left)

theorem sways : Performer.Sways meets K inner inner' := by
  intro here here' γ references offset direction target body
  by_cases plain : mixed γ
  · exact duet.solo plain accompanies references offset direction target body
  · exact duet.toEnsemble.follows_dynamics accompanies (duet.measuring plain)
      (duet.follows_measure accompanies plain references offset body) direction target

/-- What comes after the opening is performed alike. -/
theorem exists_opened (references : Nat) (item : Item) :
    (∃ offset value, item = .breakpoint offset value) ∨ ∃ p p',
      performWith inner here references item = opened here item.offset p ∧
      performWith inner' here' references item = opened here' item.offset p' ∧
      Follows meets (K here here' γ) p p' fun ticks => K here here' (after ticks γ) :=
  duet.toEnsemble.exists_opened accompanies (duet.sways accompanies) references item

theorem follows_with : Performer.Accompanies meets K (performWith inner) (performWith inner') :=
  duet.toEnsemble.follows_with accompanies (duet.sways accompanies)

end Dynamics

theorem follows_perform (duet : Duet meets K) (depth : Nat) :
    Performer.Accompanies meets K (perform depth) (perform depth) :=
  duet.toEnsemble.follows_perform duet.sways depth

/-- More depth never hurts, where running out of gas may be answered in any way. -/
theorem follows_deeper (duet : Duet meets K)
    (excused : ∀ offset fault', meets ⟨.exhausted, offset⟩ fault')
    (goesOn : ∀ {here here' γ s s'} offset ticks t, (K here here' γ).both s s' →
      (K here here' (after ticks γ)).alone ⟨.exhausted, offset⟩ t)
    {depth depth' : Nat} (deeper : depth ≤ depth') :
    Performer.Accompanies meets K (perform depth) (perform depth') := by
  induction depth generalizing depth' with
  | zero =>
    intro here here' γ references item
    refine ⟨fun s s' coupled => ?_, (duet.follows_perform depth' references item).alone⟩
    obtain ⟨t, failed⟩ := perform_zero here references item s
    rw [failed]
    cases (perform depth' here' references item).run s' with
    | ok => exact goesOn _ _ _ coupled
    | error => exact excused ..
  | succ depth ih =>
    cases depth' with
    | zero => omega
    | succ depth' => exact duet.follows_with (ih (Nat.le_of_succ_le_succ deeper))

end Duet
end TextScore.Session