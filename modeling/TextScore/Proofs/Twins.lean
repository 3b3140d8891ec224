import TextScore.Highlight
import TextScore.Proofs.Forest
import TextScore.Track

/-! Performances do not look at repeats. Two sessions that differ in the repeats of their timelines,
and in that one has more gas left, do the same on every item; both leave their repeats alone. -/
namespace TextScore
open Step (Follows)

namespace Timeline
variable {α : Type}

def setRepeats (r : Repeats) (t : Timeline) : Timeline := { t with repeats := r }

/-- A change that neither reads nor writes repeats. -/
def Blind (f : Timeline → Timeline) : Prop := ∀ r t, f (t.setRepeats r) = (f t).setRepeats r

/-- The same for a change that also answers. -/
def BlindAnswer (f : Timeline → α × Timeline) : Prop :=
  ∀ r t, f (t.setRepeats r) = ((f t).1, (f t).2.setRepeats r)

theorem Blind.repeats {f : Timeline → Timeline} (blind : Blind f) (t : Timeline) :
    (f t).repeats = t.repeats := by
  have same : f t = (f t).setRepeats t.repeats := blind t.repeats t
  rw [same]
  rfl

theorem BlindAnswer.blind {f : Timeline → α × Timeline} (blind : BlindAnswer f) :
    Blind fun t => (f t).2 := by
  intro r t
  dsimp only
  rw [blind r t]

theorem Blind.foldl {β : Type} {f : Timeline → β → Timeline}
    (blind : ∀ b, Blind fun t => f t b) (bs : List β) : Blind fun t => bs.foldl f t := by
  intro r t
  induction bs generalizing t with
  | nil => rfl
  | cons b bs ih =>
    have head : f (t.setRepeats r) b = (f t b).setRepeats r := blind b r t
    simp only [List.foldl_cons, head]
    exact ih (f t b)

theorem blind_change {f : Timeline → Timeline} (change : Change f) : Blind f := by
  cases change with
  | bends bends => exact Blind.foldl (fun point r t => rfl) bends
  | _ => exact fun _ _ => rfl

theorem blind_pad (length : Nat) : Blind (pad length) := by
  intro r t
  unfold pad
  split <;> rfl

theorem blind_lengthenLast (ticks : Nat) : Blind (lengthenLast ticks) := by
  intro r t
  unfold lengthenLast
  have last : (t.setRepeats r).last = t.last := rfl
  rw [last]
  split <;> rfl

theorem blind_calibrate (ticks : Nat) : BlindAnswer (calibrate ticks) := by
  intro r t
  unfold calibrate
  have tuplet : (t.setRepeats r).tuplet = t.tuplet := rfl
  rw [tuplet]
  split <;> rfl

theorem blind_rest : BlindAnswer rest := by
  intro r t
  have unit : (t.setRepeats r).state = t.state := rfl
  unfold rest restFor
  rw [unit]
  split
  · rfl
  · rw [blind_calibrate]
    simp only [blind_pad _ r]

theorem blind_pushNotes (offset : Nat) (drafts : List Draft) : Blind (pushNotes offset drafts) :=
  Blind.foldl (fun _ _ _ => rfl) drafts

theorem blind_commit (offset : Nat) (staged : Staged) : BlindAnswer (commit offset staged) := by
  intro r t
  unfold commit
  rw [blind_calibrate]
  simp only [blind_pushNotes _ _ r]
  rfl

def enterTuplet (unit size : Nat) (t : Timeline) : Timeline :=
  { t with
    state := { t.state with quantization := Tuplet.quantization (2 * unit) size }
    tuplet := some (Tuplet.ofSpan (2 * unit) size) }

theorem beginTuplet_run (offset size : Nat) (t : Timeline) : (beginTuplet offset size).run t =
    if t.inTuplet then .error ⟨.tupletInTuplet, offset⟩ t
    else if Tuplet.quantization (2 * t.state.quantization) size = 0 then
      .error ⟨.tupletTooShort size, offset⟩ t
    else .ok t.state.quantization (t.enterTuplet t.state.quantization size) := by
  simp only [beginTuplet, EStateM.run_bind, EStateM.run_get]
  split
  · rfl
  · split <;> rfl

theorem blind_playVoice (offset held velocity rest delay pitch : Nat) :
    Blind (Arena.playVoice offset held velocity rest delay pitch) := by
  intro r t
  simp only [Arena.playVoice, blind_pad _ r]
  rfl

end Timeline

namespace Arena
open Timeline (Blind BlindAnswer)
variable {arena arena' : Arena} {here id : TimelineId} {α β : Type}

def repeats (arena : Arena) (id : TimelineId) : Repeats := (arena.timeline id).repeats

/-- Two arenas with the same timelines up to their repeats. -/
structure Twin (arena arena' : Arena) : Prop where
  size : arena'.timelines.size = arena.timelines.size
  timeline : ∀ id, arena'.timeline id = (arena.timeline id).setRepeats (arena'.repeats id)

theorem Twin.refl (arena : Arena) : arena.Twin arena := ⟨rfl, fun _ => rfl⟩

theorem Twin.trans {arena'' : Arena} (first : arena.Twin arena') (second : arena'.Twin arena'') :
    arena.Twin arena'' := by
  constructor
  · exact second.size.trans first.size
  · intro id
    rw [second.timeline id, first.timeline id]
    rfl

theorem Twin.symm (twin : arena.Twin arena') : arena'.Twin arena := by
  constructor
  · exact twin.size.symm
  · intro id
    rw [twin.timeline id]
    rfl

/-- A change of an arena in which repeats have no part. -/
structure Blind (f : Arena → Arena) : Prop where
  twin : ∀ {arena arena' : Arena}, arena.Twin arena' → (f arena).Twin (f arena')
  repeats : ∀ arena : Arena, (f arena).repeats = arena.repeats
  size : ∀ arena : Arena, arena.timelines.size ≤ (f arena).timelines.size

theorem Blind.comp {f g : Arena → Arena} (first : Blind f) (second : Blind g) :
    Blind fun arena => g (f arena) where
  twin twin := second.twin (first.twin twin)
  repeats arena := (second.repeats _).trans (first.repeats arena)
  size arena := Nat.le_trans (first.size arena) (second.size _)

theorem blind_id : Blind fun arena => arena := ⟨id, fun _ => rfl, fun _ => Nat.le_refl _⟩

theorem blind_adjust {f : Timeline → Timeline} (blind : Timeline.Blind f) (id : TimelineId) :
    Blind (adjust id f) := by
  have kept (arena : Arena) : (arena.adjust id f).repeats = arena.repeats := by
    funext other
    unfold repeats
    rw [timeline_adjust_or]
    split
    · next both => rw [blind.repeats, both.1]
    · rfl
  refine ⟨fun {arena arena'} twin => ⟨?_, fun other => ?_⟩, kept, fun arena => ?_⟩
  · rw [size_adjust, size_adjust, twin.size]
  · rw [kept, timeline_adjust_or, timeline_adjust_or, twin.size, twin.timeline id, blind]
    split
    · next both => rw [both.1]
    · exact twin.timeline other
  · exact Nat.le_of_eq (size_adjust ..).symm

theorem blind_create (channel : Nat) : Blind fun arena => (arena.create channel).2 := by
  have kept (arena : Arena) : (arena.create channel).2.repeats = arena.repeats := by
    funext id
    unfold repeats
    rw [timeline_create]
    split
    · next last => rw [last, timeline_out (Nat.le_refl _)]
    · rfl
  refine ⟨fun {arena arena'} twin => ⟨?_, fun id => ?_⟩, kept, fun arena => ?_⟩
  · simp only [create, Array.size_push, twin.size]
  · rw [kept, timeline_create, timeline_create, twin.size]
    split
    · next last =>
      have fresh : arena'.repeats id = {} := by
        rw [repeats, timeline_out (Nat.le_of_eq (twin.size.trans last.symm))]
      rw [fresh]
      rfl
    · exact twin.timeline id
  · simp only [create, Array.size_push, Nat.le_succ]

theorem blind_addChild (parent : TimelineId) (slot : Slot) : Blind (addChild parent slot) := by
  have push (id : TimelineId) : Timeline.Blind (slot.push id) := by
    cases slot <;> exact fun _ _ => rfl
  have added (arena : Arena) : arena.addChild parent slot =
      (arena.create (arena.timeline parent).channel).2.adjust parent
        (slot.push arena.timelines.size) := rfl
  refine ⟨fun {arena arena'} twin => ?_, fun arena => ?_, fun arena => ?_⟩
  · have channel : (arena'.timeline parent).channel = (arena.timeline parent).channel := by
      rw [twin.timeline parent]
      rfl
    rw [added, added, channel, twin.size]
    exact (blind_adjust (push _) parent).twin ((blind_create _).twin twin)
  · rw [added, (blind_adjust (push _) parent).repeats, (blind_create _).repeats]
  · rw [size_addChild]
    exact Nat.le_succ _

theorem Blind.repeat {f : Arena → Arena} (blind : Blind f) (count : Nat) :
    Blind (Nat.repeat f count) := by
  induction count with
  | zero => exact blind_id
  | succ count ih => exact ih.comp blind

theorem blind_adjustAll {f : Timeline → Timeline} (blind : Timeline.Blind f)
    (ids : List TimelineId) : Blind (adjustAll ids f) := by
  induction ids with
  | nil => exact blind_id
  | cons id ids ih => exact (blind_adjust blind id).comp ih

theorem blind_playVoices {play : (delay pitch : Nat) → Timeline → Timeline}
    (blind : ∀ delay pitch, Timeline.Blind (play delay pitch)) (interval delay : Nat)
    (voices : List (TimelineId × Nat)) : Blind (playVoices play interval delay voices) := by
  induction voices generalizing delay with
  | nil => exact blind_id
  | cons voice voices ih => exact (blind_adjust (blind delay voice.2) voice.1).comp (ih _)

/-- Twins with these repeats, and with so many timelines at least. -/
def paired (n : Nat) (r r' : TimelineId → Repeats) : Coupling Arena where
  both arena arena' :=
    arena.Twin arena' ∧ arena.repeats = r ∧ arena'.repeats = r' ∧ n ≤ arena.timelines.size
  alone _ _ := False

section Steps
variable {n : Nat} {r r' : TimelineId → Repeats} {Q : β → Coupling Arena}

/-- A step that goes the same way on twins, and leaves them twins. -/
abbrev Steady (n : Nat) (r r' : TimelineId → Repeats) (p : Step Arena α) : Prop :=
  Follows Eq (paired n r r') p p fun _ => paired n r r'

theorem steady_pure (a : α) : Steady n r r' (pure a) := Follows.pure (Q := fun _ => paired n r r') a

theorem steady_failAt (offset : Nat) (cause : Cause) :
    Steady n r r' (Step.failAt offset cause : Step Arena α) :=
  Follows.failAt offset cause rfl fun left => left.elim

theorem steady_unless {c : Prop} [Decidable c] {offset : Nat} {cause : Cause}
    {f : PUnit → Step Arena α} (rest : Steady n r r' (f ⟨⟩)) :
    Steady n r r' (if c then Step.failAt offset cause >>= f else f ⟨⟩) := by
  split
  · exact (steady_failAt offset cause).bind fun _ => rest
  · exact rest

theorem steady_modify {f : Arena → Arena} (blind : Blind f) : Steady n r r' (modify f) := by
  refine ⟨fun arena arena' coupled => ?_, fun _ _ left => left.elim⟩
  obtain ⟨twin, rfl, rfl, size⟩ := coupled
  exact ⟨rfl, blind.twin twin, blind.repeats arena, blind.repeats arena',
    Nat.le_trans size (blind.size arena)⟩

theorem steady_create (channel : Nat) : Steady n r r' (modifyGet (create channel)) := by
  refine ⟨fun arena arena' coupled => ?_, fun _ _ left => left.elim⟩
  obtain ⟨twin, rfl, rfl, size⟩ := coupled
  have blind := blind_create channel
  exact ⟨twin.size.symm, blind.twin twin, blind.repeats arena, blind.repeats arena',
    Nat.le_trans size (blind.size arena)⟩

theorem steady_read {f : Arena → Step Arena α}
    (rest : ∀ arena arena' : Arena, arena.Twin arena' →
      Follows Eq (paired n r r') (f arena) (f arena') fun _ => paired n r r') :
    Steady n r r' (get >>= f) :=
  ⟨fun arena arena' coupled => (rest arena arena' coupled.1).both arena arena' coupled,
    fun _ _ left => left.elim⟩

theorem steady_update {f : Timeline → α × Timeline} (blind : Timeline.BlindAnswer f) :
    Steady n r r' (update here f) := by
  refine ⟨fun arena arena' coupled => ?_, fun _ _ left => left.elim⟩
  obtain ⟨twin, rfl, rfl, size⟩ := coupled
  have adjusted := blind_adjust blind.blind here
  have answer : (f (arena'.timeline here)).1 = (f (arena.timeline here)).1 := by
    rw [twin.timeline here, blind]
  rw [update_run, update_run, answer]
  exact ⟨rfl, adjusted.twin twin, adjusted.repeats arena, adjusted.repeats arena',
    Nat.le_trans size (adjusted.size arena)⟩

theorem list_setRepeats (slot : Slot) (r : Repeats) (t : Timeline) :
    slot.list (t.setRepeats r) = slot.list t := by
  cases slot <;> rfl

theorem steady_childAt (here : TimelineId) (offset : Nat) (slot : Slot) :
    Steady n r r' (childAt here offset slot) := by
  apply steady_read
  intro arena arena' twin
  rw [twin.timeline here, list_setRepeats]
  apply (steady_modify ((blind_addChild here slot).repeat _)).bind
  intro _
  apply steady_read
  intro arena arena' twin
  rw [twin.timeline here]
  dsimp only
  rw [list_setRepeats]
  apply Follows.bind (steady_modify (blind_adjust (fun _ _ => rfl) _))
  intro _
  apply steady_read
  intro arena arena' twin
  rw [twin.timeline]
  dsimp only [Timeline.setRepeats]
  apply steady_unless
  exact (steady_modify (blind_adjust (Timeline.blind_pad _) _)).bind fun _ => steady_pure _

theorem steady_tie (here : TimelineId) (offset : Nat) : Steady n r r' (tie here offset) := by
  apply steady_read
  intro arena arena' twin
  rw [twin.timeline here]
  apply (steady_update (Timeline.blind_calibrate _)).bind
  intro extra
  apply steady_read
  intro arena arena' twin
  rw [twin.timeline here]
  dsimp only [Timeline.setRepeats]
  have trailed (ticks : Nat) : Blind (adjust here (Timeline.trail ticks)) :=
    blind_adjust (fun _ _ => rfl) here
  split
  · exact Follows.bind (steady_failAt ..) fun _ => steady_pure _
  · exact (steady_modify (blind_adjust (fun _ _ => rfl) here)).bind fun _ => steady_pure _
  · exact (steady_modify (trailed _)).bind fun _ => steady_pure _
  · apply (steady_modify (trailed _)).bind
    intro _
    exact (steady_modify (blind_adjustAll (Timeline.blind_lengthenLast _) _)).bind fun _ =>
      steady_pure _

theorem steady_commitArpeggio (here : TimelineId) (offset : Nat) (staged : Staged)
    (interval : Nat) : Steady n r r' (commitArpeggio here offset staged interval) := by
  unfold commitArpeggio
  apply (steady_update (Timeline.blind_calibrate _)).bind
  intro extra
  apply (steady_modify (blind_adjust (Timeline.blind_pushNotes offset _) here)).bind
  intro _
  split
  · exact (steady_modify (blind_adjust (fun _ _ => rfl) here)).bind fun _ => steady_pure _
  · apply steady_unless
    refine Follows.bind (Follows.mapM fun i _ => steady_childAt here offset (.voice i))
      fun voices => ?_
    apply (steady_modify (blind_adjust (fun _ _ => rfl) here)).bind
    intro _
    refine Follows.bind (steady_modify (blind_playVoices ?_ ..)) fun _ => steady_pure _
    exact fun delay pitch => Timeline.blind_playVoice _ _ _ _ delay pitch

theorem steady_beginTuplet (offset size : Nat) :
    Steady n r r' (on here (Timeline.beginTuplet offset size)) := by
  refine ⟨fun arena arena' coupled => ?_, fun _ _ left => left.elim⟩
  obtain ⟨twin, rfl, rfl, more⟩ := coupled
  have inside : (arena'.timeline here).inTuplet = (arena.timeline here).inTuplet := by
    rw [twin.timeline here]
    rfl
  have state : (arena'.timeline here).state = (arena.timeline here).state := by
    rw [twin.timeline here]
    rfl
  rw [on_run, on_run, Timeline.beginTuplet_run, Timeline.beginTuplet_run, inside, state]
  by_cases nested : (arena.timeline here).inTuplet
  · rw [if_pos nested, if_pos nested]
    exact rfl
  rw [if_neg nested, if_neg nested]
  by_cases short : Tuplet.quantization (2 * (arena.timeline here).state.quantization) size = 0
  · rw [if_pos short, if_pos short]
    exact rfl
  rw [if_neg short, if_neg short]
  have entered (unit : Nat) (arena : Arena) :
      arena.adjust here (fun _ => (arena.timeline here).enterTuplet unit size) =
        arena.adjust here (Timeline.enterTuplet unit size) := adjust_congr rfl
  dsimp only
  rw [entered, entered]
  have blind (unit : Nat) : Blind (adjust here (Timeline.enterTuplet unit size)) :=
    blind_adjust (fun _ _ => rfl) here
  exact ⟨rfl, (blind _).twin twin, (blind _).repeats arena, (blind _).repeats arena',
    Nat.le_trans more ((blind _).size arena)⟩

end Steps
end Arena

namespace Session
variable {k n : Nat} {r r' : TimelineId → Repeats} {s s' t : Session} {α : Type}

/-- The second session has so much more gas, and other repeats maybe; else they are the same. -/
inductive Twin (k : Nat) (s : Session) : Session → Prop
  | mk {arena : Arena} (twin : s.arena.Twin arena) :
    Twin k s { s with gas := ⟨s.gas.remaining + k⟩, arena := arena }

theorem Twin.size (twin : s.Twin k s') : s'.arena.timelines.size = s.arena.timelines.size := by
  obtain @⟨arena, twin⟩ := twin
  exact twin.size

theorem Twin.gas (twin : s.Twin k s') : s'.gas.remaining = s.gas.remaining + k := by
  obtain ⟨_⟩ := twin
  rfl

/-- Where the first of two runs lacks gas the second may do as it likes. -/
def Excused (fault fault' : Fault) : Prop := fault.cause = .exhausted ∨ fault = fault'

/-- These states belong together, and nothing is known once the first run has run out of gas. -/
def tolerant (both : Session → Session → Prop) : Coupling Session where
  both := both
  alone fault _ := fault.cause = .exhausted

theorem follows_of_agree {P : Session → Session → Prop} {Q : α → Session → Session → Prop}
    {p q : Play α} (agree : ∀ s s', P s s' →
      Coupling.Agree Excused (fun a => tolerant (Q a)) (p.run s) (q.run s')) :
    Follows Excused (tolerant P) p q fun a => tolerant (Q a) := by
  constructor
  · exact agree
  · intro fault s' left
    cases q.run s' with
    | ok a t => exact left
    | error fault' t => exact .inl left

/-- Twins with these repeats, and with so many timelines at least. -/
def Paired (k n : Nat) (r r' : TimelineId → Repeats) (s s' : Session) : Prop :=
  s.Twin k s' ∧ s.arena.repeats = r ∧ s'.arena.repeats = r' ∧ n ≤ s.arena.timelines.size

abbrev paired (k n : Nat) (r r' : TimelineId → Repeats) : Coupling Session :=
  tolerant (Paired k n r r')

theorem follows_onArena {p : Step Arena α} (steady : Arena.Steady n r r' p) :
    Follows Excused (paired k n r r') (onArena p) (onArena p) fun _ => paired k n r r' := by
  apply follows_of_agree
  intro s s' coupled
  obtain ⟨⟨twin⟩, paired⟩ := coupled
  have agree := steady.both _ _ ⟨twin, paired⟩
  rw [onArena_run, onArena_run]
  dsimp only at agree ⊢
  cases first : p.run s.arena with
  | ok a arena => cases second : p.run _ with
    | ok b arena' =>
      rw [first, second] at agree
      obtain ⟨same, twin, paired⟩ := agree
      exact ⟨same, .mk twin, paired⟩
    | error fault' arena' =>
      rw [first, second] at agree
      exact agree.elim
  | error fault arena => cases second : p.run _ with
    | ok b arena' =>
      rw [first, second] at agree
      exact agree.elim
    | error fault' arena' =>
      rw [first, second] at agree
      exact .inr agree

theorem follows_adjust {here : TimelineId} {f : Timeline → Timeline} (blind : Timeline.Blind f) :
    Follows Excused (paired k n r r') (adjust here f) (adjust here f)
      fun _ => paired k n r r' := by
  apply follows_of_agree
  intro s s' coupled
  obtain ⟨⟨twin⟩, first, second, size⟩ := coupled
  have blind := Arena.blind_adjust blind here
  exact ⟨rfl, .mk (blind.twin twin), (blind.repeats _).trans first, (blind.repeats _).trans second,
    Nat.le_trans size (blind.size _)⟩

/-- A change of a session that leaves its gas and its arena alone. -/
theorem follows_aside {f : Session → Session}
    (twin : ∀ {s s' : Session}, s.Twin k s' → (f s).Twin k (f s'))
    (arena : ∀ s, (f s).arena = s.arena) :
    Follows Excused (paired k n r r') (modify f) (modify f) fun _ => paired k n r r' := by
  apply follows_of_agree
  intro s s' coupled
  obtain ⟨same, rfl, rfl, size⟩ := coupled
  exact ⟨rfl, twin same, by rw [arena], by rw [arena], arena s ▸ size⟩

/-- A step on a part of a session that is neither its gas nor its arena. -/
theorem follows_within {τ : Type} {part : Session → τ} {replace : Session → τ → Session}
    (step : Step τ α) (same : ∀ {s s' : Session}, s.Twin k s' → part s' = part s)
    (twin : ∀ {s s' : Session} x, s.Twin k s' → (replace s x).Twin k (replace s' x))
    (arena : ∀ s x, (replace s x).arena = s.arena) :
    Follows Excused (paired k n r r') (step.within part replace) (step.within part replace)
      fun _ => paired k n r r' := by
  apply follows_of_agree
  intro s s' coupled
  obtain ⟨coupled, rfl, rfl, size⟩ := coupled
  rw [Step.within_run, Step.within_run, same coupled]
  cases step.run (part s) with
  | ok a x => exact ⟨rfl, twin x coupled, by rw [arena], by rw [arena], arena s x ▸ size⟩
  | error fault x => exact .inr rfl

theorem follows_definitions (step : Step Definitions α) :
    Follows Excused (paired k n r r') (onDefinitions step) (onDefinitions step)
      fun _ => paired k n r r' :=
  follows_within step (fun ⟨_⟩ => rfl) (fun _ ⟨twin⟩ => .mk twin) fun _ _ => rfl

theorem follows_conductor (step : Step Conductor α) :
    Follows Excused (paired k n r r') (onConductor step) (onConductor step)
      fun _ => paired k n r r' :=
  follows_within step (fun ⟨_⟩ => rfl) (fun _ ⟨twin⟩ => .mk twin) fun _ _ => rfl

theorem follows_burn (offset : Nat) :
    Follows Excused (paired k n r r') (burn offset) (burn offset) fun _ => paired k n r r' := by
  apply follows_of_agree
  intro s s' coupled
  obtain ⟨@⟨arena, twin⟩, paired⟩ := coupled
  rw [burn_run, burn_run]
  dsimp only at paired ⊢
  split
  · split
    · exact .inl rfl
    · exact rfl
  · next left =>
    have more : s.gas.remaining + k - 1 = s.gas.remaining - 1 + k := by omega
    rw [if_neg (by omega), more]
    exact ⟨rfl, .mk twin, paired⟩

theorem simulation_paired : Simulation Excused fun _ _ => paired k n r r' where
  reflexive _ := .inr rfl
  loose left _ := .inl left
  lone left := .inr fun _ => .inl left
  alike := by
    rintro m live s s' ⟨⟨twin⟩, -⟩
    refine ⟨fun id => ?_, rfl, rfl, rfl, rfl, rfl, rfl⟩
    dsimp only
    rw [twin.timeline id]
    exact ⟨rfl, rfl, rfl⟩
  shrink _ := .refl _
  primitive _ primitive := by
    cases primitive with
    | burn offset => exact follows_burn offset
    | change change => exact follows_adjust (Timeline.blind_change change)
    | beginTuplet offset size => exact follows_onArena (Arena.steady_beginTuplet offset size)
    | reserve count => exact follows_onArena (Arena.steady_update fun _ _ => rfl)
    | rest => exact follows_onArena (Arena.steady_update Timeline.blind_rest)
    | note offset staged =>
      exact follows_onArena (Arena.steady_update (Timeline.blind_commit offset staged))
    | arpeggio => exact follows_onArena (Arena.steady_commitArpeggio ..)
    | tie => exact follows_onArena (Arena.steady_tie ..)
    | definitions request => exact follows_definitions _
    | modifiers | graces | onsets | restore => exact follows_aside (fun ⟨twin⟩ => .mk twin) fun _ => rfl
  branch _ offset index := follows_onArena (Arena.steady_childAt ..)
  copy := by
    rintro m live s s' ⟨⟨twin⟩, paired⟩
    exact ⟨.mk twin, paired⟩
  copyAlone _ left := left

/-- Items are performed alike on twins, also with more depth where there is more gas. -/
theorem follows_item {depth depth' : Nat} (deeper : depth ≤ depth') (here : TimelineId)
    (references : Nat) (item : Item) :
    Follows Excused (paired k n r r') (perform depth here references item)
      (perform depth' here references item) fun _ => paired k n r r' :=
  simulation_paired.follows_deeper (fun _ _ => .inl rfl) (fun _ _ _ _ => rfl) deeper (m := false)
    (List.mem_singleton_self here) references item

/-- What is performed as deep as there is gas. -/
theorem follows_deepen {P : Session → Session → Prop} {f : Nat → Play α}
    {Q : α → Session → Session → Prop} (twin : ∀ {s s'}, P s s' → s.Twin k s')
    (follows : ∀ {depth depth'}, depth ≤ depth' →
      Follows Excused (tolerant P) (f depth) (f depth') fun a => tolerant (Q a)) :
    Follows Excused (tolerant P) (do f ((← get).gas.remaining + 1))
      (do f ((← get).gas.remaining + 1)) fun a => tolerant (Q a) := by
  apply follows_of_agree
  intro s s' coupled
  have deeper : s.gas.remaining + 1 ≤ s'.gas.remaining + 1 := by
    rw [(twin coupled).gas]
    omega
  exact (follows deeper).both s s' coupled

/-- Twins make the same tracks. -/
theorem Twin.tracks (twin : s.Twin k s') : Track.ofSession s' = Track.ofSession s := by
  obtain @⟨arena, twin⟩ := twin
  have tree (depth : Nat) (here : TimelineId) :
      Track.ofTree arena depth here = Track.ofTree s.arena depth here := by
    induction depth generalizing here with
    | zero => rfl
    | succ depth ih =>
      simp only [Track.ofTree, twin.timeline here, funext ih]
      rfl
  simp only [Track.ofSession, Track.assemble, twin.size, funext (tree _)]

/-- Twins have the same highlights. -/
theorem Twin.highlights (twin : s.Twin k s') :
    Highlight.ofArena s'.arena s'.conductor = Highlight.ofArena s.arena s.conductor := by
  obtain @⟨arena, twin⟩ := twin
  have notes : (fun id => (arena.timeline id).notes) = fun id => (s.arena.timeline id).notes := by
    funext id
    rw [twin.timeline id]
    rfl
  simp only [Highlight.ofArena, Arena.toList_eq, List.flatMap_map, twin.size, notes]

end Session
end TextScore
