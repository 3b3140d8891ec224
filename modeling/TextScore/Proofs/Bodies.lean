import TextScore.Proofs.Custody

/-! From small steps to items. An item that fits inside some ornaments keeps an invariant that small
steps keep; and where something in a body lets one invariant take over from another, it takes over
for the item that has the body, too. -/
namespace TextScore.Session
open Step (Contract)

variable {E : Fault → Prop} {fits : List Modifier → Item → Prop}
  {P : List Modifier → Session → Prop}

/-- Items that fit keep the invariant, whatever timeline in use they are performed on. -/
def Performer.Keeps (E : Fault → Prop) (fits : List Modifier → Item → Prop)
    (P : List Modifier → Session → Prop) (inner : Performer) : Prop :=
  ∀ ⦃stack m live here⦄, here ∈ live → ∀ references {item}, fits stack item →
    Contract E (Kept P stack m live) (inner here references item) fun _ => Kept P stack m live

/-- Somewhere in a body one invariant may take over from another. Breakpoints of a pitch bend do not
count: they are not performed as items. -/
structure Crossing (E : Fault → Prop) (fits : List Modifier → Item → Prop)
    (P P' : List Modifier → Session → Prop) (inner : Performer) (body : List Item) : Prop where
  before : Performer.Keeps E fits P inner
  after : Performer.Keeps E fits P' inner
  turns : (∀ {stack s}, P stack s → P' stack s) ∨ ∃ item ∈ body,
    (∀ offset value, item ≠ .breakpoint offset value) ∧
    ∀ ⦃stack m live here⦄, here ∈ live → ∀ references, fits stack item →
      Contract E (Kept P stack m live) (inner here references item) fun _ => Kept P' stack m live

/-- Without anything that does, the invariant stays the same. -/
theorem Performer.Keeps.crossing {inner : Performer} (keeps : Performer.Keeps E fits P inner)
    (body : List Item) : Crossing E fits P P inner body := ⟨keeps, keeps, .inl id⟩

theorem Crossing.all {P' : List Modifier → Session → Prop} {inner : Performer} {items : List Item}
    (crossing : Crossing E fits P P' inner items) {stack : List Modifier} {m : Bool}
    {live : List TimelineId} {here : TimelineId} (member : here ∈ live) (references : Nat)
    (each : ∀ item ∈ items, fits stack item) :
    Contract E (Kept P stack m live) (performAll inner here references items)
      fun _ => Kept P' stack m live := by
  have one {Q Q' : Session → Prop} {item : Item}
      (performed : Contract E Q (inner here references item) fun _ => Q') (ticks : Nat) :
      Contract E Q (do return ticks + (← inner here references item)) fun _ => Q' :=
    performed.bind fun _ => .pure id
  refine .foldlM_turn
    (fun ticks item listed => one (crossing.before member references (each item listed)) ticks)
    (fun ticks item listed => one (crossing.after member references (each item listed)) ticks)
    (crossing.turns.imp (fun already {_} kept => ⟨kept.tended, already kept.holds⟩) ?_) 0
  rintro ⟨item, listed, -, turns⟩
  exact ⟨item, listed, one (turns member references (each item listed))⟩

theorem Performer.Keeps.all {inner : Performer} (keeps : Performer.Keeps E fits P inner)
    {stack : List Modifier} {m : Bool} {live : List TimelineId} {here : TimelineId}
    (member : here ∈ live) (references : Nat) {items : List Item}
    (each : ∀ item ∈ items, fits stack item) :
    Contract E (Kept P stack m live) (performAll inner here references items)
      fun _ => Kept P stack m live :=
  (keeps.crossing items).all member references each

/-- Two invariants, the second of which may take over from the first inside a tuplet, too. -/
structure Succeeds (E : Fault → Prop) (fits : List Modifier → Item → Prop)
    (P P' : List Modifier → Session → Prop) : Prop where
  before : Custody E fits P
  after : Custody E fits P'
  tuplet : ∀ {stack m live here offset size body unit} {s : Session} {t : Timeline},
    Kept P stack m live s → here ∈ live → fits stack (.range offset (.tuplet size) body) →
    (Timeline.beginTuplet offset size).run (s.arena.timeline here) = .ok unit t →
    ∀ {s : Session}, Kept P' stack m live s →
      P' stack { s with arena := s.arena.adjust here (Timeline.endTuplet unit) }

theorem Custody.succeeds (custody : Custody E fits P) : Succeeds E fits P P :=
  ⟨custody, custody, fun kept member within begun => (custody.tuplet kept member within begun).2⟩

namespace Custody
variable {stack : List Modifier} {m : Bool} {live : List TimelineId} {here : TimelineId}
  {inner : Performer}

/-- A span is measured on a copy, of which only failures are left. -/
theorem measure (custody : Custody E fits P) (keeps : Performer.Keeps E fits P inner)
    (member : here ∈ live) (references offset : Nat) {body : List Item}
    (each : ∀ item ∈ body, fits stack item) :
    Contract E (Kept P stack m live) (Session.measure inner here references offset body)
      fun _ => Kept P stack m live := by
  intro s kept
  have copy : Kept P stack true live s.measured :=
    ⟨upkeep_tended.copy kept.tended, custody.copy kept.holds⟩
  have copied := keeps.all member references each copy
  rw [measure_run]
  cases result : (performAll inner here references body).run s.measured with
  | ok ticks t =>
    dsimp only
    cases t.onsets with
    | none => exact custody.fault nofun
    | some bounds => exact kept
  | error fault t =>
    rw [result] at copied
    exact copied

/-- Slots are claimed for the branches of a passage. -/
theorem reserve (custody : Custody E fits P) (member : here ∈ live) (count : Nat) :
    Contract E (Kept P stack m live) (update here (Timeline.reserve count))
      fun _ => Kept P stack m live := by
  refine custody.primitive member (.reserve count) (blames_onArena (blames_update _))
    fun {s a t} kept done => ?_
  obtain ⟨arena, ran, rfl⟩ := onArena_ok done
  rw [Arena.update_run] at ran
  cases ran
  have released : s.arena.adjust here (fun t => (t.reserve count).2) =
    s.arena.adjust here (Timeline.release _) := Arena.adjust_congr rfl
  rw [released]
  exact custody.tuning kept member (.branches _)

/-- A modifier comes to lie on top of the stack. -/
theorem push (custody : Custody E fits P) (member : here ∈ live) {modifier : Modifier}
    {R : Session → Prop} (pushed : ∀ {s}, P stack s → R s →
      P (modifier :: stack) { s with modifiers := modifier :: stack }) :
    Contract E (fun s => Kept P stack m live s ∧ R s) (pushModifier modifier)
      fun _ => Kept P (modifier :: stack) m live := by
  refine .modify fun {s} before => ?_
  obtain ⟨kept, known⟩ := before
  have tended := (kept.tended.primitive member (.modifiers (modifier :: ·)) (a := ⟨⟩) rfl).2
  have holds := pushed kept.holds known
  rw [← custody.stack kept.holds] at holds ⊢
  exact ⟨tended, holds⟩

theorem performBranch (custody : Custody E fits P) (keeps : Performer.Keeps E fits P inner)
    (references offset expected : Nat) {branch : TimelineId × List Item} (member : branch.1 ∈ live)
    (each : ∀ item ∈ branch.2, fits stack item) :
    Contract E (Kept P stack m live) (Session.performBranch inner references offset expected branch)
      fun _ => Kept P stack m live := by
  refine .read fun s before => ?_
  refine ((keeps.all member references each).start before).bind fun ticks => ?_
  refine Contract.bind (Q := fun _ => Kept P stack m live) (.modify fun {t} kept => ?_) fun _ =>
    custody.guarded nofun fun _ => .pure id
  exact ⟨(kept.tended.primitive member (.restore s.definitions s.fermata) (a := ⟨⟩) rfl).2,
    custody.restore before.holds kept.holds⟩

end Custody

namespace Succeeds
variable {P' : List Modifier → Session → Prop} {stack : List Modifier} {m : Bool}
  {live : List TimelineId} {here : TimelineId} {inner : Performer} {body : List Item}

theorem octave (succeeds : Succeeds E fits P P') (crossing : Crossing E fits P P' inner body)
    (member : here ∈ live) (references : Nat) (octaves : Int)
    (each : ∀ item ∈ body, fits stack item) :
    Contract E (Kept P stack m live) (performOctave inner here references octaves body)
      fun _ => Kept P' stack m live := by
  refine (succeeds.before.tuned member fun _ => .octave octaves).bind fun _ => ?_
  refine (crossing.all member references each).bind fun ticks => ?_
  exact (succeeds.after.tuned member fun _ => .octave (-octaves)).bind fun _ => .pure id

theorem beginTuplet (succeeds : Succeeds E fits P P') (member : here ∈ live) {offset size : Nat}
    (within : fits stack (.range offset (.tuplet size) body)) :
    Contract E (Kept P stack m live) (onTimeline here (Timeline.beginTuplet offset size))
      fun unit s => Kept P stack m live s ∧ ∀ {s : Session}, Kept P' stack m live s →
        P' stack { s with arena := s.arena.adjust here (Timeline.endTuplet unit) } := by
  refine .of_results (fun {s unit t} kept done => ?_) fun _ failed =>
    succeeds.before.excused (sober_beginTuplet here offset size) failed
  have tended := (kept.tended.primitive member (.beginTuplet offset size) done).2
  obtain ⟨arena, ran, rfl⟩ := onArena_ok done
  rw [Arena.on_run] at ran
  split at ran
  · next begun =>
    cases ran
    exact ⟨⟨tended, (succeeds.before.tuplet kept member within begun).1⟩,
      succeeds.tuplet kept member within begun⟩
  · exact nomatch ran

theorem performTuplet (succeeds : Succeeds E fits P P') (crossing : Crossing E fits P P' inner body)
    (member : here ∈ live) (references : Nat) {offset size : Nat}
    (within : fits stack (.range offset (.tuplet size) body)) :
    Contract E (Kept P stack m live) (Session.performTuplet inner here references offset size body)
      fun _ => Kept P' stack m live := by
  refine (succeeds.beginTuplet member within).bind fun unit => ?_
  refine Contract.bind (Q := fun _ s => Kept P' stack m live s ∧ ∀ {s : Session},
    Kept P' stack m live s →
      P' stack { s with arena := s.arena.adjust here (Timeline.endTuplet unit) }) ?_ fun ticks => ?_
  · have performed := crossing.all member references (m := m) fun item listed =>
      succeeds.before.inner within listed nofun
    refine .of_results (fun before done => ⟨performed.ok before.1 done, before.2⟩)
      fun before failed => performed.error before.1 failed
  · refine Contract.bind (Q := fun _ => Kept P' stack m live) ?_ fun _ => .pure id
    refine succeeds.after.primitive_from member (.change (.endTuplet unit)) (blames_modify _)
      fun {s t a} kept ends done => ?_
    cases done
    exact ends kept

theorem sustain (succeeds : Succeeds E fits P P') (crossing : Crossing E fits P P' inner body)
    (member : here ∈ live) (references : Nat) (each : ∀ item ∈ body, fits stack item) :
    Contract E (Kept P stack m live) (performSustain inner here references body)
      fun _ => Kept P' stack m live := by
  refine (succeeds.before.tuned member fun _ => .pedal (by decide)).bind fun _ => ?_
  refine (crossing.all member references each).bind fun ticks => ?_
  exact (succeeds.after.tuned member fun _ => .pedal (by decide)).bind fun _ => .pure id

/-- A modifier lies on the stack while a body is performed, and not any longer. -/
theorem underModifier (succeeds : Succeeds E fits P P') (crossing : Crossing E fits P P' inner body)
    (member : here ∈ live) (references : Nat) {modifier : Modifier} {R : Session → Prop}
    (each : ∀ item ∈ body, fits (modifier :: stack) item)
    (pushed : ∀ {s}, P stack s → R s →
      P (modifier :: stack) { s with modifiers := modifier :: stack }) :
    Contract E (fun s => Kept P stack m live s ∧ R s)
      (Session.underModifier inner here references modifier body)
      fun _ => Kept P' stack m live := by
  refine (succeeds.before.push member pushed).bind fun _ => ?_
  refine (crossing.all member references each).bind fun ticks => ?_
  refine Contract.bind (Q := fun _ => Kept P' stack m live) (.modify fun {s} kept => ?_)
    fun _ => .pure id
  have tended := (kept.tended.primitive member (.modifiers List.tail) (a := ⟨⟩) rfl).2
  refine ⟨tended, ?_⟩
  rw [succeeds.after.stack kept.holds]
  exact succeeds.after.pop kept.holds

/-- A range plays its body once, unless it invokes a template. -/
theorem range (succeeds : Succeeds E fits P P') (crossing : Crossing E fits P P' inner body)
    (member : here ∈ live) (references : Nat) {offset : Nat} {kind : RangeKind}
    (within : fits stack (.range offset kind body)) (plain : ∀ name, kind ≠ .userRange name) :
    Contract E (Kept P stack m live) (performRange inner here references offset kind body)
      fun _ => Kept P' stack m live := by
  have each : ∀ item ∈ body, fits stack item := fun item listed =>
    succeeds.before.inner within listed nofun
  cases kind with
  | octaveUp | octaveDown => exact succeeds.octave crossing member references _ each
  | tuplet size => exact succeeds.performTuplet crossing member references within
  | sustain => exact succeeds.sustain crossing member references each
  | userRange name => exact absurd rfl (plain name)

theorem dynamics (succeeds : Succeeds E fits P P') (crossing : Crossing E fits P P' inner body)
    (member : here ∈ live) (references offset : Nat) (direction : Direction) {kind : Ornament}
    {target : Nat} (within : fits stack (.ornament offset kind body))
    (leads : kind = .crescendo target ∨ kind = .decrescendo target) :
    Contract E (Kept P stack m live)
      (performDynamics inner here references offset direction target body)
      fun _ => Kept P' stack m live := by
  have each : ∀ item ∈ body, fits stack item := fun item listed =>
    succeeds.before.inner within listed fun _ _ same => by
      cases same
      rcases leads with leads | leads <;> exact nomatch leads
  have finish (ticks : Nat) : Contract E (Kept P' stack m live)
      (do setVelocity here target; return ticks) fun _ => Kept P' stack m live :=
    (succeeds.after.tuned member fun _ => .velocity within leads).bind fun _ => .pure id
  refine Custody.atTimeline fun u kept => Contract.start (P := Kept P stack m live) ?_ kept
  refine succeeds.before.guarded nofun fun _ => .read fun s kept => ?_
  split
  · exact ((crossing.all member references each).bind finish).start kept
  · refine Contract.start (P := Kept P stack m live) ?_ kept
    refine (succeeds.before.measure crossing.before member references offset each).bind fun bounds => ?_
    refine Contract.bind (Q := fun _ => Kept P' stack m live) (fun t kept => ?_) finish
    have pushes (ramp : Ramp) (same : ramp.target = target) : Pushes t kind (.dynamics ramp) := by
      subst same
      rcases leads with rfl | rfl
      · exact .crescendo ramp
      · exact .decrescendo ramp
    have ornament := succeeds.before.ornament within (pushes
      ⟨(u.arena.timeline here).state.velocity, target, bounds.1, bounds.2⟩ rfl) kept.holds
    exact succeeds.underModifier crossing member references (R := fun u => u = t) ornament.1
      (fun _ same => same ▸ ornament.2) ⟨kept, rfl⟩

theorem bend (succeeds : Succeeds E fits P P') (crossing : Crossing E fits P P' inner body)
    (member : here ∈ live) (references : Nat)
    (each : ∀ item ∈ body, (∀ offset value, item ≠ .breakpoint offset value) → fits stack item) :
    Contract E (Kept P stack m live) (performBend inner here references body)
      fun _ => Kept P' stack m live := by
  refine Custody.atTimeline fun s kept => Contract.start (P := Kept P stack m live) ?_ kept
  refine Contract.bind (Q := fun _ => Kept P' stack m live) (.foldlM_turn
    (fun point item listed => ?_) (fun point item listed => ?_) (crossing.turns.imp
      (fun already {_} kept => ⟨kept.tended, already kept.holds⟩) ?_) _) fun final => ?_
  · split
    · exact (succeeds.before.breakpoint member point _).mono id And.left
    · next plain =>
      exact (crossing.before member references (each _ listed plain)).bind fun _ => .pure id
  · split
    · exact (succeeds.after.breakpoint member point _).mono id And.left
    · next plain =>
      exact (crossing.after member references (each _ listed plain)).bind fun _ => .pure id
  · rintro ⟨item, listed, plain, turns⟩
    refine ⟨item, listed, fun point => ?_⟩
    split
    · exact absurd rfl (plain _ _)
    · exact (turns member references (each _ listed plain)).bind fun _ => .pure id
  · exact Custody.atTimeline fun s kept =>
      ((succeeds.after.bendEnd member final.ticks).mono id fun ended => ended.2.1).start ⟨kept, rfl⟩

theorem performOrnament (succeeds : Succeeds E fits P P')
    (crossing : Crossing E fits P P' inner body) (member : here ∈ live) (references : Nat)
    {offset : Nat} {kind : Ornament} (within : fits stack (.ornament offset kind body)) :
    Contract E (Kept P stack m live) (Session.performOrnament inner here references offset kind body)
      fun _ => Kept P' stack m live := by
  have under {modifier : Modifier} {s : Session} (pushes : Pushes s kind modifier)
      (kept : Kept P stack m live s) : Contract E (fun t => t = s)
      (Session.underModifier inner here references modifier body) fun _ => Kept P' stack m live :=
    have pushed := succeeds.before.ornament within pushes kept.holds
    (succeeds.underModifier crossing member references (R := fun t => t = s) pushed.1
      fun _ same => same ▸ pushed.2).mono (fun same => ⟨same ▸ kept, same⟩) id
  cases kind with
  | staccato => exact fun s kept => under .staccato kept rfl
  | fermata => exact .read fun s kept => under .fermata kept
  | sforzando => exact fun s kept => under .sforzando kept rfl
  | trill => exact fun s kept => under .trill kept rfl
  | crescendo target =>
    exact succeeds.dynamics crossing member references offset .crescendo within (.inl rfl)
  | decrescendo target =>
    exact succeeds.dynamics crossing member references offset .decrescendo within (.inr rfl)
  | pitchBend => exact succeeds.bend crossing member references fun item listed plain =>
      succeeds.before.inner within listed fun _ _ _ => plain

/-- What the first branch of a passage declares outlasts the passage. -/
theorem parallel (succeeds : Succeeds E fits P P') {branch : List Item}
    (crossing : Crossing E fits P P' inner branch) (member : here ∈ live) (references : Nat) {offset : Nat} {branches : List (List Item)}
    (within : fits stack (.parallel offset (branch :: branches))) :
    Contract E (Kept P stack m live)
      (performParallel inner here references offset (branch :: branches))
      fun _ => Kept P' stack m live := by
  have each : ∀ one ∈ branch :: branches, ∀ item ∈ one, fits stack item := fun one listed item there =>
    succeeds.before.inner within (List.mem_flatten.mpr ⟨one, listed, there⟩) nofun
  refine (succeeds.before.reserve member branches.length).bind fun base => ?_
  refine (succeeds.before.children member offset base _).bind fun children => ?_
  have live' : here ∈ children ++ live := List.mem_append_right children member
  refine Contract.mono (P := Kept P stack m (children ++ live))
    (Q := fun _ => Kept P' stack m (children ++ live)) ?_ id
    fun kept => kept.shrink (List.subset_append_right children live)
  refine (crossing.all live' references (each branch List.mem_cons_self)).bind fun expected => ?_
  refine (succeeds.after.tuned live' fun _ => .branches base).bind fun _ => ?_
  refine Contract.bind (Contract.forM fun pair listed => ?_) fun _ => .pure id
  have there := List.of_mem_zip listed
  exact succeeds.after.performBranch crossing.after references offset expected
    (List.mem_append_left live there.1) (each pair.2 (List.mem_cons_of_mem branch there.2))

end Succeeds

namespace Custody
variable {stack : List Modifier} {m : Bool} {live : List TimelineId} {here : TimelineId}
  {inner : Performer}

theorem invokeWith (custody : Custody E fits P) (keeps : Performer.Keeps E fits P inner)
    (member : here ∈ live) (references : Nat) (name : String) {template : List Item}
    (each : ∀ base octave, ∀ item ∈ template, fits (.substitute base octave :: stack) item)
    {item : Item} (within : fits stack item) :
    Contract E (Kept P stack m live) (Session.invokeWith inner here references name template item)
      fun _ => Kept P stack m live := by
  cases item with
  | key k =>
    refine (custody.burn member k.offset).bind fun _ => (custody.keyPitch _ k).bind fun base => ?_
    refine atTimeline fun s before => ?_
    obtain ⟨low, kept⟩ := before
    exact (custody.succeeds.underModifier (keeps.crossing template) member references
      (R := fun t => t = s) (each base _) fun holds _ => custody.substitute _ low holds).mono
        (fun same => ⟨same ▸ kept, same⟩) id
  | setting | rest => exact keeps member references within
  | _ => exact custody.failAt nofun

theorem invoke (custody : Custody E fits P) (keeps : Performer.Keeps E fits P inner)
    (member : here ∈ live) (references : Nat) {offset : Nat} {name : String} {body : List Item}
    (within : fits stack (.range offset (.userRange name) body)) :
    Contract E (Kept P stack m live) (Session.invoke inner here references offset name body)
      fun _ => Kept P stack m live := by
  refine Contract.bind (custody.lookup (Definitions.template_run offset · name) nofun)
    fun template s before => ?_
  obtain ⟨found, kept⟩ := before
  have each := custody.template within kept.holds found
  have invoked : Performer.Keeps E (fun stack' item => stack' = stack ∧ fits stack item) P
      fun here references => Session.invokeWith inner here references name template := by
    intro stack' m live here member references item within
    obtain ⟨rfl, within⟩ := within
    exact custody.invokeWith keeps member references name each within
  refine Contract.start ?_ kept rfl
  refine (custody.refer references offset).bind fun references => ?_
  exact invoked.all member references fun item listed => ⟨rfl, custody.inner within listed nofun⟩

theorem sound (custody : Custody E fits P) (keeps : Performer.Keeps E fits P inner)
    (member : here ∈ live) (references : Nat) {sound : Item} (within : fits stack sound) :
    Contract E (fun s => Kept P stack m live s ∧ Open here s)
      (performWith.performSound inner here references sound) fun _ => Kept P stack m live := by
  have plain {p : Play Nat} (played : Contract E (Kept P stack m live) p
      fun _ => Kept P stack m live) : Contract E (fun s => Kept P stack m live s ∧ Open here s) p
      fun _ => Kept P stack m live := played.mono And.left id
  cases sound with
  | key k =>
    refine custody.finish member ((custody.keyPitch _ k).bind fun pitch s before => ?_)
    have pitched : Pitched [pitch] :=
      ⟨List.cons_ne_nil _ _, fun p listed => List.mem_singleton.mp listed ▸ before.1⟩
    exact custody.commit member (.key within) pitched false nofun before.2
  | chord c =>
    refine custody.finish member ((custody.chordPitches _ 0 c).bind fun pitches s before => ?_)
    exact custody.commit member (.chord within) before.1 c.arpeggio
      (fun loud => ⟨c, within, loud, rfl⟩) before.2
  | ornament offset kind body =>
    exact custody.finish member
      (plain (custody.succeeds.performOrnament (keeps.crossing body) member references within))
  | tie offset =>
    refine custody.finish member (custody.primitive_from member (.tie offset)
      (blames_onArena (sober_tie here offset)) fun {s a t} kept room done => ?_)
    obtain ⟨arena, ran, rfl⟩ := onArena_ok done
    exact custody.tie kept member room ran
  | _ => exact custody.finish member (plain (keeps member references within))

theorem performWith (custody : Custody E fits P) (keeps : Performer.Keeps E fits P inner) :
    Performer.Keeps E fits P (Session.performWith inner) := by
  intro stack m live here member references item within
  have plain {p : Play Nat} (played : Contract E (Kept P stack m live) p
      fun _ => Kept P stack m live) : Contract E (fun s => Kept P stack m live s ∧ Open here s) p
      fun _ => Kept P stack m live := played.mono And.left id
  cases item with
  | breakpoint offset value => exact .failAt (custody.stray within)
  | setting s =>
    exact custody.opened member s.offset
      (plain ((custody.applySetting member s s.offset).bind fun _ => .pure id))
  | range offset kind body =>
    refine custody.opened member offset (plain ?_)
    cases kind with
    | userRange name => exact custody.invoke keeps member references within
    | _ => exact custody.succeeds.range (keeps.crossing body) member references within nofun
  | group offset id body =>
    refine custody.opened member offset (plain ((custody.declared member within).bind fun _ => ?_))
    exact keeps.all member references fun item listed => custody.inner within listed nofun
  | groupRef offset id =>
    refine custody.opened member offset (plain ?_)
    refine (custody.refer references offset).bind fun references => ?_
    refine Contract.bind (custody.lookup (Definitions.group_run offset · id) nofun)
      fun body s before => ?_
    exact keeps.all member references (custody.group within before.2.holds before.1) before.2
  | parallel offset branches =>
    refine custody.opened member offset (plain ?_)
    cases branches with
    | nil => exact .pure id
    | cons branch branches =>
      exact custody.succeeds.parallel (keeps.crossing branch) member references within
  | emoji offset symbol =>
    refine custody.opened member offset (plain ?_)
    refine Contract.bind (custody.lookup (Definitions.emoji_run offset · symbol) nofun)
      fun setting => ?_
    exact ((custody.applySetting member setting offset).mono And.right id).bind fun _ => .pure id
  | rest offset =>
    refine custody.opened member offset (custody.primitive_from member .rest
      (blames_onArena (blames_update _)) fun {s a t} kept room done => ?_)
    obtain ⟨arena, ran, rfl⟩ := onArena_ok done
    rw [Arena.update_run] at ran
    cases ran
    exact custody.rest kept member room
  | graced offset graces main =>
    have prepared := (custody.prepareGraces (m := m) member offset graces).bind fun _ =>
      custody.sound keeps member references (custody.inner within List.mem_cons_self nofun)
    cases main with
    | tie _ => exact custody.opened member offset (custody.failAt nofun)
    | _ => exact custody.opened member offset prepared
  | key k => exact custody.opened member k.offset (custody.sound keeps member references within)
  | chord c => exact custody.opened member c.offset (custody.sound keeps member references within)
  | ornament offset kind body =>
    exact custody.opened member offset (custody.sound keeps member references within)
  | tie offset => exact custody.opened member offset (custody.sound keeps member references within)

theorem perform (custody : Custody E fits P) (depth : Nat) :
    Performer.Keeps E fits P (Session.perform depth) := by
  induction depth with
  | zero =>
    intro stack m live here member references item within
    exact (custody.burn member _).bind fun _ => custody.failAt nofun
  | succ depth ih => exact custody.performWith ih

end Custody
end TextScore.Session
