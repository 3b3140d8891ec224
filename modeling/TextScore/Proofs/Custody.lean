import TextScore.Proofs.Contracts
import TextScore.Proofs.Onsets

/-! Invariants that depend on the ornaments around an item and on the item itself. Here they are what
small steps keep. Only where a group is declared may a step fail because of a second declaration, and
only where a breakpoint is performed because of that. -/
namespace TextScore

/-- The items that performing an item performs where it stands. -/
def Item.inner : Item → List Item
  | .range _ _ body | .ornament _ _ body | .group _ _ body => body
  | .graced _ _ main => [main]
  | .parallel _ branches => branches.flatten
  | .setting _ | .key _ | .chord _ | .tie _ | .breakpoint .. | .groupRef .. | .emoji .. | .rest _ => []

/-- Breakpoints of a pitch bend are points of its curve; they are not performed as items. -/
abbrev Item.Performs (outer inner : Item) : Prop :=
  ∀ start body, outer = .ornament start .pitchBend body →
    ∀ offset value, inner ≠ .breakpoint offset value

/-- Something that holds of an item, of the items inside it, and so on. -/
def Item.Throughout (p : Item → Prop) (item : Item) : Prop :=
  ∀ inner, Relation.ReflTransGen (fun outer inner => inner ∈ outer.inner) item inner → p inner

theorem Item.throughout_iff {p : Item → Prop} {item : Item} :
    item.Throughout p ↔ p item ∧ ∀ inner ∈ item.inner, inner.Throughout p := by
  constructor
  · exact fun all => ⟨all item .refl, fun inner member deep path => all deep (.head member path)⟩
  · rintro ⟨here, below⟩ deep path
    rcases path.cases_head with rfl | ⟨inner, member, path⟩
    · exact here
    · exact below inner member deep path

namespace Session
open Step (Contract Sober)

/-- Pitches of a note: there is one, and none is too high. -/
def Pitched (pitches : List Nat) : Prop := pitches ≠ [] ∧ ∀ p ∈ pitches, p ≤ Pitch.highest

/-- What an ornament puts onto the stack. -/
inductive Pushes (s : Session) : Ornament → Modifier → Prop
  | staccato : Pushes s .staccato .staccato
  | fermata : Pushes s .fermata (.fermata s.fermata)
  | sforzando : Pushes s .sforzando .sforzando
  | trill : Pushes s .trill .trill
  | crescendo (ramp : Ramp) : Pushes s (.crescendo ramp.target) (.dynamics ramp)
  | decrescendo (ramp : Ramp) : Pushes s (.decrescendo ramp.target) (.dynamics ramp)

/-- What happens to a timeline besides playing, with the values that come in. -/
inductive Tuning (fits : Item → Prop) (t : Timeline) : (Timeline → Timeline) → Prop
  | octave (octaves : Int) : Tuning fits t fun t =>
    { t with state := { t.state with octave := t.state.octave + octaves } }
  | setting {key value : String} {f : Timeline → Timeline}
    (read : settingChange t key value = .ok f) : Tuning fits t f
  | velocity {offset target : Nat} {kind : Ornament} {body : List Item}
    (within : fits (.ornament offset kind body))
    (leads : kind = .crescendo target ∨ kind = .decrescendo target) :
    Tuning fits t fun t => { t with state := { t.state with velocity := target } }
  | pedal {value : Nat} (small : value ≤ 127) :
    Tuning fits t (Timeline.setController sustainController value)
  | bends {bends : List (Nat × Binary64)} (past : ∀ bend ∈ bends, bend.1 ≤ t.position) :
    Tuning fits t (addBends bends)
  | branches (base : Nat) : Tuning fits t (Timeline.release base)

theorem Tuning.change {fits : Item → Prop} {t : Timeline} {f : Timeline → Timeline}
    (tuning : Tuning fits t f) : Timeline.Change f := by
  cases tuning with
  | octave octaves => exact .state fun state => { state with octave := state.octave + octaves }
  | setting read => exact settingChange_change read
  | velocity => exact .state fun state => { state with velocity := _ }
  | pedal => exact .controller ..
  | bends => exact .bends _
  | branches base => exact .release base

theorem Tuning.mono {fits fits' : Item → Prop} {t : Timeline} {f : Timeline → Timeline}
    (tuning : Tuning fits t f) (weaker : ∀ {item}, fits item → fits' item) : Tuning fits' t f := by
  cases tuning with
  | octave octaves => exact .octave octaves
  | setting read => exact .setting read
  | velocity within leads => exact .velocity (weaker within) leads
  | pedal small => exact .pedal small
  | bends past => exact .bends past
  | branches base => exact .branches base

/-- Notes stand where a key or a chord of a kind begins. -/
inductive Origin (fits : Item → Prop) : (offset : Nat) → Prop
  | key {k : Key} (within : fits (.key k)) : Origin fits k.offset
  | chord {c : Chord} (within : fits (.chord c)) : Origin fits c.offset

theorem Origin.mono {fits fits' : Item → Prop} {offset : Nat} (origin : Origin fits offset)
    (weaker : ∀ {item}, fits item → fits' item) : Origin fits' offset := by
  cases origin with
  | key within => exact .key (weaker within)
  | chord within => exact .chord (weaker within)

/-- An invariant besides the one that every run keeps. -/
structure Kept (P : List Modifier → Session → Prop) (stack : List Modifier) (m : Bool)
    (live : List TimelineId) (s : Session) : Prop where
  tended : s.Tended m live
  holds : P stack s

variable {E : Fault → Prop} {fits : List Modifier → Item → Prop}
  {P : List Modifier → Session → Prop}

theorem Kept.shrink {stack : List Modifier} {m : Bool} {live live' : List TimelineId}
    (within : live ⊆ live') {s : Session} (kept : Kept P stack m live' s) :
    Kept P stack m live s := ⟨upkeep_tended.shrink within kept.tended, kept.holds⟩

/-- The onsets so far with those of a unit under some ornaments. -/
abbrev heard (stack : List Modifier) (onset : Nat) (plain : Staged) (onsets : Option (Nat × Nat)) :
    Option (Nat × Nat) :=
  (Draft.onsets onset (Modifier.applyAll stack onset plain).notes).foldl widen onsets

/-- What small steps must keep for an invariant to be kept by items that fit. -/
structure Custody (E : Fault → Prop) (fits : List Modifier → Item → Prop)
    (P : List Modifier → Session → Prop) : Prop where
  fault : ∀ {fault : Fault}, ¬ fault.cause.Special → E fault
  stray : ∀ {stack offset value}, fits stack (.breakpoint offset value) → E ⟨.strayBreakpoint, offset⟩
  inner : ∀ {stack item inner}, fits stack item → inner ∈ item.inner → item.Performs inner →
    fits stack inner
  spend : ∀ {stack} {s : Session} (gas : Gas), P stack s → P stack { s with gas := gas }
  copy : ∀ {stack} {s : Session}, P stack s → P stack s.measured
  graces : ∀ {stack graces} {s : Session},
    (∀ waiting ∈ graces, ∀ pitches ∈ Prod.snd waiting, Pitched pitches) →
    P stack s → P stack { s with graces := graces }
  restore : ∀ {stack} {s t : Session}, P stack s → P stack t →
    P stack { t with definitions := s.definitions, fermata := s.fermata }
  stack : ∀ {stack} {s : Session}, P stack s → s.modifiers = stack
  pop : ∀ {stack modifier} {s : Session}, P (modifier :: stack) s →
    P stack { s with modifiers := stack }
  ornament : ∀ {stack offset kind body modifier} {s : Session},
    fits stack (.ornament offset kind body) → Pushes s kind modifier → P stack s →
    (∀ item ∈ body, fits (modifier :: stack) item) ∧
      P (modifier :: stack) { s with modifiers := modifier :: stack }
  template : ∀ {stack offset name body template} {s : Session},
    fits stack (.range offset (.userRange name) body) → P stack s →
    s.definitions.templates.lookup name = some template →
    ∀ base octave, ∀ item ∈ template, fits (.substitute base octave :: stack) item
  substitute : ∀ {stack base} (octave : Int) {s : Session}, base ≤ Pitch.highest → P stack s →
    P (.substitute base octave :: stack) { s with modifiers := .substitute base octave :: stack }
  declare : ∀ {stack offset id body}, fits stack (.group offset id body) →
    Contract E (P stack) (onDefinitions (Definitions.declareGroup id body offset)) fun _ => P stack
  group : ∀ {stack offset id body} {s : Session}, fits stack (.groupRef offset id) → P stack s →
    s.definitions.groups.lookup id = some body → ∀ item ∈ body, fits stack item
  tuning : ∀ {stack m live here f} {s : Session}, Kept P stack m live s → here ∈ live →
    Tuning (fits stack) (s.arena.timeline here) f →
    P stack { s with arena := s.arena.adjust here f }
  tuplet : ∀ {stack m live here offset size body unit} {s : Session} {t : Timeline},
    Kept P stack m live s → here ∈ live → fits stack (.range offset (.tuplet size) body) →
    (Timeline.beginTuplet offset size).run (s.arena.timeline here) = .ok unit t →
    P stack { s with arena := s.arena.adjust here fun _ => t } ∧
      ∀ {s : Session}, Kept P stack m live s →
        P stack { s with arena := s.arena.adjust here (Timeline.endTuplet unit) }
  branch : ∀ {stack m live here offset index child arena} {s : Session}, Kept P stack m live s →
    here ∈ live → (Arena.childAt here offset (.branch index)).run s.arena = .ok child arena →
    P stack { s with arena := arena }
  rest : ∀ {stack m live here} {s : Session}, Kept P stack m live s → here ∈ live →
    (s.arena.timeline here).position ≤ longest →
    P stack { s with arena := s.arena.adjust here fun t => t.rest.2 }
  tie : ∀ {stack m live here offset ticks arena} {s : Session}, Kept P stack m live s →
    here ∈ live → (s.arena.timeline here).position ≤ longest →
    (Arena.tie here offset).run s.arena = .ok ticks arena → P stack { s with arena := arena }
  note : ∀ {stack m live here pitches plain offset} {s t : Session},
    Origin (fits stack) offset → Kept P stack m live s → here ∈ live → (s.arena.timeline here).position ≤ longest →
    Pitched pitches → (stage here pitches).run s = .ok plain t →
    P stack { t with
      arena := t.arena.adjust here fun u => (u.commit offset
        (Modifier.applyAll stack (s.arena.timeline here).position plain)).2
      onsets := heard stack (s.arena.timeline here).position plain t.onsets }
  arpeggio : ∀ {stack m live here pitches plain chord interval ticks arena} {s t : Session},
    Kept P stack m live s → here ∈ live → fits stack (.chord chord) → chord.arpeggio →
    (s.arena.timeline here).position ≤ longest → Pitched pitches →
    (stage here pitches).run s = .ok plain t →
    (Arena.commitArpeggio here chord.offset
      (Modifier.applyAll stack (s.arena.timeline here).position plain) interval).run t.arena =
        .ok ticks arena →
    P stack { t with
      arena := arena
      onsets := heard stack (s.arena.timeline here).position plain t.onsets }

namespace Custody
variable {stack : List Modifier} {m : Bool} {live : List TimelineId} {here : TimelineId} {α : Type}

/-- Faults of steps that declare no group are allowed. -/
theorem excused (custody : Custody E fits P) {p : Play α} (sober : Sober p) {fault : Fault}
    {s t : Session} (failed : p.run s = .error fault t) : E fault :=
  custody.fault (mt Cause.Special.grave (sober.error trivial failed))

/-- A primitive step that declares no group keeps the invariant if it keeps what is special about
it. -/
theorem primitive_from (custody : Custody E fits P) (member : here ∈ live) {p : Play α}
    (primitive : Primitive here p) (sober : Sober p) {R : Session → Prop}
    (keeps : ∀ {s t a}, Kept P stack m live s → R s → p.run s = .ok a t → P stack t) :
    Contract E (fun s => Kept P stack m live s ∧ R s) p fun _ => Kept P stack m live :=
  .of_results
    (fun before done =>
      ⟨(before.1.tended.primitive member primitive done).2, keeps before.1 before.2 done⟩)
    fun _ failed => custody.excused sober failed

theorem primitive (custody : Custody E fits P) (member : here ∈ live) {p : Play α}
    (primitive : Primitive here p) (sober : Sober p)
    (keeps : ∀ {s t a}, Kept P stack m live s → p.run s = .ok a t → P stack t) :
    Contract E (Kept P stack m live) p fun _ => Kept P stack m live :=
  (custody.primitive_from member primitive sober (R := fun _ => True)
    fun before _ done => keeps before done).mono (fun before => ⟨before, trivial⟩) id

theorem failAt (custody : Custody E fits P) {β : Type} {offset : Nat} {cause : Cause}
    {R : Session → Prop} {Q : β → Session → Prop} (other : ¬ cause.Special) :
    Contract E R (Step.failAt offset cause) Q :=
  .failAt (custody.fault other)

theorem guarded (custody : Custody E fits P) {β : Type} {c : Prop} [Decidable c] {offset : Nat}
    {cause : Cause} {f : PUnit → Play β} {R : Session → Prop} {Q : β → Session → Prop}
    (other : ¬ cause.Special) (rest : ¬ c → Contract E R (f ⟨⟩) Q) :
    Contract E R (if c then Step.failAt offset cause >>= f else f ⟨⟩) Q :=
  .guarded (custody.fault other) rest

theorem burn (custody : Custody E fits P) (member : here ∈ live) (offset : Nat) :
    Contract E (Kept P stack m live) (Session.burn offset) fun _ => Kept P stack m live := by
  refine custody.primitive member (.burn offset) (sober_burn offset) fun {s t a} kept done => ?_
  rw [burn_run] at done
  split at done
  · exact nomatch done
  · cases done
    exact custody.spend _ kept.holds

theorem tuned_from (custody : Custody E fits P) (member : here ∈ live) {f : Timeline → Timeline}
    {R : Session → Prop}
    (tuning : ∀ {s}, R s → Tuning (fits stack) (s.arena.timeline here) f)
    (change : Timeline.Change f) :
    Contract E (fun s => Kept P stack m live s ∧ R s) (adjust here f)
      fun _ => Kept P stack m live := by
  refine custody.primitive_from member (.change change) (blames_modify _)
    fun {s t a} kept known done => ?_
  cases done
  exact custody.tuning kept member (tuning known)

theorem tuned (custody : Custody E fits P) (member : here ∈ live) {f : Timeline → Timeline}
    (tuning : ∀ t, Tuning (fits stack) t f) :
    Contract E (Kept P stack m live) (adjust here f) fun _ => Kept P stack m live :=
  (custody.tuned_from member (R := fun _ => True) (fun _ => tuning _)
    (tuning { channel := 0 }).change).mono (fun kept => ⟨kept, trivial⟩) id

theorem highest_of_found {n : Int} {pitch : Nat} (found : Pitch.ofInt? n = some pitch) :
    pitch ≤ Pitch.highest := by
  unfold Pitch.ofInt? at found
  split at found
  · next bounds =>
    cases found
    exact Int.toNat_le.mpr bounds.2
  · exact nomatch found

/-- The end of a search for a pitch: what is not found is a fault. -/
theorem found (custody : Custody E fits P) (R : Session → Prop) (offset : Nat) (found : Option Nat) :
    Contract E (fun s => (∀ pitch ∈ found, pitch ≤ Pitch.highest) ∧ R s)
      (match found with
        | some pitch => Pure.pure pitch
        | none => Step.failAt offset .pitchOutOfRange : Play Nat)
      fun pitch s => pitch ≤ Pitch.highest ∧ R s := by
  cases found with
  | none => exact custody.failAt nofun
  | some pitch => exact .pure fun before => ⟨before.1 pitch rfl, before.2⟩

theorem keyPitch (custody : Custody E fits P) (R : Session → Prop) (key : Key) :
    Contract E R (Session.keyPitch here key) fun pitch s => pitch ≤ Pitch.highest ∧ R s := by
  refine Contract.read fun s before => Contract.start (P := R) ?_ before
  have known (n : Int) : Contract E R (pure (Pitch.ofInt? n) : Play (Option Nat))
      fun found s => (∀ pitch ∈ found, pitch ≤ Pitch.highest) ∧ R s :=
    .pure fun before => ⟨fun pitch found => highest_of_found found, before⟩
  cases key.tone with
  | pitchClass c => exact (known _).bind (custody.found R key.offset)
  | placeholder =>
    cases Modifier.substitution? s.modifiers with
    | none => exact Contract.bind (custody.failAt (by rintro ⟨⟩)) (custody.found R key.offset)
    | some pair => exact (known _).bind (custody.found R key.offset)

theorem chordPitches (custody : Custody E fits P) (R : Session → Prop) (octaves : Int)
    (chord : Chord) : Contract E R (Session.chordPitches here octaves chord)
      fun pitches s => Pitched pitches ∧ R s := by
  unfold Session.chordPitches
  refine custody.guarded nofun fun some => ?_
  refine (Contract.mapM fun key _ => custody.keyPitch R (raise octaves key)).mono id ?_
  intro pitches s done
  obtain ⟨length, high, before⟩ := done
  refine ⟨⟨fun none => some ?_, high⟩, before⟩
  rw [none] at length
  exact List.isEmpty_iff.mpr (List.length_eq_zero_iff.mp length.symm)

mutual

theorem gracePitches (custody : Custody E fits P) (R : Session → Prop) (octaves : Int) :
    (item : Item) → Contract E R (Session.gracePitches here octaves item)
      fun graces s => (∀ pitches ∈ graces, Pitched pitches) ∧ R s
  | .key k => (custody.keyPitch R (raise octaves k)).bind fun pitch => .pure fun before => by
      refine ⟨?_, before.2⟩
      simp only [List.mem_singleton, forall_eq]
      exact ⟨List.cons_ne_nil _ _, by simpa using before.1⟩
  | .chord c => (custody.chordPitches R octaves c).bind fun pitches => .pure fun before =>
      ⟨fun other member => List.mem_singleton.mp member ▸ before.1, before.2⟩
  | .range offset kind body => by
    cases kind with
    | octaveUp | octaveDown => exact custody.allGracePitches R _ body
    | tuplet | sustain | userRange => exact custody.failAt nofun
  | .setting _ | .ornament .. | .tie _ | .breakpoint .. | .graced .. | .group .. | .groupRef ..
  | .parallel .. | .emoji .. | .rest _ => custody.failAt nofun

theorem allGracePitches (custody : Custody E fits P) (R : Session → Prop) (octaves : Int) :
    (items : List Item) → Contract E R (Session.allGracePitches here octaves items)
      fun graces s => (∀ pitches ∈ graces, Pitched pitches) ∧ R s
  | [] => .pure fun before => ⟨nofun, before⟩
  | item :: rest => by
    refine (custody.gracePitches R octaves item).bind fun graces => ?_
    refine (custody.allGracePitches _ octaves rest).bind fun more => .pure fun before => ?_
    exact ⟨List.forall_mem_append.mpr ⟨before.2.1, before.1⟩, before.2.2⟩

end

theorem atTimeline {β : Type} {R : Session → Prop} {Q : β → Session → Prop} {f : Timeline → Play β}
    (rest : ∀ s, R s → Contract E (fun t => t = s) (f (s.arena.timeline here)) Q) :
    Contract E R (timeline here >>= f) Q := fun s before => rest s before rfl

/-- The cursor has not passed the end of the longest song. -/
def Open (here : TimelineId) (s : Session) : Prop := (s.arena.timeline here).position ≤ longest

theorem prepareGraces (custody : Custody E fits P) (member : here ∈ live) (offset : Nat)
    (items : List Item) : Contract E (fun s => Kept P stack m live s ∧ Open here s)
      (Session.prepareGraces here offset items)
      fun _ s => Kept P stack m live s ∧ Open here s := by
  refine (custody.allGracePitches _ 0 items).bind fun graces => ?_
  refine custody.guarded nofun fun _ => .modify fun {s} before => ?_
  obtain ⟨pitched, kept, room⟩ := before
  have tended := (kept.tended.primitive member
    (.graces (some (offset, graces))) (s := s) (a := ⟨⟩) rfl).2
  refine ⟨⟨tended, custody.graces (fun waiting same => ?_) kept.holds⟩, room⟩
  cases same
  exact pitched

theorem requireNoGraces (custody : Custody E fits P) (member : here ∈ live) :
    Contract E (Kept P stack m live) Session.requireNoGraces fun _ => Kept P stack m live := by
  refine Contract.bind (Q := fun _ => Kept P stack m live)
    (.of_results (fun {s waiting t} kept done => ?_) nofun) fun waiting => ?_
  · cases done
    exact ⟨(kept.tended.primitive member (.graces none) (s := s) (a := ⟨⟩) rfl).2,
      custody.graces nofun kept.holds⟩
  · cases waiting with
    | none => exact .pure id
    | some waiting => exact custody.failAt nofun

/-- What is staged is the graces that wait and one unit of the timeline. -/
theorem stage_ok {pitches : List Nat} {plain : Staged} {s t : Session}
    (done : (stage here pitches).run s = .ok plain t) :
    t = { s with graces := none } ∧
      let state := (s.arena.timeline here).state
      match s.graces with
      | none => plain = ⟨[⟨pitches, state.quantization, state.velocity, false⟩], 0⟩
      | some (_, graces) =>
        let length := Modifier.graceLength * graces.length
        length < state.quantization ∧
          plain = ⟨graces.map (⟨·, Modifier.graceLength, state.velocity, true⟩) ++
            [⟨pitches, state.quantization - length, state.velocity, false⟩], 0⟩ := by
  obtain ⟨_, _, read, done⟩ := Step.bind_ok done
  cases read
  obtain ⟨_, _, taken, done⟩ := Step.bind_ok done
  cases taken
  cases graces : s.graces with
  | none =>
    rw [graces] at done
    cases done
    exact ⟨rfl, rfl⟩
  | some waiting =>
    rw [graces] at done
    obtain ⟨room, done⟩ := Step.unless_ok done
    cases done
    exact ⟨rfl, Nat.lt_of_not_le room, rfl⟩

theorem sober_stage (pitches : List Nat) : Sober (stage here pitches) := by
  refine atTimeline fun s _ => Contract.bind (Q := fun _ _ => True)
    (.of_results (fun _ _ => trivial) nofun) fun waiting => ?_
  cases waiting with
  | none => exact blames_pure _
  | some waiting => exact blames_unless nofun (blames_pure _)

theorem commit (custody : Custody E fits P) (member : here ∈ live) {offset : Nat}
    (origin : Origin (fits stack) offset) {pitches : List Nat} (pitched : Pitched pitches)
    (arpeggio : Bool)
    (rolled : arpeggio → ∃ chord, fits stack (.chord chord) ∧ chord.arpeggio ∧ offset = chord.offset) :
    Contract E (fun s => Kept P stack m live s ∧ Open here s)
      (Session.commit here offset pitches arpeggio) fun _ => Kept P stack m live := by
  refine atTimeline fun s before => ?_
  obtain ⟨kept, room⟩ := before
  refine Contract.bind (Q := fun plain t => (stage here pitches).run s = .ok plain t)
    (.of_results (fun same done => same ▸ done)
      fun _ failed => custody.excused (sober_stage pitches) failed) fun plain => ?_
  refine .read fun t staged => ?_
  have same := (stage_ok staged).1
  have modifiers : t.modifiers = stack := by
    rw [same, ← custody.stack kept.holds]
  rw [modifiers]
  have tended : t.Tended m live := by
    rw [same]
    exact (kept.tended.primitive member (.graces none) (s := s) (a := ⟨⟩) rfl).2
  let onsets := heard stack (s.arena.timeline here).position plain
  have played := (tended.primitive member (.onsets onsets) (a := ⟨⟩) rfl).2
  refine Contract.bind (Q := fun _ u => u = { t with onsets := onsets t.onsets })
    (.modify fun {u} same => same ▸ rfl) fun _ => ?_
  cases arpeggio with
  | false =>
    refine .of_results (fun {u ticks v} known done => ?_) fun _ failed => ?_
    · cases known
      refine ⟨(played.primitive member (.note offset _) done).2, ?_⟩
      obtain ⟨arena, ran, rfl⟩ := onArena_ok done
      rw [Arena.update_run] at ran
      cases ran
      exact custody.note origin kept member room pitched staged
    · exact custody.excused (blames_onArena (blames_update _)) failed
  | true =>
    obtain ⟨chord, within, loud, rfl⟩ := rolled rfl
    refine .of_results (fun {u ticks v} known done => ?_) fun _ failed => ?_
    · cases known
      have sounds := (sounds_stage pitched.1 staged).applyAll stack (s.arena.timeline here).position
      refine ⟨(played.primitive member (.arpeggio chord.offset _ _ sounds) done).2, ?_⟩
      obtain ⟨arena, ran, rfl⟩ := onArena_ok done
      exact custody.arpeggio kept member within loud room pitched staged ran
    · exact custody.fault ((blames_onArena (blames_commitArpeggio (E := (¬ ·.cause.Special)) _ _ _
        nofun nofun)).error trivial failed)

theorem applySetting (custody : Custody E fits P) (member : here ∈ live) (setting : Setting)
    (offset : Nat) : Contract E (Kept P stack m live)
      (Session.applySetting here setting offset) fun _ => Kept P stack m live := by
  refine atTimeline fun s kept => ?_
  cases read : settingChange (s.arena.timeline here) setting.key setting.value with
  | error cause =>
    refine custody.failAt fun special => ?_
    rcases settingChange_error read with rfl | rfl | rfl <;> exact nomatch special
  | ok f =>
    exact (custody.tuned_from member (R := fun t => t = s) (fun same => same ▸ .setting read)
      (settingChange_change read)).mono (fun same => ⟨same ▸ kept, same⟩) id

theorem refer (custody : Custody E fits P) (references offset : Nat) {R : Session → Prop} :
    Contract E R (Session.refer references offset) fun _ => R := by
  unfold Session.refer
  split
  · exact custody.failAt nofun
  · exact .pure id

/-- Looking up what a name stands for. -/
theorem lookup (custody : Custody E fits P) {fault : Fault} {found : Definitions → Option α}
    {step : Step Definitions α}
    (reads : ∀ d, step.run d = (found d).elim (.error fault d) (.ok · d))
    (other : ¬ fault.cause.Special) :
    Contract E (Kept P stack m live) (onDefinitions step)
      fun a s => found s.definitions = some a ∧ Kept P stack m live s := by
  intro s kept
  simp only [onDefinitions, Step.within_run, reads]
  cases result : found s.definitions with
  | none => exact custody.fault other
  | some a => exact ⟨result, kept⟩

theorem bendSamples_past {start target : Binary64} {first last : Nat} {bend : Nat × Binary64}
    (listed : bend ∈ bendSamples start target first last) : bend.1 ≤ last := by
  obtain ⟨i, counted, rfl⟩ := List.mem_map.mp listed
  have few := List.mem_range.mp counted
  simp only [bendResolution] at few ⊢
  omega

theorem bent (custody : Custody E fits P) (member : here ∈ live) {position : Nat}
    {bends : List (Nat × Binary64)} (past : ∀ bend ∈ bends, bend.1 ≤ position) :
    Contract E (fun s => Kept P stack m live s ∧ (s.arena.timeline here).position = position)
      (adjust here (addBends bends))
      fun _ s => Kept P stack m live s ∧ (s.arena.timeline here).position = position := by
  have tuned : Contract E
      (fun s => Kept P stack m live s ∧ (s.arena.timeline here).position = position)
      (adjust here (addBends bends)) fun _ => Kept P stack m live :=
    custody.tuned_from member (fun same => .bends fun bend listed => same ▸ past bend listed)
      (.bends bends)
  refine .of_results (fun {s a t} before done => ⟨tuned.ok before done, ?_⟩) nofun
  cases done
  have inside := before.1.tended.sound.inside (before.1.tended.playable here member)
  rw [Arena.timeline_adjust_self here _ _ inside]
  exact (Timeline.addBends_still bends _).position.trans before.2

theorem bendEnd (custody : Custody E fits P) (member : here ∈ live) {β : Type} (point : β)
    {position : Nat} {value : Binary64} :
    Contract E (fun s => Kept P stack m live s ∧ (s.arena.timeline here).position = position)
      (do adjust here (Timeline.addBend position value); return point)
      fun ended s => ended = point ∧ Kept P stack m live s ∧
        (s.arena.timeline here).position = position :=
  have one : ∀ bend ∈ [(position, value)], bend.1 ≤ position := fun _ listed =>
    List.mem_singleton.mp listed ▸ Nat.le_refl position
  Contract.bind (custody.bent member one) fun _ => .pure fun bent => ⟨rfl, bent⟩

/-- A breakpoint adds bends up to the cursor, where the next stretch begins. -/
theorem breakpoint (custody : Custody E fits P) (member : here ∈ live) (point : BendPoint)
    (value : Binary64) : Contract E (Kept P stack m live)
      (do
        let target := value.clampUnit
        let position := (← timeline here).position
        adjust here (addBends (bendSamples point.value target point.position position))
        adjust here (Timeline.addBend position target)
        return (⟨point.ticks, target, position⟩ : BendPoint))
      fun next s => Kept P stack m live s ∧ next.position = (s.arena.timeline here).position := by
  refine atTimeline fun s kept => ?_
  refine Contract.start ?_ (P := fun t => Kept P stack m live t ∧
    (t.arena.timeline here).position = (s.arena.timeline here).position) ⟨kept, rfl⟩
  refine (custody.bent member fun _ => bendSamples_past).bind fun _ => ?_
  refine (custody.bendEnd member _).mono id fun {next t} ended => ?_
  obtain ⟨rfl, kept, there⟩ := ended
  exact ⟨kept, there.symm⟩

/-- A child that is claimed is in use from then on. -/
theorem child (custody : Custody E fits P) (member : here ∈ live) (offset index : Nat) :
    Contract E (Kept P stack m live) (onArena (Arena.childAt here offset (.branch index)))
      fun child => Kept P stack m (child :: live) := by
  refine .of_results (fun {s child t} kept done => ?_) fun _ failed => ?_
  · have tended := (kept.tended.branch member done).2
    obtain ⟨arena, ran, rfl⟩ := onArena_ok done
    exact ⟨tended, custody.branch kept member ran⟩
  · exact custody.fault ((blames_onArena
      (blames_childAt (E := (¬ ·.cause.Special)) _ _ nofun)).error trivial failed)

/-- The children that a passage claims are in use from then on. -/
theorem children (custody : Custody E fits P) (member : here ∈ live) (offset base : Nat)
    (slots : List Nat) :
    Contract E (Kept P stack m live)
      (slots.mapM fun i => onArena (Arena.childAt here offset (.branch (base + i))))
      fun children => Kept P stack m (children ++ live) := by
  induction slots generalizing live with
  | nil => exact .pure id
  | cons i slots ih =>
    rw [List.mapM_cons]
    refine (custody.child member offset (base + i)).bind fun child => ?_
    refine (ih (List.mem_cons_of_mem child member)).bind fun children => .pure fun kept => ?_
    refine kept.shrink fun id listed => ?_
    simp only [List.cons_append, List.mem_cons, List.mem_append] at listed ⊢
    exact or_left_comm.mp listed

/-- After what sounds no graces are left. -/
theorem finish (custody : Custody E fits P) (member : here ∈ live) {R : Session → Prop} {p : Play Nat}
    (played : Contract E R p fun _ => Kept P stack m live) :
    Contract E R (do let ticks ← p; Session.requireNoGraces; return ticks)
      fun _ => Kept P stack m live :=
  played.bind fun _ => (custody.requireNoGraces member).bind fun _ => .pure id

theorem opened (custody : Custody E fits P) (member : here ∈ live) (offset : Nat) {p : Play Nat}
    {Q : Nat → Session → Prop}
    (rest : Contract E (fun s => Kept P stack m live s ∧ Open here s) p Q) :
    Contract E (Kept P stack m live) (Session.opened here offset p) Q := by
  refine (custody.burn member offset).bind fun _ => atTimeline fun s kept => ?_
  refine custody.guarded nofun fun room => rest.start ⟨kept, Nat.le_of_not_lt room⟩

theorem declared (custody : Custody E fits P) (member : here ∈ live) {offset id : Nat}
    {body : List Item} (within : fits stack (.group offset id body)) :
    Contract E (Kept P stack m live) (onDefinitions (Definitions.declareGroup id body offset))
      fun _ => Kept P stack m live :=
  .of_results
    (fun kept done => ⟨(kept.tended.primitive member (.definitions (.declareGroup id body offset)) done).2,
      (custody.declare within).ok kept.holds done⟩)
    fun kept failed => (custody.declare within).error kept.holds failed

end Custody
end Session
end TextScore
