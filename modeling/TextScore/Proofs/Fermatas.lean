import Mathlib
import TextScore.Proofs.Lengths

/-! Songs that are short enough to be written. Past a certain tick a timeline takes nothing more, and
what it takes before that is as long as the fermatas around it make it. How many there are shows in
the score: where they are not nested too deeply for the factor that they have, no delay of a track
needs more bits than a file has for it. -/
namespace TextScore

/-- The fermatas that an item is itself. -/
def Item.fermatas : Item → Nat
  | .ornament _ .fermata _ => 1
  | _ => 0

/-- What a score may come to perform, inside so many fermatas: its items, as they are written or as
they are played again, what is inside them, the groups that they refer to and the templates that they
invoke. -/
inductive Nested (score : List Node) : Nat → Item → Prop
  | node {first : Node} {item : Item} (listed : first ∈ score)
    (played : first = .item item ∨ first.replay? = some (.item item)) : Nested score 0 item
  | inner {count : Nat} {outer item : Item} (nested : Nested score count outer)
    (listed : item ∈ outer.inner) : Nested score (count + outer.fermatas) item
  | group {count count' offset offset' id : Nat} {body : List Item} {item : Item}
    (nested : Nested score count (.groupRef offset id))
    (declared : Nested score count' (.group offset' id body)) (listed : item ∈ body) :
    Nested score count item
  | template {count offset offset' : Nat} {name : String} {body template : List Item} {item : Item}
    (nested : Nested score count (.range offset (.userRange name) body))
    (defined : .define offset' name template ∈ score) (listed : item ∈ template) :
    Nested score count item

/-- No factor of fermatas is above `bound`, and no more than `most` of them are nested. -/
structure Shallow (bound most : Nat) (score : List Node) : Prop where
  factors : ∀ {offset value factor}, .global offset "fermata" value ∈ score →
    Session.fermata? value = some factor → factor.isPositiveUpTo bound
  nested : ∀ {count item}, Nested score count item → count + item.fermatas ≤ most

namespace Session
open Modifier (fermatas)
variable {score : List Node} {bound most : Nat} {stack : List Modifier} {m : Bool}
  {live : List TimelineId} {here : TimelineId} {s t : Session}

/-- What is staged is one unit long. -/
theorem stage_ticks {pitches : List Nat} {plain : Staged}
    (done : (stage here pitches).run s = .ok plain t) :
    plain.ticks = (s.arena.timeline here).state.quantization := by
  have graces (pitches : List (List Nat)) (velocity : Nat) :
      Draft.sum Draft.duration (pitches.map (⟨·, Modifier.graceLength, velocity, true⟩)) =
        Modifier.graceLength * pitches.length := by
    induction pitches with
    | nil => rfl
    | cons first pitches ih =>
      rw [List.map_cons, Draft.sum, ih, List.length_cons, Nat.mul_succ, Nat.add_comm]
  obtain ⟨-, staged⟩ := Custody.stage_ok done
  cases waiting : s.graces with
  | none =>
    rw [waiting] at staged
    obtain rfl := staged
    rfl
  | some pair =>
    rw [waiting] at staged
    obtain ⟨long, rfl⟩ := staged
    simp only [Staged.ticks, Draft.sum_append, graces, Draft.sum]
    omega

/-- A session in which all that has been played ends before a delay can become too long. -/
structure Short (score : List Node) (bound most : Nat) (stack : List Modifier) (s : Session) :
    Prop where
  real : s.Real stack
  level : s.arena.Level latest
  bent : s.arena.Each (Timeline.Bent latest)
  factor : s.fermata.isPositiveUpTo bound
  factors : ∀ factor, .fermata factor ∈ stack → factor.isPositiveUpTo bound
  few : fermatas stack ≤ most
  conductor : s.conductor.position ≤ latest
  told : Track.span (Track.ofConductor s.conductor).events = s.conductor.position
  groups : ∀ id body, s.definitions.groups.lookup id = some body →
    ∃ count offset, Nested score count (.group offset id body)
  templates : ∀ name body, s.definitions.templates.lookup name = some body →
    ∃ offset, .define offset name body ∈ score

namespace Short

/-- However long a unit is, it ends in time, with what a tuplet owes for it. -/
theorem room (short : Short score bound most stack s) (positive : 1 ≤ bound)
    (small : bound ^ most < 8192) (inside : here < s.arena.timelines.size)
    (early : (s.arena.timeline here).position ≤ longest) {staged : Staged}
    (unit : staged.ticks = (s.arena.timeline here).state.quantization) (onset : Nat) :
    (s.arena.timeline here).position + (Modifier.applyAll stack onset staged).ticks +
      ((s.arena.timeline here).calibrate (Modifier.applyAll stack onset staged).ticks).1 ≤
        latest := by
  have real := short.real.timelines here inside
  have factor : bound ^ fermatas stack < 8192 :=
    Nat.lt_of_le_of_lt (Nat.pow_le_pow_right positive short.few) small
  have product : bound ^ fermatas stack * staged.ticks ≤ 8191 * 8192 :=
    Nat.mul_le_mul (Nat.le_of_lt_succ factor) (unit ▸ real.quantization.2)
  have long := Modifier.ticks_applyAll onset positive short.factors
    (Nat.le_trans product (by decide : 8191 * 8192 ≤ 2 ^ 51))
  have owed := real.calibrate_le (Modifier.applyAll stack onset staged).ticks
  have limit : longest + 2 * (8191 * 8192) ≤ latest := by decide
  omega

/-- Playing lets the session be short if the arena does. -/
theorem withArena (short : Short score bound most stack s) {arena : Arena}
    (real : arena.Each Timeline.Real) (level : arena.Level latest)
    (bent : arena.Each (Timeline.Bent latest)) :
    Short score bound most stack { s with arena := arena } :=
  { short with real := short.real.withArena real, level := level, bent := bent }

end Short

theorem Kept.real (kept : Kept (Short score bound most) stack m live s) :
    Kept Real stack m live s := ⟨kept.tended, kept.holds.real⟩

theorem Kept.free {P : List Modifier → Session → Prop} (kept : Kept P stack m live s)
    (member : here ∈ live) : here ∉ s.arena.voices :=
  kept.tended.sound.forest.not_voice (kept.tended.playable here member)

theorem settingChange_bends {t : Timeline} {key value : String} {f : Timeline → Timeline}
    (read : settingChange t key value = .ok f) : (f t).bends = t.bends := by
  let Same (f : Timeline → Timeline) : Prop := (f t).bends = t.bends
  simp only [settingChange] at read
  split at read
  · exact change_of_read (p := Same) read fun _ _ => rfl
  · exact change_of_read (p := Same) read fun _ _ => rfl
  · split at read
    · cases read
    · exact change_of_read (p := Same) read fun _ _ => rfl
  · exact change_of_read (p := Same) read fun _ _ => rfl
  · exact change_of_read (p := Same) read fun _ _ => rfl
  · exact change_of_read (p := Same) read fun _ _ => rfl
  · cases read

theorem Tuning.bent {fits : Item → Prop} {t : Timeline} {f : Timeline → Timeline} {limit : Nat}
    (tuning : Tuning fits t f) (cursor : t.position ≤ limit) (bent : t.Bent limit) :
    (f t).Bent limit := by
  cases tuning with
  | setting read =>
    rw [Timeline.Bent, settingChange_bends read]
    exact bent
  | bends past =>
    exact Timeline.bent_addBends bent fun bend listed => Nat.le_trans (past bend listed) cursor
  | _ => exact bent

/-- Items that fit inside ornaments: they are read from the score, and no deeper than it has them. -/
abbrev Reachable (score : List Node) (stack : List Modifier) (item : Item) : Prop :=
  item.WellFormed ∧ ∃ count, fermatas stack ≤ count ∧ Nested score count item

theorem fermatas_cons (modifier : Modifier) (stack : List Modifier) :
    fermatas (modifier :: stack) = fermatas stack + if modifier.isFermata then 1 else 0 :=
  List.countP_cons ..

/-- A fermata puts one fermata onto the stack. -/
theorem fermatas_pushes {kind : Ornament} {modifier : Modifier} (pushes : Pushes s kind modifier)
    (stack : List Modifier) (offset : Nat) (body : List Item) : fermatas (modifier :: stack) =
      fermatas stack + (Item.ornament offset kind body).fermatas := by
  rw [fermatas_cons]
  cases pushes <;> rfl

namespace Short
variable (kept : Kept (Short score bound most) stack m live s) (member : here ∈ live)
  (early : (s.arena.timeline here).position ≤ longest)
include kept member early

theorem rest : Short score bound most stack
    { s with arena := s.arena.adjust here fun t => t.rest.2 } := by
  have real := kept.holds.real.timelines here (kept.inside member)
  obtain ⟨onward, short⟩ := real.position_rest
  refine kept.holds.withArena (custody_real.rest kept.real member early).timelines
    (kept.holds.level.adjust (kept.free member) (Timeline.restFor_strides ..).family.2 onward ?_)
    (kept.holds.bent.adjust (Timeline.kind_bent latest).rest)
  have unit := real.quantization.2
  have limit : longest + 2 * 8192 ≤ latest := by decide
  omega

theorem tie {offset ticks : Nat} {arena : Arena}
    (done : (Arena.tie here offset).run s.arena = .ok ticks arena) :
    Short score bound most stack { s with arena := arena } := by
  have inside := kept.inside member
  have real := kept.holds.real.timelines here inside
  refine kept.holds.withArena (custody_real.tie kept.real member early done).timelines
    (kept.holds.level.tie kept.tended.sound (kept.tended.playable here member) done ?_)
    (kept.holds.bent.tie (Timeline.kind_bent latest) inside done)
  obtain ⟨extra, tuned, calibrated, rfl, -⟩ := Arena.tie_ok inside done
  have owed := real.calibrate_le (s.arena.timeline here).state.quantization
  rw [calibrated] at owed
  have unit := real.quantization.2
  have limit : longest + 2 * 8192 ≤ latest := by decide
  omega

variable {pitches : List Nat} {plain : Staged} (positive : 1 ≤ bound)
  (small : bound ^ most < 8192) (pitched : Pitched pitches)
  (staged : (stage here pitches).run s = .ok plain t)
include positive small pitched staged

theorem note {offset : Nat} (origin : Origin (Reachable score stack) offset) :
    Short score bound most stack { t with
      arena := t.arena.adjust here fun u => (u.commit offset
        (Modifier.applyAll stack (s.arena.timeline here).position plain)).2
      onsets := heard stack (s.arena.timeline here).position plain t.onsets } := by
  have real := custody_real.note (origin.mono And.left) kept.real member early pitched staged
  have room := kept.holds.room positive small (kept.inside member) early (stage_ticks staged)
    (s.arena.timeline here).position
  obtain ⟨rfl, -⟩ := Custody.stage_ok staged
  have position := Timeline.position_commit offset
    (Modifier.applyAll stack (s.arena.timeline here).position plain) (s.arena.timeline here)
  refine { kept.holds with real := real, level := ?_, bent := ?_ }
  · exact kept.holds.level.adjust (kept.free member) (Timeline.commit_strides ..).family.2
      (by omega) (by omega)
  · exact kept.holds.bent.adjust fun bent =>
      (Timeline.kind_bent latest).commit offset (fun _ _ _ => trivial) bent

theorem arpeggio {chord : Chord} {interval ticks : Nat} {arena : Arena}
    (within : Item.WellFormed (.chord chord)) (loud : chord.arpeggio)
    (done : (Arena.commitArpeggio here chord.offset
      (Modifier.applyAll stack (s.arena.timeline here).position plain) interval).run t.arena =
        .ok ticks arena) :
    Short score bound most stack { t with
      arena := arena
      onsets := heard stack (s.arena.timeline here).position plain t.onsets } := by
  have inside := kept.inside member
  have real := custody_real.arpeggio kept.real member within loud early pitched staged done
  have room := kept.holds.room positive small inside early (stage_ticks staged)
    (s.arena.timeline here).position
  obtain ⟨rfl, -⟩ := Custody.stage_ok staged
  refine { kept.holds with real := real, level := ?_, bent := ?_ }
  · exact kept.holds.level.commitArpeggio kept.tended.sound (kept.tended.playable here member) done
      room
  · exact kept.holds.bent.commitArpeggio (Timeline.kind_bent latest) inside
      (fun _ _ _ => trivial) (fun _ _ _ _ _ _ => trivial) done

end Short

theorem custody_short (shallow : Shallow bound most score) (positive : 1 ≤ bound)
    (small : bound ^ most < 8192) :
    Custody (fun _ => True) (Reachable score) (Short score bound most) where
  fault _ := trivial
  stray _ := trivial
  inner {stack item inner} reachable listed performed := by
    obtain ⟨within, count, deep, nested⟩ := reachable
    have proper := @Custody.inner _ _ _ custody_real stack item inner within listed performed
    exact ⟨proper, _, Nat.le_add_right_of_le deep, nested.inner listed⟩
  spend gas short := { short with real := custody_real.spend gas short.real }
  copy short := { short with real := custody_real.copy short.real }
  graces pitched short := { short with real := custody_real.graces pitched short.real }
  restore short later := { later with
    real := custody_real.restore short.real later.real
    factor := short.factor
    groups := short.groups
    templates := short.templates }
  stack short := short.real.modifiers
  pop {stack modifier s} short := { short with
    real := custody_real.pop short.real
    factors := fun factor listed => short.factors factor (List.mem_cons_of_mem modifier listed)
    few := Nat.le_trans (fermatas_cons modifier stack ▸ Nat.le_add_right ..) short.few }
  ornament {stack offset kind body modifier s} reachable pushes short := by
    obtain ⟨within, count, deep, nested⟩ := reachable
    obtain ⟨each, real⟩ := custody_real.ornament within pushes short.real
    have one := fermatas_pushes pushes stack offset body
    have most := shallow.nested nested
    refine ⟨fun item listed => ⟨each item listed, _, ?_, nested.inner listed⟩,
      { short with real := real, few := by omega, factors := fun factor listed => ?_ }⟩
    · rw [one]
      exact Nat.add_le_add_right deep _
    · rcases List.mem_cons.mp listed with rfl | below
      · cases pushes
        exact short.factor
      · exact short.factors factor below
  template reachable short found base octave item listed := by
    obtain ⟨within, count, deep, nested⟩ := reachable
    obtain ⟨offset, defined⟩ := short.templates _ _ found
    exact ⟨custody_real.template within short.real found base octave item listed, count, deep,
      nested.template defined listed⟩
  substitute octave _ high short := { short with
    real := custody_real.substitute octave high short.real
    factors := fun factor listed => short.factors factor (by simpa using listed) }
  declare {stack offset id body} reachable := by
    refine .of_results (fun {s a t} short done => ?_) fun _ _ => trivial
    obtain ⟨within, count, deep, nested⟩ := reachable
    have real := (custody_real.declare within).ok short.real done
    obtain ⟨-, rfl⟩ := declareGroup_ok done
    refine { short with real := real, groups := fun other found same => ?_ }
    rcases lookup_cons same with ⟨rfl, rfl⟩ | old
    · exact ⟨count, offset, nested⟩
    · exact short.groups other found old
  group reachable short found item listed := by
    obtain ⟨within, count, deep, nested⟩ := reachable
    obtain ⟨count', offset, declared⟩ := short.groups _ _ found
    exact ⟨custody_real.group within short.real found item listed, count, deep,
      nested.group declared listed⟩
  tuning {stack m live here f s} kept member tuning := by
    obtain ⟨position, voices⟩ := tuning.change.position (s.arena.timeline here)
    refine kept.holds.withArena
      (kept.holds.real.timelines.adjust (tuning.mono And.left).real)
      (kept.holds.level.still voices position) (kept.holds.bent.adjust fun bent => ?_)
    exact tuning.bent (kept.holds.level.cursor here) bent
  tuplet {stack m live here offset size body unit s t} kept member reachable begun := by
    obtain ⟨real, back⟩ := custody_real.tuplet kept.real member reachable.1 begun
    obtain ⟨-, -, rfl⟩ := Timeline.beginTuplet_ok begun
    exact ⟨kept.holds.withArena real.timelines (kept.holds.level.still rfl rfl)
        (kept.holds.bent.adjust id),
      fun later => later.holds.withArena (back later.real).timelines
        (later.holds.level.still rfl rfl) (later.holds.bent.adjust id)⟩
  branch kept member done := kept.holds.withArena
    (custody_real.branch kept.real member done).timelines
    (kept.holds.level.childAt_branch kept.tended.sound (kept.tended.playable _ member) done)
    (kept.holds.bent.childAt (Timeline.kind_bent latest) (kept.inside member) done).2
  rest kept member early := Short.rest kept member early
  tie kept member early done := Short.tie kept member early done
  note origin kept member early pitched staged :=
    Short.note kept member early positive small pitched staged origin
  arpeggio kept member reachable loud early pitched staged done :=
    Short.arpeggio kept member early positive small pitched staged reachable.1 loud done

/-- The nodes of a score, and what is played again of them. -/
def Replayed (score : List Node) (node : Node) : Prop :=
  node.WellFormed ∧ ∃ first ∈ score, first = node ∨ first.replay? = some node

theorem Replayed.replay {node again : Node} (known : Replayed score node)
    (played : node.replay? = some again) : Replayed score again := by
  obtain ⟨proper, first, listed, before⟩ := known
  refine ⟨replay_wellFormed proper played, first, listed, ?_⟩
  rcases before with rfl | before
  · exact .inr played
  · rcases Node.replay_cases before with rfl | ⟨offset, id, body, rfl, rfl⟩
    · exact .inr played
    · exact .inr (before.trans played)

theorem Replayed.listed {node : Node} (known : Replayed score node) (mark : node.isItem = false) :
    node ∈ score := by
  obtain ⟨-, first, listed, rfl | before⟩ := known
  · exact listed
  · rcases Node.replay_cases before with rfl | ⟨offset, id, body, rfl, rfl⟩
    · exact listed
    · exact nomatch mark

theorem span_push {c : Conductor} (event : ConductorEvent) :
    Track.span (Track.ofConductor { c with events := c.events.push event }).events =
      Track.span (Track.ofConductor c).events + (Track.ofConductorEvent event).span := by
  simp only [Track.ofConductor, Array.toList_push, List.map_append, Track.span_append, List.map_cons,
    List.map_nil, Track.span, Nat.add_zero]

theorem stewardship_short (shallow : Shallow bound most score) (positive : 1 ≤ bound)
    (small : bound ^ most < 8192) :
    Stewardship (Reachable score) (Short score bound most) (Replayed score) where
  custody := custody_short shallow positive small
  item {item} known := by
    obtain ⟨proper, first, listed, played⟩ := known
    exact ⟨proper, 0, Nat.le_refl 0, .node listed played⟩
  replay := Replayed.replay
  begins {channel s} low high short := { short with
    real := stewardship_real.begins low high short.real
    level := short.level.create channel
    bent := short.bent.create fun _ listed => absurd listed (Array.not_mem_empty _) }
  repeats {here} f {s} short := { short with
    real := stewardship_real.repeats f short.real
    level := short.level.still rfl rfl
    bent := short.bent.adjust id }
  define {offset name body s} known short := by
    refine { short with
      real := stewardship_real.define known.1 short.real, templates := fun other found same => ?_ }
    rcases lookup_cons same with ⟨rfl, rfl⟩ | old
    · exact ⟨offset, known.listed rfl⟩
    · exact short.templates other found old
  emojis emojis short := { short with real := stewardship_real.emojis emojis short.real }
  conduct {offset tick event c s} stands moved directs short := by
    have real := stewardship_real.conduct stands moved directs short.real
    have early : tick ≤ latest := by
      rcases stands with rfl | ⟨here, rfl⟩
      · exact Nat.zero_le _
      · exact short.level.cursor here
    obtain ⟨there, told⟩ : c.position = tick ∧
        Track.span (Track.ofConductor c).events = c.position := by
      obtain ⟨there, rfl | ⟨behind, rfl⟩⟩ := Conductor.moveTo_ok moved
      · exact ⟨there, short.told⟩
      · refine ⟨there, ?_⟩
        have pushed := span_push (c := s.conductor) (.filler (tick - s.conductor.position))
        rw [short.told] at pushed
        exact pushed.trans (Nat.add_sub_cancel' (Nat.le_of_lt behind))
    cases directs with
    | tempo bpm => exact { short with
        real := real, conductor := there ▸ early, told := (span_push (.tempo bpm)).trans told }
    | timeSignature small => exact { short with
        real := real, conductor := there ▸ early, told := (span_push (.timeSignature ..)).trans told }
  fermata {offset value factor s} known read short := { short with
    real := stewardship_real.fermata known.1 read short.real
    factor := shallow.factors (known.listed rfl) read }

theorem short_start (two : 2 ≤ bound) (gas most : Nat) (score : List Node) :
    Short score bound most [] { gas := ⟨gas⟩ } where
  real := real_start gas
  level := ⟨fun _ => Nat.zero_le _, fun _ _ owned => absurd owned (Array.not_mem_empty _)⟩
  bent := nofun
  factor := by
    have factor : (2 : Rat) ≤ bound := by exact_mod_cast two
    have exact : Binary64.magnitude 0x10000000000000 (-51) = 2 := by
      norm_num [Binary64.magnitude]
    exact decide_eq_true ⟨by decide, exact ▸ factor⟩
  factors := nofun
  few := Nat.zero_le _
  conductor := Nat.zero_le _
  told := rfl
  groups := nofun
  templates := nofun

end Session

namespace Compiler
variable {settings : Settings} {source : String} {score : List Node} {stripped : Text.Stripped}
  {bound most : Nat} {all : List Track}

/-- Where no more fermatas are nested than the longest note can bear, no delay is cut, and what a file
says of a track is read back from it. The limit of a timeline alone does not do: it is only looked at
before a key or chord is played. -/
theorem delays_fit (two : 2 ≤ bound) (small : bound ^ most < 8192)
    (parsed : parse source = .ok (score, stripped)) (shallow : Shallow bound most score)
    (done : tracks settings source = .ok all) : ∀ track ∈ all,
      (∀ delayed ∈ Midi.messages track, delayed.1 < 2 ^ 28) ∧
      ((Midi.encodeMessages none (Midi.messages track)).length < 2 ^ 32 →
        ∃ chunk, Midi.Reads Midi.FileReader.track (Midi.trackChunk track) chunk ∧
          Midi.Transcribes track chunk) := by
  obtain ⟨s, _, performed, rfl⟩ := tracks_session done
  obtain ⟨_, parsed', plays⟩ := session_parsed performed
  cases parsed.symm.trans parsed'
  have begins := Session.short_start two settings.gas most score
  have nodes : ∀ node ∈ score, Session.Replayed score node := fun node listed =>
    ⟨Score.read_wellFormed (parse_read parsed) node listed, node, listed, .inl rfl⟩
  obtain ⟨short, active, tended⟩ :=
    (Session.stewardship_short shallow (Nat.le_of_succ_le two) small).plays begins nodes plays
  have real := short.real
  have reach : ∀ track ∈ Track.ofSession s, track.Fits ∧ Track.span track.events ≤ latest := by
    intro track listed
    rcases tended.sound.mem_assemble listed with rfl | ⟨id, inside, collected⟩
    · exact ⟨ofConductor_fits real.meters, short.told ▸ short.conductor⟩
    · exact ⟨(ofTimeline_fits (real.timelines id inside) collected).1,
        Track.span_ofTimeline (tended.sound.orderly id) (short.level.cursor id)
          (short.bent id inside) collected⟩
  intro track listed
  obtain ⟨fits, early⟩ := reach track listed
  have close : ∀ delayed ∈ Midi.messages track, delayed.1 < 2 ^ 28 := fun delayed told =>
    Nat.lt_of_le_of_lt (Nat.le_trans (Midi.delay_le told) early) (by decide : latest < 2 ^ 28)
  exact ⟨close, Midi.reads_track fits close⟩

/-- The longest note in two fermatas, where twelve are few enough. -/
theorem delays_fit_of_nested_fermatas : ∃ all, tracks {} "(q=T8192)<~<~c>>" = .ok all ∧
    ∀ track ∈ all, ∀ delayed ∈ Midi.messages track, delayed.1 < 2 ^ 28 := by
  let key : Item := .key ⟨13, .pitchClass 0, 0, 0⟩
  let inner : Item := .ornament 11 .fermata [key]
  let outer : Item := .ornament 9 .fermata [inner]
  let setting : Item := .setting ⟨0, "q", "T8192"⟩
  obtain ⟨stripped, parsed⟩ : ∃ stripped, parse "(q=T8192)<~<~c>>" =
      .ok ([.item setting, .item outer], stripped) := ⟨_, by cbv⟩
  have all {count : Nat} {item : Item} (nested : Nested [.item setting, .item outer] count item) :
      count = 0 ∧ item = setting ∨ count = 0 ∧ item = outer ∨ count = 1 ∧ item = inner ∨
        count = 2 ∧ item = key := by
    induction nested with
    | node listed played =>
      simp only [List.mem_cons, List.not_mem_nil, or_false] at listed
      rcases listed with rfl | rfl <;> rcases played with same | same <;> cases same
      all_goals simp
    | inner nested listed ih =>
      rcases ih with ⟨rfl, rfl⟩ | ⟨rfl, rfl⟩ | ⟨rfl, rfl⟩ | ⟨rfl, rfl⟩
      · cases listed
      · exact .inr (.inr (.inl ⟨rfl, List.mem_singleton.mp listed⟩))
      · exact .inr (.inr (.inr ⟨rfl, List.mem_singleton.mp listed⟩))
      · cases listed
    | group nested _ _ ih =>
      rcases ih with ⟨-, same⟩ | ⟨-, same⟩ | ⟨-, same⟩ | ⟨-, same⟩ <;> contradiction
    | template nested defined =>
      simp only [List.mem_cons, List.not_mem_nil, or_false, reduceCtorEq] at defined
  have shallow : Shallow 2 12 [.item setting, .item outer] := by
    refine ⟨fun listed => by simp at listed, fun nested => ?_⟩
    rcases all nested with ⟨rfl, rfl⟩ | ⟨rfl, rfl⟩ | ⟨rfl, rfl⟩ | ⟨rfl, rfl⟩ <;> decide
  have played : (tracks {} "(q=T8192)<~<~c>>").toOption.isSome := by decide +kernel
  cases done : tracks {} "(q=T8192)<~<~c>>" with
  | ok all =>
    exact ⟨all, rfl, fun track listed =>
      (delays_fit (by decide) (by decide) parsed shallow done track listed).1⟩
  | error fault =>
    rw [done] at played
    cases played

/-- With fifteen, the song is accepted, but the delay before its note ends no longer fits. -/
example : (tracks {} "(q=T8192)<~<~<~<~<~<~<~<~<~<~<~<~<~<~<~c>>>>>>>>>>>>>>>").toOption.map
    (List.map Track.events) = some [[], [.note [60] 0 (2 ^ 28) 80]] := by decide +kernel

end Compiler
end TextScore
