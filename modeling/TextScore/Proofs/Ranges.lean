import TextScore.Proofs.ArenaSteps
import TextScore.Proofs.FileRoundTrip
import TextScore.Proofs.Reading
import TextScore.Proofs.Stewardship

/-! Values stay in their ranges. Settings check what they set, what ornaments compute stays within the
same bounds, and drafts without length are not played; so all that a file is written from can be
heard, and fits. -/
namespace TextScore
open Session (Pitched)

/-- Drafts may lose all their length, other than graces. -/
structure Draft.Real (d : Draft) : Prop where
  pitched : Pitched d.pitches
  velocity : d.velocity ≤ 127
  grace : d.grace → 1 ≤ d.duration

def Event.Real : Event → Prop
  | .note n => Pitched n.pitches ∧ 1 ≤ n.duration ∧ n.velocity ≤ 127
  | .program number bank => number ≤ 127 ∧ ∀ b ∈ bank, b ≤ 127
  | .controller number value => number ≤ 127 ∧ value ≤ 127

/-- Less than a tick is owed, and each unit owes less than a tick more. -/
structure Tuplet.Steady (t : Tuplet) : Prop where
  remainder : t.remainder < t.divisor
  owed : t.owed < t.divisor

structure Timeline.Real (t : Timeline) : Prop where
  channel : 1 ≤ t.channel ∧ t.channel ≤ 16
  quantization : 1 ≤ t.state.quantization ∧ t.state.quantization ≤ 8192
  velocity : t.state.velocity ≤ 127
  tuplet : ∀ tuplet ∈ t.tuplet, tuplet.Steady
  events : ∀ event ∈ t.events, event.Real

namespace Modifier
variable {stack : List Modifier} {modifier : Modifier} {notes : List Draft} {staged : Staged}

abbrev AllReal (notes : List Draft) : Prop := ∀ d ∈ notes, d.Real

theorem clip_real {cut : Nat} {clipped : List Draft} (done : clip notes = some (clipped, cut))
    (real : AllReal notes) : AllReal clipped := by
  induction notes generalizing clipped with
  | nil => cases done
  | cons draft rest ih =>
    obtain ⟨first, others⟩ := List.forall_mem_cons.mp real
    rw [clip] at done
    split at done
    · next below =>
      cases done
      exact List.forall_mem_cons.mpr ⟨first, ih below others⟩
    · split at done
      · cases done
      · next sounding =>
        cases done
        have shorter : Draft.Real { draft with
            duration := draft.duration - (draft.duration - staccatoLength) } :=
          ⟨first.pitched, first.velocity, fun grace => absurd grace sounding⟩
        exact List.forall_mem_cons.mpr ⟨shorter, others⟩

theorem neighbour?_le {pitch neighbour : Nat} (found : Pitch.neighbour? pitch = some neighbour) :
    neighbour ≤ Pitch.highest := by
  unfold Pitch.neighbour? at found
  dsimp only at found
  split at found
  all_goals
    split at found
    · next room =>
      cases found
      exact room
    · exact nomatch found

theorem stroke_real {draft : Draft} (real : draft.Real) (index : Nat) : (stroke draft index).Real := by
  refine ⟨?_, real.velocity, fun _ => (by decide : 1 ≤ trillLength)⟩
  dsimp only [stroke]
  split
  · exact real.pitched
  · refine ⟨fun none => real.pitched.1 (List.map_eq_nil_iff.mp none), fun p listed => ?_⟩
    obtain ⟨q, member, rfl⟩ := List.mem_map.mp listed
    cases found : Pitch.neighbour? q with
    | none => exact real.pitched.2 q member
    | some neighbour => exact neighbour?_le found

theorem velocity_le {ramp : Ramp} (small : ramp.target ≤ 127) (tick : Nat) :
    ramp.velocity tick ≤ 127 := by
  unfold Ramp.velocity
  split
  · exact small
  · exact Nat.min_le_left ..

theorem apply_real (onset : Nat) (ramps : ∀ ramp, modifier = .dynamics ramp → ramp.target ≤ 127)
    (real : AllReal staged.notes) : AllReal (apply onset staged modifier).notes := by
  cases modifier with
  | fermata factor =>
    intro d listed
    obtain ⟨draft, member, rfl⟩ := List.mem_map.mp listed
    split
    · exact real draft member
    · next sounding =>
      have was := real draft member
      exact ⟨was.pitched, was.velocity, fun grace => absurd grace sounding⟩
  | staccato =>
    dsimp only [apply]
    cases clipped : clip staged.notes with
    | none => exact real
    | some pair => exact clip_real clipped real
  | sforzando =>
    intro d listed
    obtain ⟨draft, member, rfl⟩ := List.mem_map.mp listed
    have was := real draft member
    exact ⟨was.pitched, (by decide : sforzandoVelocity ≤ 127), was.grace⟩
  | trill =>
    intro d listed
    obtain ⟨draft, member, listed⟩ := List.mem_flatMap.mp listed
    unfold strokes at listed
    split at listed
    · exact List.mem_singleton.mp listed ▸ real draft member
    · obtain ⟨index, -, rfl⟩ := List.mem_map.mp listed
      exact stroke_real (real draft member) index
  | dynamics ramp =>
    intro d listed
    dsimp only [apply] at listed
    rw [← List.map_uncurry_zip_eq_zipWith] at listed
    obtain ⟨pair, shaded, rfl⟩ := List.mem_map.mp listed
    have was := real pair.1 (List.of_mem_zip shaded).1
    exact ⟨was.pitched, velocity_le (ramps ramp rfl) pair.2, was.grace⟩
  | substitute => exact real

theorem applyAll_real (onset : Nat) (ramps : ∀ ramp, .dynamics ramp ∈ stack → ramp.target ≤ 127)
    (real : AllReal staged.notes) : AllReal (applyAll stack onset staged).notes := by
  induction stack generalizing staged with
  | nil => exact real
  | cons modifier stack ih =>
    have first := apply_real onset (fun ramp same => ramps ramp (same ▸ List.mem_cons_self)) real
    exact ih (fun ramp listed => ramps ramp (List.mem_cons_of_mem modifier listed)) first

end Modifier

namespace Timeline
variable {t : Timeline}

theorem extend_real (extra : Nat) {staged : Staged} (real : ∀ d ∈ staged.notes, d.Real) :
    ∀ d ∈ (extend extra staged).notes, d.Real := by
  unfold extend
  split
  · exact real
  · split
    · next last =>
      have was := real _ (List.mem_of_getLast? last)
      refine List.forall_mem_append.mpr ⟨fun d listed => real d (List.dropLast_subset _ listed), ?_⟩
      refine List.forall_mem_singleton.mpr ⟨was.pitched, was.velocity, fun grace => ?_⟩
      exact Nat.le_add_right_of_le (was.grace grace)
    · exact real

theorem real_new {channel : Nat} (real : 1 ≤ channel ∧ channel ≤ 16) :
    Real { channel := channel } where
  channel := real
  quantization := (by decide : 1 ≤ 32 ∧ 32 ≤ 8192)
  velocity := (by decide : 80 ≤ 127)
  tuplet := nofun
  events _ listed := absurd listed (Array.not_mem_empty _)

theorem Real.push (real : t.Real) (event : Event) (known : event.Real) :
    Real { t with events := t.events.push event } where
  channel := real.channel
  quantization := real.quantization
  velocity := real.velocity
  tuplet := real.tuplet
  events other listed := by
    rcases Array.mem_push.mp listed with old | rfl
    · exact real.events other old
    · exact known

/-- What happens otherwise does not matter. -/
theorem Real.of_same (real : t.Real) {t' : Timeline} (channel : t'.channel = t.channel)
    (state : t'.state = t.state) (tuplet : t'.tuplet = t.tuplet) (events : t'.events = t.events) :
    t'.Real where
  channel := channel ▸ real.channel
  quantization := state ▸ real.quantization
  velocity := state ▸ real.velocity
  tuplet := tuplet ▸ real.tuplet
  events := events ▸ real.events

theorem Real.tune (real : t.Real) {state : Performance}
    (quantization : 1 ≤ state.quantization ∧ state.quantization ≤ 8192)
    (velocity : state.velocity ≤ 127) : Real { t with state := state } :=
  ⟨real.channel, quantization, velocity, real.tuplet, real.events⟩

theorem Real.calibrate (real : t.Real) (ticks : Nat) : (t.calibrate ticks).2.Real := by
  unfold Timeline.calibrate
  split
  · exact real
  · next tuplet counts =>
    have steady := real.tuplet tuplet counts
    refine ⟨real.channel, real.quantization, real.velocity, fun other same => ?_, real.events⟩
    cases same
    exact ⟨steady.remainder, Tuplet.pay_owed_lt (Nat.zero_lt_of_lt steady.owed) _⟩

theorem Real.lengthenNote (real : t.Real) (index ticks : Nat) : (t.lengthenNote index ticks).Real := by
  refine ⟨real.channel, real.quantization, real.velocity, real.tuplet, fun event listed => ?_⟩
  obtain ⟨i, inside, rfl⟩ := Array.mem_iff_getElem.mp listed
  dsimp only [Timeline.lengthenNote] at inside ⊢
  rw [Array.size_modify] at inside
  have was := real.events t.events[i] (Array.getElem_mem inside)
  rw [Array.getElem_modify]
  split
  · cases logged : t.events[i] with
    | note n =>
      rw [logged] at was
      exact ⟨was.1, Nat.le_add_right_of_le was.2.1, was.2.2⟩
    | program | controller =>
      rw [logged] at was
      exact was
  · exact was

theorem kind_real : Kind (fun _ d => d.Real ∧ 1 ≤ d.duration) Real where
  list id slot real := by cases slot <;> exact real.of_same rfl rfl rfl rfl
  child real := real_new real.channel
  adopt parent own := ⟨own.channel, parent.quantization, parent.velocity, parent.tuplet, own.events⟩
  calibrate ticks real := real.calibrate ticks
  trail _ _ real := real.of_same rfl rfl rfl rfl
  note {t draft} offset arpeggio known real := by
    have event : Event.Real (.note ⟨offset, draft.pitches, t.rests, t.position, draft.duration,
      draft.velocity, draft.grace, arpeggio⟩) := ⟨known.1.pitched, known.2, known.1.velocity⟩
    exact (real.push _ event).of_same rfl rfl rfl rfl
  lengthen index ticks real := real.lengthenNote index ticks
  shift _ real := real.of_same rfl rfl rfl rfl

theorem beginTuplet_ok {offset size unit : Nat} {t' : Timeline}
    (done : (beginTuplet offset size).run t = .ok unit t') : unit = t.state.quantization ∧
      Tuplet.quantization (2 * unit) size ≠ 0 ∧ t' = { t with
        state := { t.state with quantization := Tuplet.quantization (2 * unit) size }
        tuplet := some (Tuplet.ofSpan (2 * unit) size) } := by
  simp only [beginTuplet, EStateM.run_bind, EStateM.run_get] at done
  split at done
  · cases done
  · split at done
    · cases done
    · next long =>
      cases done
      exact ⟨rfl, long, rfl⟩

theorem Real.beginTuplet (real : t.Real) {offset size unit : Nat} (proper : 2 ≤ size)
    {t' : Timeline} (done : (beginTuplet offset size).run t = .ok unit t') : t'.Real := by
  obtain ⟨rfl, long, rfl⟩ := beginTuplet_ok done
  have bounds := real.quantization
  have short : Tuplet.quantization (2 * t.state.quantization) size ≤ t.state.quantization :=
    Nat.div_le_of_le_mul (Nat.mul_le_mul_right _ proper)
  refine ⟨real.channel, ⟨Nat.pos_of_ne_zero long, Nat.le_trans short bounds.2⟩, real.velocity, ?_,
    real.events⟩
  rintro tuplet ⟨⟩
  have some : 0 < size := Nat.lt_of_lt_of_le (by decide) proper
  exact ⟨Nat.mod_lt _ some, some⟩

theorem Real.addBends (real : t.Real) (bends : List (Nat × Binary64)) :
    (Session.addBends bends t).Real := by
  induction bends generalizing t with
  | nil => exact real
  | cons bend bends ih => exact ih (t := t.addBend bend.1 bend.2) (real.of_same rfl rfl rfl rfl)

end Timeline

namespace Session
open Step (Contract)
variable {t : Timeline}

theorem instrument?_le {text : String} {program : Nat} {bank : Option Nat}
    (read : instrument? text = some (program, bank)) : program ≤ 127 ∧ ∀ b ∈ bank, b ≤ 127 := by
  unfold instrument? at read
  split at read
  · obtain ⟨number, found, same⟩ := Option.map_eq_some_iff.mp read
    cases same
    exact ⟨natural?_le found, nofun⟩
  · simp only [Option.bind_eq_bind, Option.bind_eq_some_iff] at read
    obtain ⟨number, found, b, chosen, same⟩ := read
    cases same
    refine ⟨natural?_le found, fun other same => ?_⟩
    cases same
    exact natural?_le chosen

theorem quantization?_bounds {text : String} {q : Nat} (read : quantization? text = some q) :
    1 ≤ q ∧ q ≤ 8192 := of_decide_eq_true (Option.filter_eq_some_iff.mp read).2

theorem settingChange_real {key value : String} {f : Timeline → Timeline}
    (read : settingChange t key value = .ok f) (real : t.Real) : (f t).Real := by
  have loud {n : Nat} {text : String} (found : dataByte? text = some n) : n ≤ 127 :=
    natural?_le found
  let Good (f : Timeline → Timeline) : Prop := (f t).Real
  simp only [settingChange] at read
  split at read
  · exact change_of_read (p := Good) read fun o _ => real.tune real.quantization real.velocity
  · exact change_of_read (p := Good) read fun p found =>
      real.push (.program ..) (instrument?_le found)
  · split at read
    · cases read
    · exact change_of_read (p := Good) read fun q found =>
        real.tune (quantization?_bounds found) real.velocity
  · exact change_of_read (p := Good) read fun v found =>
      real.push (.controller ..) ⟨(by decide : sustainController ≤ 127), loud found⟩
  · exact change_of_read (p := Good) read fun n _ => real.tune real.quantization real.velocity
  · exact change_of_read (p := Good) read fun v found => real.tune real.quantization (loud found)
  · cases read

theorem Tuning.real {f : Timeline → Timeline} (tuning : Tuning Item.WellFormed t f) (real : t.Real) :
    (f t).Real := by
  cases tuning with
  | octave => exact real.tune real.quantization real.velocity
  | setting read => exact settingChange_real read real
  | velocity within leads =>
    have proper := (Item.throughout_iff.mp within).1
    rcases leads with rfl | rfl <;> exact real.tune real.quantization proper
  | pedal small => exact real.push (.controller ..) ⟨(by decide : sustainController ≤ 127), small⟩
  | bends => exact real.addBends _
  | branches => exact real.of_same rfl rfl rfl rfl

/-- What is known of the values in a session. -/
structure Real (stack : List Modifier) (s : Session) : Prop where
  modifiers : s.modifiers = stack
  ramps : ∀ ramp, .dynamics ramp ∈ stack → ramp.target ≤ 127
  timelines : s.arena.Each Timeline.Real
  graces : ∀ waiting ∈ s.graces, ∀ pitches ∈ waiting.2, Pitched pitches
  groups : ∀ id body, s.definitions.groups.lookup id = some body → ∀ item ∈ body, item.WellFormed
  templates : ∀ name body, s.definitions.templates.lookup name = some body →
    ∀ item ∈ body, item.WellFormed
  meters : ∀ numerator denominator, .timeSignature numerator denominator ∈ s.conductor.events →
    numerator ≤ 255

/-- Before anything is performed there are no values but those that timelines begin with. -/
theorem real_start (gas : Nat) : Real [] { gas := ⟨gas⟩ } :=
  ⟨rfl, nofun, nofun, nofun, nofun, nofun, fun _ _ listed => absurd listed (Array.not_mem_empty _)⟩

theorem stage_real {here : TimelineId} {pitches : List Nat} {plain : Staged} {stack : List Modifier}
    {s t : Session} (real : s.Real stack) (inside : here < s.arena.timelines.size)
    (pitched : Pitched pitches) (done : (stage here pitches).run s = .ok plain t) :
    ∀ d ∈ plain.notes, d.Real := by
  obtain ⟨-, staged⟩ := Custody.stage_ok done
  have velocity := (real.timelines here inside).velocity
  cases waiting : s.graces with
  | none =>
    rw [waiting] at staged
    obtain rfl := staged
    exact List.forall_mem_singleton.mpr ⟨pitched, velocity, nofun⟩
  | some pair =>
    rw [waiting] at staged
    obtain ⟨-, rfl⟩ := staged
    refine List.forall_mem_append.mpr ⟨fun d listed => ?_,
      List.forall_mem_singleton.mpr ⟨pitched, velocity, nofun⟩⟩
    obtain ⟨grace, member, rfl⟩ := List.mem_map.mp listed
    exact ⟨real.graces pair waiting grace member, velocity,
      fun _ => (by decide : 1 ≤ Modifier.graceLength)⟩

/-- Drafts that have been through all ornaments, and have been given what a tuplet owes. -/
theorem staged_real {here : TimelineId} {pitches : List Nat} {plain : Staged}
    {stack : List Modifier} {s t : Session} (real : s.Real stack)
    (inside : here < s.arena.timelines.size) (pitched : Pitched pitches)
    (done : (stage here pitches).run s = .ok plain t) (onset : Nat) :
    ∀ d ∈ (Modifier.applyAll stack onset plain).notes, d.Real :=
  Modifier.applyAll_real onset real.ramps (stage_real real inside pitched done)

theorem Kept.inside {P : List Modifier → Session → Prop} {stack : List Modifier} {m : Bool}
    {live : List TimelineId} {here : TimelineId} {s : Session} (kept : Kept P stack m live s)
    (member : here ∈ live) : here < s.arena.timelines.size :=
  kept.tended.sound.inside (kept.tended.playable here member)

/-- Another arena of timelines in which all values are real. -/
theorem Real.withArena {stack : List Modifier} {s : Session} (real : s.Real stack) {arena : Arena}
    (timelines : arena.Each Timeline.Real) : Real stack { s with arena := arena } :=
  { real with timelines := timelines }

theorem custody_real : Custody (fun _ => True) (fun _ => Item.WellFormed) Real where
  fault _ := trivial
  stray _ := trivial
  inner within listed _ := (Item.throughout_iff.mp within).2 _ listed
  spend _ real := { real with }
  copy real := { real with }
  graces pitched real := { real with graces := pitched }
  restore real later := { later with groups := real.groups, templates := real.templates }
  stack real := real.modifiers
  pop real := { real with
    modifiers := rfl, ramps := fun ramp listed => real.ramps ramp (List.mem_cons_of_mem _ listed) }
  ornament {stack offset kind body modifier s} within pushes real := by
    obtain ⟨proper, each⟩ := Item.throughout_iff.mp within
    refine ⟨each, { real with modifiers := rfl, ramps := fun ramp listed => ?_ }⟩
    rcases List.mem_cons.mp listed with rfl | below
    · cases pushes <;> exact proper
    · exact real.ramps ramp below
  template _ real found _ _ := real.templates _ _ found
  substitute _ _ _ real := { real with
    modifiers := rfl, ramps := fun ramp listed => real.ramps ramp (by simpa using listed) }
  declare {stack offset id body} within := by
    refine .of_results (fun {s a t} real done => ?_) fun _ _ => trivial
    obtain ⟨-, rfl⟩ := declareGroup_ok done
    refine { real with groups := fun other found same => ?_ }
    rcases lookup_cons same with ⟨-, rfl⟩ | old
    · exact (Item.throughout_iff.mp within).2
    · exact real.groups other found old
  group _ real found := real.groups _ _ found
  tuning kept _ tuning := kept.holds.withArena (kept.holds.timelines.adjust tuning.real)
  tuplet {stack m live here offset size body unit s t} kept member within begun := by
    have proper := (Item.throughout_iff.mp within).1
    have before := kept.holds.timelines here (kept.inside member)
    obtain ⟨rfl, -, -⟩ := Timeline.beginTuplet_ok begun
    refine ⟨kept.holds.withArena (kept.holds.timelines.adjust fun _ =>
      before.beginTuplet proper begun), fun later => ?_⟩
    refine later.holds.withArena (later.holds.timelines.adjust fun real => ?_)
    exact ⟨real.channel, before.quantization, real.velocity, nofun, real.events⟩
  branch kept member done := kept.holds.withArena
    (kept.holds.timelines.childAt Timeline.kind_real (kept.inside member) done).2
  rest kept _ _ := kept.holds.withArena (kept.holds.timelines.adjust Timeline.kind_real.rest)
  tie kept member _ done := kept.holds.withArena
    (kept.holds.timelines.tie Timeline.kind_real (kept.inside member) done)
  note {stack m live here pitches plain offset s t} _ kept member _ pitched staged := by
    have known := staged_real kept.holds (kept.inside member) pitched staged
      (s.arena.timeline here).position
    obtain ⟨rfl, -⟩ := Custody.stage_ok staged
    refine { kept.holds with graces := nofun, timelines := ?_ }
    exact kept.holds.timelines.adjust fun real => Timeline.kind_real.commit offset
      (fun d listed long => ⟨Timeline.extend_real _ known d listed, long⟩) real
  arpeggio {stack m live here pitches plain chord interval ticks arena s t} kept member _ _ _
    pitched staged done := by
    have known := staged_real kept.holds (kept.inside member) pitched staged
      (s.arena.timeline here).position
    obtain ⟨rfl, -⟩ := Custody.stage_ok staged
    refine { kept.holds with graces := nofun, timelines := ?_ }
    refine kept.holds.timelines.commitArpeggio Timeline.kind_real (kept.inside member)
      (fun d listed grace => ⟨known d listed, (known d listed).grace grace⟩)
      (fun d listed pitch sounding duration long => ⟨⟨?_, (known d listed).velocity, nofun⟩, long⟩)
      done
    exact ⟨List.cons_ne_nil _ _,
      List.forall_mem_singleton.mpr ((known d listed).pitched.2 pitch sounding)⟩

theorem replay_wellFormed {node again : Node} (known : node.WellFormed)
    (played : node.replay? = some again) : again.WellFormed := by
  rcases Node.replay_cases played with rfl | ⟨offset, id, body, rfl, rfl⟩
  · exact known
  · exact Item.throughout_iff.mpr ⟨trivial, nofun⟩

theorem stewardship_real : Stewardship (fun _ => Item.WellFormed) Real Node.WellFormed where
  custody := custody_real
  item known := known
  replay := replay_wellFormed
  begins low high real := { real with
    timelines := real.timelines.create (Timeline.real_new ⟨low, high⟩) }
  repeats {_} f {_} real := { real with
    timelines := real.timelines.adjust fun known => known.of_same rfl rfl rfl rfl }
  define {offset name body s} known real := by
    refine { real with templates := fun other found same => ?_ }
    rcases lookup_cons same with ⟨-, rfl⟩ | old
    · exact known
    · exact real.templates other found old
  emojis _ real := { real with }
  conduct {offset tick event c s} _ moved directs real := by
    refine { real with meters := fun numerator denominator listed => ?_ }
    have before : .timeSignature numerator denominator ∈ c.events → numerator ≤ 255 := by
      obtain ⟨-, rfl | ⟨-, rfl⟩⟩ := Conductor.moveTo_ok moved
      · exact real.meters numerator denominator
      · exact fun listed => real.meters numerator denominator
          ((Array.mem_push.mp listed).resolve_right nofun)
    cases directs with
    | tempo bpm => exact before ((Array.mem_push.mp listed).resolve_right nofun)
    | timeSignature small =>
      rcases Array.mem_push.mp listed with old | new
      · exact before old
      · cases new
        exact small
  fermata _ _ real := { real with }

end Session

section Tracks

theorem ofEvent_fits {event : Event} (real : event.Real) : (Track.ofEvent event).Fits := by
  cases event with
  | note n => exact ⟨real.1.2, real.2.2⟩
  | program | controller => exact real

/-- Only notes of timelines are notes of tracks. -/
theorem ofTimeline_fits {t : Timeline} (real : t.Real) {track : Track}
    (listed : track ∈ Track.ofTimeline t) : track.Fits ∧
      ∀ pitches wait duration velocity, .note pitches wait duration velocity ∈ track.events →
        pitches ≠ [] ∧ 1 ≤ duration := by
  have channel : ∀ c ∈ some t.channel, 1 ≤ c ∧ c ≤ 16 := fun _ same =>
    Option.some.inj same ▸ real.channel
  rcases List.mem_append.mp listed with bends | log
  · split at bends
    · exact nomatch bends
    · cases List.mem_singleton.mp bends
      have bent {event : TrackEvent} (listed : event ∈ (Track.ofBends t.channel t.bends.toList).events) :
          ∃ wait value, event = .bend wait value := Track.bendEvents_bend listed
      refine ⟨⟨channel, fun event listed => ?_⟩, fun pitches wait duration velocity listed => ?_⟩
      · obtain ⟨wait, value, rfl⟩ := bent listed
        trivial
      · obtain ⟨wait, value, same⟩ := bent listed
        exact nomatch same
  · split at log
    · exact nomatch log
    · cases List.mem_singleton.mp log
      have each : ∀ event ∈ t.events.toList, event.Real := fun event member =>
        real.events event (Array.mem_toList_iff.mp member)
      refine ⟨⟨channel, fun event listed => ?_⟩, fun pitches wait duration velocity listed => ?_⟩
      · obtain ⟨told, member, rfl⟩ := List.mem_map.mp listed
        exact ofEvent_fits (each told member)
      · obtain ⟨told, member, same⟩ := List.mem_map.mp listed
        cases told with
        | note n =>
          cases same
          exact ⟨(each _ member).1.1, (each _ member).2.1⟩
        | program | controller => exact nomatch same

theorem ofConductor_fits {c : Conductor} (meters : ∀ numerator denominator,
      .timeSignature numerator denominator ∈ c.events → numerator ≤ 255) :
    (Track.ofConductor c).Fits := by
  refine ⟨nofun, fun event listed => ?_⟩
  obtain ⟨told, member, rfl⟩ := List.mem_map.mp listed
  cases told with
  | filler | tempo => trivial
  | timeSignature numerator denominator =>
    exact meters numerator denominator (Array.mem_toList_iff.mp member)

end Tracks

namespace Midi

theorem mem_delays {previous : Nat} {sent : List Timed} {delayed : Nat × Message}
    (listed : delayed ∈ delays previous sent) :
    ∃ t ∈ sent, t.message = delayed.2 ∧ delayed.1 ≤ t.tick := by
  induction sent generalizing previous with
  | nil => exact nomatch listed
  | cons t rest ih =>
    rcases List.mem_cons.mp listed with rfl | later
    · exact ⟨t, List.mem_cons_self, rfl, Nat.sub_le ..⟩
    · obtain ⟨other, member, same⟩ := ih later
      exact ⟨other, List.mem_cons_of_mem t member, same⟩

/-- No message of a track that fits loses anything, apart from bends. -/
theorem messages_fit {track : Track} (fits : track.Fits) {delayed : Nat × Message}
    (listed : delayed ∈ messages track) : delayed.2.carried.Fits := by
  have listed := List.mem_map_of_mem (f := Prod.map id Message.carried) listed
  rw [messages_carried] at listed
  rcases List.mem_append.mp listed with told | last
  · obtain ⟨t, member, same, -⟩ := mem_delays told
    have sent := (arranged_mergeSort (log track)).perm.mem_iff.mp member
    have same : t.message = delayed.2.carried := same
    rw [← same]
    exact (log_fits fits sent).1
  · have same : delayed.2.carried = .endOfTrack :=
      congrArg Prod.snd (List.mem_singleton.mp last)
    rw [same]
    trivial

end Midi

namespace Compiler
variable {settings : Settings} {source : String} {s : Session} {stripped : Text.Stripped}

/-- Whatever source is performed, all values in its timelines are real, and every track fits. So
notes have pitches and a length, and no message loses anything in its bytes: `Message.carried` only
cuts bends, which come from numbers of the machine. -/
theorem values_fit (performed : session settings source = .ok (s, stripped)) :
    (∀ t ∈ s.arena.timelines, t.Real) ∧ ∀ track ∈ Track.ofSession s, track.Fits ∧
      (∀ pitches wait duration velocity, .note pitches wait duration velocity ∈ track.events →
        pitches ≠ [] ∧ 1 ≤ duration) ∧
      ∀ delayed ∈ Midi.messages track, delayed.2.carried.Fits := by
  obtain ⟨score, parsed, plays⟩ := session_parsed performed
  have begins : Session.Real [] { gas := ⟨settings.gas⟩ } :=
    Session.real_start settings.gas
  obtain ⟨real, active, tended⟩ :=
    Session.stewardship_real.plays begins (Score.read_wellFormed (parse_read parsed)) plays
  refine ⟨fun t listed => ?_, fun track listed => ?_⟩
  · obtain ⟨id, inside, rfl⟩ := Array.mem_iff_getElem.mp listed
    have known := real.timelines id inside
    rwa [Arena.timeline, Array.getElem?_eq_getElem inside] at known
  · rcases tended.sound.mem_assemble listed with rfl | ⟨id, inside, collected⟩
    · have fits := ofConductor_fits real.meters
      refine ⟨fits, fun pitches wait duration velocity listed => ?_, fun _ => Midi.messages_fit fits⟩
      obtain ⟨told, -, same⟩ := List.mem_map.mp listed
      cases told <;> cases same
    · obtain ⟨fits, notes⟩ := ofTimeline_fits (real.timelines id inside) collected
      exact ⟨fits, notes, fun _ => Midi.messages_fit fits⟩

/-- A grace, a trill that leaves a rest, what a triplet owes, an arpeggio and a program. -/
theorem values_fit_of_trilled_triplet : ∃ s stripped,
    session {} "(3[>d]c<te>g)[|ce](p=5)" = .ok (s, stripped) ∧
      (s.arena.timelines.toList.flatMap Timeline.notes).length = 6 ∧
      (∀ t ∈ s.arena.timelines, t.Real) ∧ ∀ track ∈ Track.ofSession s, track.Fits := by
  have performed : (session {} "(3[>d]c<te>g)[|ce](p=5)").toOption.map (fun pair =>
      (pair.1.arena.timelines.toList.flatMap Timeline.notes).length) = some 6 := by decide +kernel
  cases done : session {} "(3[>d]c<te>g)[|ce](p=5)" with
  | ok pair =>
    rw [done] at performed
    have fit := values_fit done
    exact ⟨pair.1, pair.2, rfl, Option.some.inj performed, fit.1,
      fun track listed => (fit.2 track listed).1⟩
  | error fault =>
    rw [done] at performed
    exact nomatch performed

end Compiler
end TextScore
