import TextScore.Proofs.Entries
import TextScore.Proofs.Ranges
import TextScore.Proofs.Rehearsal
import TextScore.Proofs.Shading

/-! A crescendo or decrescendo reaches its ends. Its ramp goes from the first onset that a measurement
of the body hears to the last one, and under ornaments that move no onset these are onsets of notes:
so the first notes have the velocity that the timeline had before, and the last ones the target. -/
namespace TextScore

/-- When and how loud a note sounds. -/
def Event.strike? (event : Event) : Option (Nat × Nat) :=
  event.note?.map fun n => (n.start, n.velocity)

namespace Timeline

/-- When and how loud each note of a timeline sounds. -/
def strikes (t : Timeline) : List (Nat × Nat) := t.events.toList.filterMap Event.strike?

theorem strikes_notes (t : Timeline) : t.strikes = t.notes.map fun n => (n.start, n.velocity) :=
  (List.map_filterMap ..).symm

variable {t : Timeline}

/-- How long notes are held does not matter. -/
theorem strikes_of_entries {t' : Timeline} (same : t'.entries = t.entries) :
    t'.strikes = t.strikes := by
  have told (u : Timeline) : u.strikes = u.entries.map fun n => (n.start, n.velocity) := by
    rw [strikes_notes, entries, List.map_map]
    rfl
  rw [told, told, same]

theorem strikes_of_notes {t' : Timeline} (same : t'.notes = t.notes) : t'.strikes = t.strikes :=
  strikes_of_entries (entries_of_notes same)

theorem strikes_pushNotes (offset : Nat) (drafts : List Draft) :
    (t.pushNotes offset drafts).strikes = t.strikes ++ Draft.strikes t.position drafts := by
  induction drafts generalizing t with
  | nil => exact (List.append_nil _).symm
  | cons draft drafts ih =>
    have first : (t.pushNote offset false draft).strikes =
        t.strikes ++ [(t.position, draft.velocity)] := by
      rw [strikes_notes, strikes_notes]
      exact (congrArg (List.map _) (notes_push _)).trans List.map_append
    exact ih.trans (by rw [first, List.append_assoc]; rfl)

theorem strikes_dropLast (start : Nat) (notes : List Draft) (draft : Draft) (duration : Nat)
    (last : notes.getLast? = some draft) :
    Draft.strikes start (notes.dropLast ++ [{ draft with duration := duration }]) =
      Draft.strikes start notes := by
  induction notes generalizing start with
  | nil => exact nomatch last
  | cons first rest ih => cases rest with
    | nil =>
      cases last
      rfl
    | cons second rest =>
      rw [List.getLast?_cons_cons] at last
      exact congrArg ((start, first.velocity) :: ·) (ih _ last)

/-- What a tuplet owes is put at the end. -/
theorem extend_long (extra : Nat) {staged : Staged} (long : ∀ d ∈ staged.notes, 0 < d.duration)
    (start : Nat) : (∀ d ∈ (extend extra staged).notes, 0 < d.duration) ∧
      Draft.strikes start (extend extra staged).notes = Draft.strikes start staged.notes := by
  unfold extend
  split
  · exact ⟨long, rfl⟩
  · split
    · next draft _ last =>
      have positive := long draft (List.mem_of_getLast? last)
      refine ⟨List.forall_mem_append.mpr ⟨fun d listed => long d (List.dropLast_subset _ listed),
        List.forall_mem_singleton.mpr (Nat.add_pos_left positive _)⟩, ?_⟩
      exact strikes_dropLast _ _ _ _ last
    · exact ⟨long, rfl⟩

/-- Drafts that have lengths sound at their onsets, with their velocities. -/
theorem strikes_commit (offset : Nat) {staged : Staged} (long : ∀ d ∈ staged.notes, 0 < d.duration) :
    (t.commit offset staged).2.strikes = t.strikes ++ Draft.strikes t.position staged.notes := by
  obtain ⟨long, same⟩ := extend_long (t.calibrate staged.ticks).1 long t.position
  have all : (extend (t.calibrate staged.ticks).1 staged).notes.filter (0 < ·.duration) =
      (extend (t.calibrate staged.ticks).1 staged).notes :=
    List.filter_eq_self.mpr fun d listed => decide_eq_true (long d listed)
  have pushed : (t.commit offset staged).2.strikes = ((t.calibrate staged.ticks).2.pushNotes offset
      ((extend (t.calibrate staged.ticks).1 staged).notes.filter (0 < ·.duration))).strikes := rfl
  rw [pushed, all, strikes_pushNotes, strikes_of_notes (calibrate_still _ t).notes,
    (calibrate_still _ t).position, same]

end Timeline

namespace Arena
variable {arena arena' : Arena} {here id : TimelineId}

/-- Nothing sounds in the second arena that does not in the first one. -/
def Mute (arena arena' : Arena) : Prop :=
  ∀ id, (arena'.timeline id).strikes = (arena.timeline id).strikes

theorem mute_adjust (id : TimelineId) {f : Timeline → Timeline}
    (mute : (f (arena.timeline id)).strikes = (arena.timeline id).strikes) :
    arena.Mute (arena.adjust id f) := by
  intro other
  rw [timeline_adjust_or]
  split
  · next same => exact same.1 ▸ mute
  · rfl

theorem mute_childAt (inside : here < arena.timelines.size) {offset : Nat} {slot : Slot}
    (done : (childAt here offset slot).run arena = .ok id arena') : arena.Mute arena' :=
  fun id => Timeline.strikes_of_notes (silent_childAt inside done id)

theorem mute_tie (inside : here < arena.timelines.size) {offset ticks : Nat}
    (done : (tie here offset).run arena = .ok ticks arena') : arena.Mute arena' :=
  fun id => Timeline.strikes_of_entries (sustains_tie inside done id)

/-- This has sounded on some timeline since it had only so many notes. -/
def Struck (before : TimelineId → Nat) (strike : Nat × Nat) (arena : Arena) : Prop :=
  ∃ id, strike ∈ (arena.timeline id).strikes.drop (before id)

variable {before : TimelineId → Nat}

theorem Mute.struck (mute : arena.Mute arena') (strike : Nat × Nat) :
    arena'.Struck before strike ↔ arena.Struck before strike := by
  simp only [Struck, mute _]

theorem struck_adjust (inside : here < arena.timelines.size) {f : Timeline → Timeline}
    {more : List (Nat × Nat)}
    (sounds : (f (arena.timeline here)).strikes = (arena.timeline here).strikes ++ more)
    (known : before here ≤ (arena.timeline here).strikes.length) (strike : Nat × Nat) :
    (arena.adjust here f).Struck before strike ↔ arena.Struck before strike ∨ strike ∈ more := by
  have each (id : TimelineId) : strike ∈ ((arena.adjust here f).timeline id).strikes.drop (before id) ↔
      strike ∈ (arena.timeline id).strikes.drop (before id) ∨ id = here ∧ strike ∈ more := by
    rw [timeline_adjust inside]
    split
    · next same =>
      subst same
      rw [sounds, List.drop_append_of_le_length known, List.mem_append]
      simp only [true_and]
    · next other => simp only [other, false_and, or_false]
  simp only [Struck, each, exists_or, exists_eq_left]

end Arena

/-- A note that has been logged since. -/
def Arena.Added (before after : Arena) (note : Note) : Prop :=
  ∃ id, note ∈ (after.timeline id).notes.drop (before.timeline id).notes.length

/-- How many notes each timeline has. -/
abbrev Arena.logged (arena : Arena) (id : TimelineId) : Nat := (arena.timeline id).strikes.length

theorem Arena.added_struck {before after : Arena} {strike : Nat × Nat} :
    after.Struck before.logged strike ↔ ∃ note, before.Added after note ∧
      (note.start, note.velocity) = strike := by
  simp only [Struck, Added, logged, Timeline.strikes_notes, List.length_map, ← List.map_drop,
    List.mem_map]
  constructor
  · rintro ⟨id, note, member, same⟩
    exact ⟨note, ⟨id, member⟩, same⟩
  · rintro ⟨note, ⟨id, member⟩, same⟩
    exact ⟨id, note, member, same⟩

/-- What performing a body may perform: its items, what is inside them, groups that had been declared
before and templates. -/
inductive Definitions.Reached (d : Definitions) (body : List Item) : Item → Prop
  | own {item : Item} (listed : item ∈ body) : Reached d body item
  | inner {outer item : Item} (reached : Reached d body outer) (listed : item ∈ outer.inner) :
    Reached d body item
  | group {offset id : Nat} {items : List Item} {item : Item}
    (reached : Reached d body (.groupRef offset id)) (declared : d.groups.lookup id = some items)
    (listed : item ∈ items) : Reached d body item
  | template {offset : Nat} {name : String} {keys items : List Item} {item : Item}
    (reached : Reached d body (.range offset (.userRange name) keys))
    (defined : d.templates.lookup name = some items) (listed : item ∈ items) : Reached d body item

/-- Neither a chord that is played as an arpeggio nor, where there are none, a trill. -/
def Item.Smooth (trilled : Prop) : Item → Prop
  | .chord c => ¬ c.arpeggio
  | .ornament _ .trill _ => trilled
  | _ => True

namespace Session

/-- The earliest and the latest tick of some, if there are any. -/
def Bounds (heard : Nat → Prop) : Option (Nat × Nat) → Prop
  | none => ∀ tick, ¬ heard tick
  | some (first, last) => heard first ∧ heard last ∧ ∀ tick, heard tick → first ≤ tick ∧ tick ≤ last

theorem Bounds.congr {heard heard' : Nat → Prop} {bounds : Option (Nat × Nat)}
    (known : Bounds heard bounds) (same : ∀ tick, heard' tick ↔ heard tick) : Bounds heard' bounds :=
  (funext fun tick => propext (same tick) : heard' = heard) ▸ known

theorem Bounds.widen {heard : Nat → Prop} {bounds : Option (Nat × Nat)} (known : Bounds heard bounds)
    (tick : Nat) : Bounds (fun other => heard other ∨ other = tick) (widen bounds tick) := by
  rcases bounds with - | ⟨first, last⟩
  · refine ⟨.inr rfl, .inr rfl, fun other listed => ?_⟩
    rcases listed with old | rfl
    · exact absurd old (known other)
    · exact ⟨Nat.le_refl _, Nat.le_refl _⟩
  · obtain ⟨low, high, within⟩ := known
    refine ⟨?_, ?_, fun other listed => ?_⟩
    · rcases Nat.le_total first tick with below | above
      · exact .inl ((Nat.min_eq_left below).symm ▸ low)
      · exact .inr (Nat.min_eq_right above)
    · rcases Nat.le_total last tick with below | above
      · exact .inr (Nat.max_eq_right below)
      · exact .inl ((Nat.max_eq_left above).symm ▸ high)
    · rcases listed with old | rfl
      · have inside := within other old
        omega
      · omega

theorem Bounds.widen_all {heard : Nat → Prop} {bounds : Option (Nat × Nat)}
    (known : Bounds heard bounds) (ticks : List Nat) :
    Bounds (fun tick => heard tick ∨ tick ∈ ticks) (ticks.foldl Session.widen bounds) := by
  induction ticks generalizing heard bounds with
  | nil => exact known.congr fun tick => by simp only [List.not_mem_nil, or_false]
  | cons tick ticks ih =>
    exact (ih (known.widen tick)).congr fun other => by simp only [List.mem_cons, or_assoc]

/-- A span under way. -/
structure Span where
  ramp : Ramp
  /-- The ornaments around it. -/
  outer : List Modifier
  /-- What fermatas multiply durations by. -/
  factor : Binary64
  /-- There may be trills in it. -/
  trilled : Prop
  definitions : Definitions
  body : List Item
  /-- How many notes each timeline had before. -/
  before : TimelineId → Nat

/-- The span is on the stack. -/
def Span.Open (span : Span) (stack : List Modifier) : Prop :=
  .dynamics span.ramp :: span.outer <:+ stack

/-- Items that may be in a span. -/
def Span.Fits (span : Span) (stack : List Modifier) (item : Item) : Prop :=
  span.Open stack ∧ item.WellFormed ∧ span.definitions.Reached span.body item

/-- All that sounds while a span is played has the velocities of its ramp, and all of it is heard. -/
structure Swells (span : Span) (stack : List Modifier) (s : Session) : Prop where
  real : s.Real stack
  even : ∀ m ∈ stack, m.Even span.trilled
  factor : s.fermata = span.factor
  groups : ∀ id items, s.definitions.groups.lookup id = some items →
    span.definitions.groups.lookup id = some items ∨
      ∀ item ∈ items, span.definitions.Reached span.body item
  templates : s.definitions.templates = span.definitions.templates
  known : ∀ id, span.before id ≤ (s.arena.timeline id).strikes.length
  shaded : span.Open stack → s.measuring = false →
    ∀ strike, s.arena.Struck span.before strike → strike.2 = span.ramp.velocity strike.1
  heard : span.Open stack → s.measuring = false →
    Bounds (fun tick => ∃ velocity, s.arena.Struck span.before (tick, velocity)) s.onsets

section Spans
variable {span : Span} {stack : List Modifier} {s t : Session} {here : TimelineId}

theorem Span.Open.cons (opens : span.Open stack) (modifier : Modifier) :
    span.Open (modifier :: stack) := opens.trans (List.suffix_cons ..)

/-- Nothing but its own dynamics opens a span. -/
theorem Span.Open.of_cons {modifier : Modifier} (opens : span.Open (modifier :: stack))
    (other : modifier = .dynamics span.ramp → stack ≠ span.outer) : span.Open stack := by
  rcases List.suffix_cons_iff.mp opens with same | deeper
  · obtain ⟨rfl, rfl⟩ := List.cons.inj same
    exact absurd rfl (other rfl)
  · exact deeper

/-- Where nothing sounds, the span goes on. -/
theorem Swells.mute (swells : s.Swells span stack) {arena : Arena} (real : arena.Each Timeline.Real)
    (mute : s.arena.Mute arena) : Swells span stack { s with arena := arena } :=
  { swells with
    real := swells.real.withArena real
    known := fun id => (congrArg List.length (mute id)).symm ▸ swells.known id
    shaded := fun opens plain strike struck =>
      swells.shaded opens plain strike ((mute.struck strike).mp struck)
    heard := fun opens plain => (swells.heard opens plain).congr fun _ =>
      exists_congr fun _ => mute.struck _ }

/-- What is staged is regular before any ornaments. -/
theorem regular_stage {pitches : List Nat} {plain : Staged} (trilled : Prop)
    (long : 0 < (s.arena.timeline here).state.quantization)
    (done : (stage here pitches).run s = .ok plain t) : Draft.Regular trilled plain.notes := by
  obtain ⟨-, staged⟩ := Custody.stage_ok done
  cases waiting : s.graces with
  | none =>
    rw [waiting] at staged
    obtain rfl := staged
    exact ⟨List.forall_mem_singleton.mpr long, List.pairwise_singleton .., fun _ =>
      List.pairwise_singleton ..⟩
  | some pair =>
    rw [waiting] at staged
    obtain ⟨room, rfl⟩ := staged
    let grace (pitches : List Nat) : Draft :=
      ⟨pitches, Modifier.graceLength, (s.arena.timeline here).state.velocity, true⟩
    have graces {d : Draft} (listed : d ∈ pair.2.map grace) : d.grace ∧ 0 < d.duration := by
      obtain ⟨pitches, -, rfl⟩ := List.mem_map.mp listed
      exact ⟨rfl, (by decide : 0 < Modifier.graceLength)⟩
    have ordered {R : Draft → Draft → Prop} (first : ∀ {d later : Draft}, d.grace → R d later)
        (main : Draft) : (pair.2.map grace ++ [main]).Pairwise R :=
      List.pairwise_append.mpr ⟨List.pairwise_iff_forall_sublist.mpr fun {d _} within =>
        first (graces (within.subset List.mem_cons_self)).1, List.pairwise_singleton ..,
        fun d listed _ _ => first (graces listed).1⟩
    refine ⟨List.forall_mem_append.mpr ⟨fun d listed => (graces listed).2,
      List.forall_mem_singleton.mpr (Nat.sub_pos_of_lt room)⟩, ?_, fun _ => ?_⟩
    · exact ordered (R := fun d later => later.grace → d.grace) (fun first _ => first) _
    · exact ordered (R := fun d _ => d.grace) id _

theorem shaded_of_open {plain : Staged} (regular : Draft.Regular span.trilled plain.notes)
    (even : ∀ m ∈ stack, m.Even span.trilled) (steady : ∀ m ∈ span.outer, m.Steady span.trilled)
    (opens : span.Open stack) (onset : Nat) :
    ∀ strike ∈ Draft.strikes onset (Modifier.applyAll stack onset plain).notes,
      strike.2 = span.ramp.velocity strike.1 := by
  obtain ⟨inner, rfl⟩ := opens
  exact Modifier.shaded_applyAll regular (fun m listed => even m (List.mem_append_left _ listed))
    steady onset

/-- What an ornament of the span puts onto the stack moves no strike. -/
theorem Swells.even_pushes (swells : s.Swells span stack) (sustains : span.factor.Sustains)
    {offset : Nat} {kind : Ornament} {body : List Item} {modifier : Modifier}
    (smooth : Item.Smooth span.trilled (.ornament offset kind body))
    (pushes : Pushes s kind modifier) : modifier.Even span.trilled := by
  cases pushes with
  | trill => exact ⟨fun _ => smooth, nofun⟩
  | fermata =>
    refine ⟨nofun, fun factor same => ?_⟩
    rw [← Modifier.fermata.inj same, swells.factor]
    exact sustains
  | staccato | sforzando | crescendo | decrescendo => exact ⟨nofun, nofun⟩

/-- What is played where the span is open has the velocities of its ramp, and adds just its own
onsets to what is heard. -/
theorem Swells.note {m : Bool} {live : List TimelineId} {pitches : List Nat} {plain : Staged}
    {offset : Nat} (steady : ∀ m ∈ span.outer, m.Steady span.trilled)
    (origin : Origin (span.Fits stack) offset) (kept : Kept (Swells span) stack m live s)
    (member : here ∈ live) (early : (s.arena.timeline here).position ≤ longest)
    (pitched : Pitched pitches) (staged : (stage here pitches).run s = .ok plain t) :
    Swells span stack { t with
      arena := t.arena.adjust here fun u => (u.commit offset
        (Modifier.applyAll stack (s.arena.timeline here).position plain)).2
      onsets := Session.heard stack (s.arena.timeline here).position plain t.onsets } := by
  have real := custody_real.note (origin.mono fun fits => fits.2.1) ⟨kept.tended, kept.holds.real⟩
    member early pitched staged
  have inside := kept.inside member
  have unit := (kept.holds.real.timelines here inside).quantization.1
  have regular := regular_stage span.trilled unit staged
  have even := kept.holds.even
  have opened (opens : span.Open stack) := shaded_of_open regular even steady opens
    (s.arena.timeline here).position
  have sounds := Timeline.strikes_commit (t := s.arena.timeline here) offset
    (Modifier.regular_applyAll regular even (s.arena.timeline here).position).long
  obtain ⟨rfl, -⟩ := Custody.stage_ok staged
  have struck := Arena.struck_adjust inside (f := fun u => (u.commit offset
    (Modifier.applyAll stack (s.arena.timeline here).position plain)).2) sounds (kept.holds.known here)
  refine { kept.holds with real := real, known := fun id => ?_, shaded := ?_, heard := ?_ }
  · dsimp only
    rw [Arena.timeline_adjust inside]
    split
    · next same =>
      rw [same, sounds, List.length_append]
      exact Nat.le_add_right_of_le (kept.holds.known here)
    · exact kept.holds.known id
  · intro opens plain strike sounded
    rcases (struck strike).mp sounded with old | new
    · exact kept.holds.shaded opens plain strike old
    · exact opened opens strike new
  · intro opens plain
    refine ((kept.holds.heard opens plain).widen_all _).congr fun tick => ?_
    simp only [struck, exists_or, ← Draft.strikes_onsets, List.mem_map, Prod.exists,
      exists_and_right, exists_eq_right]

end Spans

theorem custody_swells (span : Span) (steady : ∀ m ∈ span.outer, m.Steady span.trilled)
    (sustains : span.factor.Sustains)
    (smooth : ∀ item, span.definitions.Reached span.body item → item.Smooth span.trilled) :
    Custody (fun _ => True) span.Fits (Swells span) where
  fault _ := trivial
  stray _ := trivial
  inner := by
    rintro stack item inner ⟨opens, proper, reached⟩ listed -
    exact ⟨opens, (Item.throughout_iff.mp proper).2 _ listed, reached.inner listed⟩
  spend gas swells := { swells with real := custody_real.spend gas swells.real }
  copy swells := { swells with
    real := custody_real.copy swells.real
    shaded := nofun
    heard := nofun }
  graces pitched swells := { swells with real := custody_real.graces pitched swells.real }
  restore swells later := { later with
    real := custody_real.restore swells.real later.real
    factor := swells.factor
    groups := swells.groups
    templates := swells.templates }
  stack swells := swells.real.modifiers
  pop {stack modifier s} swells := { swells with
    real := custody_real.pop swells.real
    even := fun m listed => swells.even m (List.mem_cons_of_mem modifier listed)
    shaded := fun opens => swells.shaded (opens.cons modifier)
    heard := fun opens => swells.heard (opens.cons modifier) }
  ornament {stack offset kind body modifier s} fits pushes swells := by
    obtain ⟨opens, proper, reached⟩ := fits
    obtain ⟨each, real⟩ := custody_real.ornament proper pushes swells.real
    have even := swells.even_pushes sustains (smooth _ reached) pushes
    exact ⟨fun item listed => ⟨opens.cons modifier, each item listed, reached.inner listed⟩,
      { swells with
        real := real
        even := List.forall_mem_cons.mpr ⟨even, swells.even⟩
        shaded := fun _ => swells.shaded opens
        heard := fun _ => swells.heard opens }⟩
  template fits swells found base octave item listed :=
    ⟨fits.1.cons _, custody_real.template fits.2.1 swells.real found base octave item listed,
      fits.2.2.template (swells.templates ▸ found) listed⟩
  substitute octave _ high swells := { swells with
    real := custody_real.substitute octave high swells.real
    even := List.forall_mem_cons.mpr ⟨⟨nofun, nofun⟩, swells.even⟩
    shaded := fun opens => swells.shaded (opens.of_cons nofun)
    heard := fun opens => swells.heard (opens.of_cons nofun) }
  declare {stack offset id body} fits := by
    refine .of_results (fun {s a t} swells done => ?_) fun _ _ => trivial
    have real := (custody_real.declare fits.2.1).ok swells.real done
    obtain ⟨-, rfl⟩ := declareGroup_ok done
    refine { swells with real := real, groups := fun other found same => ?_ }
    rcases lookup_cons same with ⟨-, rfl⟩ | old
    · exact .inr fun item listed => fits.2.2.inner listed
    · exact swells.groups other found old
  group fits swells found item listed :=
    ⟨fits.1, custody_real.group fits.2.1 swells.real found item listed,
      (swells.groups _ _ found).elim (fits.2.2.group · listed) fun each => each item listed⟩
  tuning kept member tuning := kept.holds.mute
    (kept.holds.real.timelines.adjust (tuning.mono fun fits => fits.2.1).real)
    (Arena.mute_adjust _ (Timeline.strikes_of_notes tuning.change.notes))
  tuplet {stack m live here offset size body unit s t} kept member fits begun := by
    obtain ⟨real, back⟩ := custody_real.tuplet ⟨kept.tended, kept.holds.real⟩ member fits.2.1 begun
    exact ⟨kept.holds.mute real.timelines
        (Arena.mute_adjust here (Timeline.strikes_of_notes (Timeline.beginTuplet_still begun).notes)),
      fun later => later.holds.mute (back ⟨later.tended, later.holds.real⟩).timelines
        (Arena.mute_adjust here rfl)⟩
  branch kept member done := kept.holds.mute
    (custody_real.branch ⟨kept.tended, kept.holds.real⟩ member done).timelines
    (Arena.mute_childAt (kept.inside member) done)
  rest kept member early := kept.holds.mute
    (custody_real.rest ⟨kept.tended, kept.holds.real⟩ member early).timelines
    (Arena.mute_adjust _ (Timeline.strikes_of_notes Timeline.notes_rest))
  tie kept member early done := kept.holds.mute
    (custody_real.tie ⟨kept.tended, kept.holds.real⟩ member early done).timelines
    (Arena.mute_tie (kept.inside member) done)
  note origin kept member early pitched staged :=
    Swells.note steady origin kept member early pitched staged
  arpeggio _ _ fits loud := absurd loud (smooth _ fits.2.2)

/-- What is around a span moves no onset, and nothing in it is played as an arpeggio. There may be
trills in it if there are no fermatas around it. -/
structure Undisturbed (trilled : Prop) (body : List Item) (s : Session) : Prop where
  outer : ∀ m ∈ s.modifiers, m.Steady trilled
  factor : s.fermata.Sustains
  smooth : ∀ item, s.definitions.Reached body item → item.Smooth trilled

section Dynamics
variable {s t : Session} {live : List TimelineId} {here : TimelineId} {trilled : Prop}
  {body : List Item} {depth references offset target ticks : Nat} {direction : Direction}

/-- A span is measured, and then played under the ramp between the bounds that it has. -/
theorem dynamics_ok (real : s.measuring = false)
    (done : (performDynamics (perform depth) here references offset direction target body).run s =
      .ok ticks t) :
    ∃ first last u, (measure (perform depth) here references offset body).run s =
        .ok (first, last) s ∧
      (let ramp : Ramp := ⟨(s.arena.timeline here).state.velocity, target, first, last⟩
      (performAll (perform depth) here references body).run
        { s with modifiers := .dynamics ramp :: s.modifiers } = .ok ticks u) ∧
      u.arena.Mute t.arena := by
  obtain ⟨_, _, read, done⟩ := Step.bind_ok done
  cases read
  obtain ⟨-, done⟩ := Step.unless_ok done
  obtain ⟨_, _, read, done⟩ := Step.bind_ok done
  cases read
  simp only [real, Bool.false_eq_true, reduceIte] at done
  obtain ⟨⟨first, last⟩, _, found, done⟩ := Step.bind_ok done
  obtain rfl := measure_ok found
  obtain ⟨ticks', v, played, done⟩ := Step.bind_ok done
  obtain ⟨_, _, pushed, played⟩ := Step.bind_ok played
  cases pushed
  obtain ⟨_, u, performed, popped⟩ := Step.bind_ok played
  cases popped
  cases done
  exact ⟨first, last, u, found, performed, Arena.mute_adjust here rfl⟩

/-- Where one of two performances has not heard what came before, both strike the same. -/
theorem Accord.mute {stack : List Modifier} {u v : Session}
    (accord : Accord Eq here here (unheard stack) u v) : u.arena.Mute v.arena := by
  intro there
  have plain (t : Timeline) : (t.tint id).strikes = t.strikes := by
    have told : Event.strike? ∘ Event.tint id = Event.strike? := funext fun event => by
      cases event <;> rfl
    rw [Timeline.strikes, Timeline.tint, Array.toList_map, List.filterMap_map, told, Timeline.strikes]
  rw [← plain, accord.related.shown, plain]

/-- Where the span is played with no onset before it, those that it has are the bounds that were
measured. -/
theorem measured_heard (real : s.measuring = false) (ramp : Ramp) {first last : Nat} {v : Session}
    (found : (measure (perform depth) here references offset body).run s = .ok (first, last) s)
    (afresh : (performAll (perform depth) here references body).run
      { s with modifiers := .dynamics ramp :: s.modifiers, onsets := none } = .ok ticks v) :
    v.onsets = some (first, last) := by
  obtain ⟨w, measured, accord⟩ := rehearsed (s := { s with onsets := none }) ramp here references
    depth body real afresh
  rw [measure_run] at found
  have measured : (performAll (perform depth) here references body).run s.measured =
    .ok ticks w := measured
  rw [measured] at found
  dsimp only at found
  rw [← accord.onsets trivial] at found
  split at found
  · next heard =>
    cases found
    exact heard
  · exact nomatch found

/-- When a span that nothing disturbs is begun, nothing of it has sounded. -/
theorem Undisturbed.swells (undisturbed : Undisturbed trilled body s) (real : s.Real s.modifiers)
    {ramp : Ramp} (small : ramp.target ≤ 127) :
    Swells ⟨ramp, s.modifiers, s.fermata, trilled, s.definitions, body, s.arena.logged⟩
      (.dynamics ramp :: s.modifiers)
      { s with modifiers := .dynamics ramp :: s.modifiers, onsets := none } := by
  have silent (strike : Nat × Nat) : ¬ s.arena.Struck s.arena.logged strike := by
    rintro ⟨id, listed⟩
    rw [List.drop_length] at listed
    exact nomatch listed
  have ramps : ∀ other, .dynamics other ∈ .dynamics ramp :: s.modifiers → other.target ≤ 127 := by
    intro other listed
    rcases List.mem_cons.mp listed with same | below
    · cases same
      exact small
    · exact real.ramps other below
  exact {
    real := { real with modifiers := rfl, ramps := ramps }
    even := List.forall_mem_cons.mpr
      ⟨⟨nofun, nofun⟩, fun m listed => (undisturbed.outer m listed).even⟩
    factor := rfl
    groups := fun _ _ => .inl
    templates := rfl
    known := fun _ => Nat.le_refl _
    shaded := fun _ _ strike struck => absurd struck (silent strike)
    heard := fun _ _ _ struck => struck.elim fun _ => silent _ }

/-- A span that nothing disturbs is shaded by a ramp from the first onset in it to the last one. -/
theorem dynamics_shade (kept : Kept Real s.modifiers false live s) (member : here ∈ live)
    (proper : ∀ item ∈ body, item.WellFormed) (undisturbed : Undisturbed trilled body s)
    (small : target ≤ 127)
    (done : (performDynamics (perform depth) here references offset direction target body).run s =
      .ok ticks t) :
    ∃ first last, Bounds (fun tick => ∃ velocity, t.arena.Struck s.arena.logged (tick, velocity))
        (some (first, last)) ∧
      ∀ strike, t.arena.Struck s.arena.logged strike → strike.2 =
        Ramp.velocity ⟨(s.arena.timeline here).state.velocity, target, first, last⟩ strike.1 := by
  obtain ⟨first, last, u, found, performed, mute⟩ := dynamics_ok kept.tended.measuring done
  let span : Span := ⟨⟨(s.arena.timeline here).state.velocity, target, first, last⟩, s.modifiers,
    s.fermata, trilled, s.definitions, body, s.arena.logged⟩
  obtain ⟨v, afresh, alike⟩ := performed_afresh performed
  have heard := measured_heard kept.tended.measuring span.ramp found afresh
  have start : Kept (Swells span) (.dynamics span.ramp :: s.modifiers) false live
      { s with modifiers := .dynamics span.ramp :: s.modifiers, onsets := none } :=
    ⟨{ kept.tended with }, undisturbed.swells kept.holds small⟩
  have custody := custody_swells span undisturbed.outer undisturbed.factor undisturbed.smooth
  have swells := ((custody.perform depth).all member references fun item listed =>
    ⟨List.suffix_rfl, proper item listed, .own listed⟩).ok start afresh
  have mute : ∀ strike, t.arena.Struck s.arena.logged strike ↔ v.arena.Struck s.arena.logged strike :=
    fun strike => (mute.struck strike).trans (alike.mute.struck strike).symm
  have bounds := swells.holds.heard List.suffix_rfl swells.tended.measuring
  rw [heard] at bounds
  exact ⟨first, last, bounds.congr fun tick => exists_congr fun _ => mute _,
    fun strike struck => swells.holds.shaded List.suffix_rfl swells.tended.measuring strike
      ((mute strike).mp struck)⟩

/-- However a crescendo or decrescendo that nothing disturbs goes about it, where notes in it start at
different ticks the earliest ones have the velocity that the timeline had before it, and the latest
ones have the velocity that it leads to. -/
theorem dynamics_reach_ends (kept : Kept Real s.modifiers false live s) (member : here ∈ live)
    (proper : ∀ item ∈ body, item.WellFormed) (undisturbed : Undisturbed trilled body s)
    (small : target ≤ 127)
    (done : (performDynamics (perform depth) here references offset direction target body).run s =
      .ok ticks t)
    {one other : Note} (first : s.arena.Added t.arena one) (second : s.arena.Added t.arena other)
    (apart : one.start ≠ other.start) {note : Note} (added : s.arena.Added t.arena note) :
    ((∀ other, s.arena.Added t.arena other → note.start ≤ other.start) →
      note.velocity = (s.arena.timeline here).state.velocity) ∧
    ((∀ other, s.arena.Added t.arena other → other.start ≤ note.start) →
      note.velocity = target) := by
  obtain ⟨low, high, bounds, shaded⟩ := dynamics_shade kept member proper undisturbed small done
  obtain ⟨⟨_, lowest⟩, ⟨_, highest⟩, within⟩ := bounds
  obtain ⟨early, addedEarly, starts⟩ := Arena.added_struck.mp lowest
  obtain ⟨rfl, -⟩ := Prod.mk.inj starts
  obtain ⟨late, addedLate, starts⟩ := Arena.added_struck.mp highest
  obtain ⟨rfl, -⟩ := Prod.mk.inj starts
  have inside {note : Note} (added : s.arena.Added t.arena note) :
      early.start ≤ note.start ∧ note.start ≤ late.start :=
    within note.start ⟨_, Arena.added_struck.mpr ⟨note, added, rfl⟩⟩
  have velocity : note.velocity = _ := shaded _ (Arena.added_struck.mpr ⟨note, added, rfl⟩)
  have start : (s.arena.timeline here).state.velocity ≤ Pitch.highest :=
    (kept.holds.timelines here (kept.inside member)).velocity
  rw [velocity]
  dsimp only
  refine ⟨fun earliest => ?_, fun latest => ?_⟩
  · have same : note.start = early.start :=
      Nat.le_antisymm (earliest early addedEarly) (inside added).1
    have rising : early.start < late.start := by
      have := inside first
      have := inside second
      omega
    rw [same]
    exact Ramp.velocity_first (r := ⟨_, target, early.start, late.start⟩) rising start
  · have same : note.start = late.start :=
      Nat.le_antisymm (inside added).2 (latest late addedLate)
    rw [same]
    exact Ramp.velocity_last (r := ⟨_, target, early.start, late.start⟩) start small

end Dynamics

/-- A crescendo over three notes, inside a staccato inside a fermata. -/
theorem dynamics_reach_ends_long :
    let body : List Item := [.key ⟨0, .pitchClass 0, 0, 0⟩, .key ⟨1, .pitchClass 2, 0, 0⟩,
      .key ⟨2, .pitchClass 4, 0, 0⟩]
    let two : Binary64 := .finite false 0x10000000000000 (-51)
    let s : Session := {
      gas := ⟨40⟩
      arena := ⟨#[{ channel := 1 }]⟩
      channels := #[0]
      modifiers := [.staccato, .fermata two] }
    ∃ t one other, Undisturbed False body s ∧
      (performDynamics (perform 3) 0 0 0 .crescendo 110 body).run s = .ok 144 t ∧
      s.arena.Added t.arena one ∧ s.arena.Added t.arena other ∧ one.start ≠ other.start ∧
      one.velocity = 80 ∧ other.velocity = 110 := by
  intro body factor s
  have two : factor.Sustains := Binary64.sustains_of_half (by decide +kernel)
  have keys (item : Item) (reached : s.definitions.Reached body item) : ∃ key, item = .key key := by
    induction reached with
    | own listed =>
      simp only [body, List.mem_cons, List.not_mem_nil, or_false] at listed
      rcases listed with rfl | rfl | rfl <;> exact ⟨_, rfl⟩
    | inner reached listed ih =>
      obtain ⟨key, rfl⟩ := ih
      cases listed
    | group _ _ _ ih | template _ _ _ ih => obtain ⟨_, ⟨⟩⟩ := ih
  have proper (item : Item) (listed : item ∈ body) : item.WellFormed := by
    obtain ⟨key, rfl⟩ := keys item (.own listed)
    exact Item.throughout_iff.mpr ⟨trivial, List.forall_mem_nil _⟩
  have undisturbed : Undisturbed False body s := {
    outer := List.forall_mem_cons.mpr ⟨.staccato,
      List.forall_mem_singleton.mpr (.fermata id two)⟩
    factor := two
    smooth := fun item reached => by
      obtain ⟨key, rfl⟩ := keys item reached
      trivial }
  have begun : Real [] { gas := ⟨40⟩, arena := s.arena, channels := #[0] } :=
    stewardship_real.begins (s := { gas := ⟨40⟩ }) (by decide) (by decide) (real_start 40)
  have tended := ((handover_held lasts_true).start 1 (held_start trivial 40 [])).tended
  have kept : Kept Real s.modifiers false [0] s :=
    ⟨{ tended with }, { begun with modifiers := rfl, ramps := by simp [s] }⟩
  let sounded : List Note := [⟨0, [60], 0, 0, 32, 80, false, false⟩,
    ⟨1, [62], 16, 48, 32, 95, false, false⟩, ⟨2, [64], 16, 96, 32, 110, false, false⟩]
  have played : (do
      let ticks ← performDynamics (perform 3) 0 0 0 .crescendo 110 body
      return (ticks, (← get).arena.timelines.toList.map Timeline.notes) :
        Play (Nat × List (List Note))).run' s = some (144, [sounded]) := by decide +kernel
  obtain ⟨_, played⟩ := Step.exists_of_run' played
  obtain ⟨ticks, t, done, observed⟩ := Step.bind_ok played
  obtain ⟨rfl, logs⟩ := Prod.mk.inj (EStateM.Result.ok.inj observed).1
  obtain ⟨only, alone, notes⟩ := List.map_eq_singleton_iff.mp logs
  have added (note : Note) : s.arena.Added t.arena note ↔ note ∈ sounded := by
    have found (id : TimelineId) : t.arena.timeline id = [only][id]?.getD { channel := 0 } := by
      rw [Arena.timeline, ← Array.getElem?_toList, alone]
    constructor
    · rintro ⟨id, listed⟩
      rw [found] at listed
      cases id with
      | zero => exact notes ▸ List.mem_of_mem_drop listed
      | succ id => exact absurd (List.mem_of_mem_drop listed) List.not_mem_nil
    · intro listed
      refine ⟨0, ?_⟩
      rw [found]
      exact (notes.symm ▸ listed : note ∈ only.notes)
  have first := (added _).mpr (List.mem_cons_self : sounded[0] ∈ sounded)
  have last := (added _).mpr (by decide : sounded[2] ∈ sounded)
  have ends {note : Note} (there : s.arena.Added t.arena note) :=
    dynamics_reach_ends kept List.mem_cons_self proper undisturbed (by decide : 110 ≤ 127) done first
      last (by decide) there
  refine ⟨t, _, _, undisturbed, done, first, last, by decide, (ends first).1 fun other there => ?_,
    (ends last).2 fun other there => ?_⟩
  · exact (by decide : ∀ other ∈ sounded, 0 ≤ other.start) other ((added other).mp there)
  · exact (by decide : ∀ other ∈ sounded, other.start ≤ 96) other ((added other).mp there)

end Session
end TextScore
