import TextScore.Proofs.Accord
import TextScore.Proofs.Graces
import TextScore.Proofs.Versions

/-! What a performance does with graces, told in advance. Which prefixes are come across, how many graces
each has, and between which of them keys and chords are played, is in the text and the definitions
alone. A performance that succeeds does just that. -/
namespace TextScore

/-- What a performance comes across that matters to graces: a prefix of so many, or a key or chord. -/
inductive Mark where
  | graces (count : Nat)
  | note
  deriving DecidableEq, Repr

mutual

/-- How many graces an item of a prefix is; ranges are taken apart. -/
def Item.graceCount : Item → Nat
  | .key _ | .chord _ => 1
  | .range _ _ body => graceCounts body
  | _ => 0

def graceCounts : List Item → Nat
  | [] => 0
  | item :: rest => item.graceCount + graceCounts rest

end

/-- The marks of an item, given what has been defined. -/
abbrev Reciter := Item → Step Definitions (List Mark)

/-- The marks of one part after the other. -/
def gather {β : Type} (recite : β → Step Definitions (List Mark)) :
    List β → Step Definitions (List Mark)
  | [] => return []
  | part :: rest => do
    let marks ← recite part
    return marks ++ (← gather recite rest)

/-- What a later branch defines is forgotten after it. -/
def reciteBranch (inner : Reciter) (branch : List Item) : Step Definitions (List Mark) := do
  let definitions ← get
  let marks ← gather inner branch
  set definitions
  return marks

def reciteSound (inner : Reciter) : Reciter
  | .key _ | .chord _ => return [.note]
  | .ornament _ .pitchBend body => gather (fun item => match item with
    | .breakpoint .. => return []
    | item => inner item) body
  | .ornament _ _ body => gather inner body
  | .tie _ => return []
  | item => inner item

/-- The marks of an item, given those of the items inside it. -/
def reciteWith (inner : Reciter) : Reciter
  | .setting _ | .emoji .. | .rest _ | .breakpoint .. => return []
  | .range offset (.userRange name) body => do
    let template ← Definitions.template name offset
    gather (fun item => match item with
      | .key _ => gather inner template
      | item => inner item) body
  | .range _ _ body => gather inner body
  | .group offset id body => do
    Definitions.declareGroup id body offset
    gather inner body
  | .groupRef offset id => do
    let body ← Definitions.group id offset
    gather inner body
  | .parallel _ [] => return []
  | .parallel _ (first :: others) => do
    let marks ← gather inner first
    return marks ++ (← gather (reciteBranch inner) others)
  | .graced _ graces main => do
    let marks ← reciteSound inner main
    return .graces (graceCounts graces) :: marks
  | sound => reciteSound inner sound

def recite : (depth : Nat) → Reciter
  | 0 => fun item => Step.failAt item.offset .exhausted
  | depth + 1 => reciteWith (recite depth)

namespace Session
open Arena (Forest)
variable {here : TimelineId} {live : List TimelineId} {s t u : Session} {α β : Type}
  {marks more : List Mark}

/-- Nothing is logged, and the graces that wait go on waiting. -/
structure Idles (s t : Session) : Prop where
  sustains : s.arena.Sustains t.arena
  size : s.arena.timelines.size ≤ t.arena.timelines.size
  graces : t.graces = s.graces

/-- A way from one session to another on which graces are prepared, and keys and chords are played, as
the marks tell. -/
inductive Recital : List Mark → Session → Session → Prop
  | done (s : Session) : Recital [] s s
  | idle {marks : List Mark} {s t u : Session} (idles : s.Idles t) (rest : Recital marks t u) :
    Recital marks s u
  | graces {marks : List Mark} {s u : Session} (offset : Nat) (pitches : List (List Nat))
    (rest : Recital marks { s with graces := some (offset, pitches) } u) :
    Recital (.graces pitches.length :: marks) s u
  | note {marks : List Mark} {s t u : Session} {here : TimelineId} {ticks : Nat} {graces : List Note}
    {mains : TimelineId → List Note} (strikes : s.Strikes here ticks graces mains t)
    (rest : Recital marks t u) : Recital (.note :: marks) s u

theorem Idles.aside (arena : t.arena = s.arena) (graces : t.graces = s.graces) : s.Idles t :=
  ⟨arena ▸ fun _ => rfl, arena ▸ Nat.le_refl _, graces⟩

theorem Idles.recital (idles : s.Idles t) : Recital [] s t := .idle idles (.done t)

theorem Recital.append (first : Recital marks s t) (second : Recital more t u) :
    Recital (marks ++ more) s u := by
  induction first with
  | done => exact second
  | idle idles _ ih => exact .idle idles (ih second)
  | graces offset pitches _ ih => exact .graces offset pitches (ih second)
  | note strikes _ ih => exact .note strikes (ih second)

/-- Items may be performed on these timelines. -/
structure Ready (live : List TimelineId) (s : Session) : Prop where
  forest : ∃ roots, Forest roots s.arena
  inside : ∀ id ∈ live, id < s.arena.timelines.size

theorem Ready.fewer {live' : List TimelineId} (kept : live ⊆ live') (ready : Ready live' s) :
    Ready live s := ⟨ready.forest, fun id listed => ready.inside id (kept listed)⟩

/-- A performance that succeeds is a recital of the marks that are told of it, and leaves the definitions
that they lead to. -/
def Tells (live : List TimelineId) (p : Play α) (r : Step Definitions (List Mark)) : Prop :=
  ∀ ⦃s a t⦄, Ready live s → p.run s = .ok a t →
    Ready live t ∧ ∃ marks, r.run s.definitions = .ok marks t.definitions ∧ Recital marks s t

/-- A performance without marks. -/
abbrev Hushed (live : List TimelineId) (p : Play α) : Prop := Tells live p (return [])

section Rules
variable {p : Play α} {f : α → Play β} {r r' : Step Definitions (List Mark)}

theorem Tells.bind (first : Tells live p r) (rest : ∀ a, Tells live (f a) r') :
    Tells live (p >>= f) (do let marks ← r; return marks ++ (← r')) := by
  intro s b u ready done
  obtain ⟨a, t, ran, done⟩ := Step.bind_ok done
  obtain ⟨ready, marks, told, recital⟩ := first ready ran
  obtain ⟨ready, more, told', recital'⟩ := rest a ready done
  refine ⟨ready, marks ++ more, ?_, recital.append recital'⟩
  simp only [EStateM.run_bind, told, told', EStateM.run_pure]

theorem Tells.before (hushed : Hushed live p) (rest : ∀ a, Tells live (f a) r) :
    Tells live (p >>= f) r := by
  intro s b u ready done
  obtain ⟨a, t, ran, done⟩ := Step.bind_ok done
  obtain ⟨ready, marks, told, recital⟩ := hushed ready ran
  obtain ⟨rfl, same⟩ := EStateM.Result.ok.inj told
  obtain ⟨ready, more, told, recital'⟩ := rest a ready done
  exact ⟨ready, more, same ▸ told, recital.append recital'⟩

theorem Tells.after (first : Tells live p r) (hushed : ∀ a, Hushed live (f a)) :
    Tells live (p >>= f) r := by
  intro s b u ready done
  obtain ⟨a, t, ran, done⟩ := Step.bind_ok done
  obtain ⟨ready, marks, told, recital⟩ := first ready ran
  obtain ⟨ready, more, told', recital'⟩ := hushed a ready done
  obtain ⟨rfl, same⟩ := EStateM.Result.ok.inj told'
  exact ⟨ready, marks, same ▸ told, by simpa only [List.append_nil] using recital.append recital'⟩

theorem tells_failAt (offset : Nat) (cause : Cause) : Tells live (Step.failAt offset cause : Play α) r :=
  fun _ _ _ _ done => nomatch done

theorem tells_pure (a : α) : Hushed live (pure a) := fun s _ _ ready done => by
  cases done
  exact ⟨ready, [], rfl, .done s⟩

theorem tells_unless {c : Prop} [Decidable c] {offset : Nat} {cause : Cause} {f : PUnit → Play α}
    (rest : Tells live (f ⟨⟩) r) : Tells live (if c then Step.failAt offset cause >>= f else f ⟨⟩) r :=
  fun _ _ _ ready done => rest ready (Step.unless_ok done).2

theorem tells_get {f : Session → Play α} (rest : ∀ s, Tells live (f s) r) : Tells live (get >>= f) r :=
  fun s _ _ ready done => rest s ready done

theorem tells_timeline {f : Timeline → Play α} (rest : ∀ t, Tells live (f t) r) :
    Tells live (timeline here >>= f) r := fun _ _ _ ready done => rest _ ready done

/-- What the definitions answer is known on both sides. -/
theorem tells_definitions {step : Step Definitions α} {r : α → Step Definitions (List Mark)}
    {f : α → Play β} (rest : ∀ a, Tells live (f a) (r a)) :
    Tells live (onDefinitions step >>= f) (step >>= r) := by
  intro s b u ready done
  obtain ⟨a, t, ran, done⟩ := Step.bind_ok done
  have known : (onDefinitions step).run s = _ := Step.within_run ..
  rw [known] at ran
  cases answer : step.run s.definitions with
  | ok a' d =>
    rw [answer] at ran
    cases ran
    have defined : Ready live { s with definitions := d } := ⟨ready.forest, ready.inside⟩
    have aside : s.Idles { s with definitions := d } := .aside rfl rfl
    obtain ⟨ready, marks, told, recital⟩ := rest a defined done
    refine ⟨ready, marks, ?_, .idle aside recital⟩
    simp only [EStateM.run_bind, answer]
    exact told
  | error fault d =>
    rw [answer] at ran
    exact nomatch ran

theorem tells_foldlM {f : β → Item → Play β} {recite : Reciter} {items : List Item}
    (each : ∀ b, ∀ item ∈ items, Tells live (f b item) (recite item)) (b : β) :
    Tells live (items.foldlM f b) (gather recite items) := by
  induction items generalizing b with
  | nil => exact tells_pure b
  | cons item items ih =>
    rw [List.foldlM_cons]
    exact (each b item List.mem_cons_self).bind fun c =>
      ih (fun b other listed => each b other (List.mem_cons_of_mem item listed)) c

end Rules

section Steps

/-- A step that does not play anything. -/
theorem hushed_of_idles {p : Play α} (idles : ∀ {s a t}, Ready live s → p.run s = .ok a t →
      (∃ roots, Forest roots t.arena) ∧ t.definitions = s.definitions ∧ s.Idles t) :
    Hushed live p := by
  intro s a t ready done
  obtain ⟨forest, same, idles⟩ := idles ready done
  exact ⟨⟨forest, fun id listed => Nat.lt_of_lt_of_le (ready.inside id listed) idles.size⟩, [],
    congrArg _ same.symm, idles.recital⟩

/-- A step on the arena that logs nothing. -/
theorem hushed_onArena {step : Step Arena α} (silent : ∀ {roots arena a arena'},
      Forest roots arena → (∀ id ∈ live, id < arena.timelines.size) → step.run arena = .ok a arena' →
      Forest roots arena' ∧ arena.timelines.size ≤ arena'.timelines.size ∧ arena.Sustains arena') :
    Hushed live (onArena step) :=
  hushed_of_idles fun ready done => by
    obtain ⟨arena, ran, rfl⟩ := onArena_ok done
    obtain ⟨roots, forest⟩ := ready.forest
    obtain ⟨forest, size, sustains⟩ := silent forest ready.inside ran
    exact ⟨⟨roots, forest⟩, rfl, sustains, size, rfl⟩

/-- A change of a timeline that logs nothing. -/
theorem hushed_update {f : Timeline → α × Timeline} (notes : ∀ t, (f t).2.notes = t.notes)
    (family : ∀ t, (f t).2.children = t.children ∧ (f t).2.voices = t.voices) :
    Hushed live (update here f) :=
  hushed_onArena fun forest _ ran => by
    rw [Arena.update_run] at ran
    cases ran
    exact ⟨forest.adjust (family _).1 (family _).2, Nat.le_of_eq (Arena.size_adjust ..).symm,
      (Arena.silent_adjust here (notes _)).sustains⟩

theorem hushed_adjust {f : Timeline → Timeline} (change : Timeline.Change f) :
    Hushed live (adjust here f) :=
  hushed_of_idles fun {s _ _} ready done => by
    cases done
    obtain ⟨roots, forest⟩ := ready.forest
    have family := (Timeline.Played.change change :
      (s.arena.timeline here).Played (f (s.arena.timeline here))).strides.family
    exact ⟨⟨roots, forest.adjust family.1 family.2⟩, rfl, (Arena.silent_adjust here change.notes).sustains,
      Nat.le_of_eq (Arena.size_adjust ..).symm, rfl⟩

theorem hushed_modify {f : Session → Session} (arena : ∀ s, (f s).arena = s.arena)
    (definitions : ∀ s, (f s).definitions = s.definitions) (graces : ∀ s, (f s).graces = s.graces) :
    Hushed live (modify f) :=
  hushed_of_idles fun {s _ _} ready done => by
    cases done
    exact ⟨arena s ▸ ready.forest, definitions s, .aside (arena s) (graces s)⟩

theorem hushed_burn (offset : Nat) : Hushed live (burn offset) :=
  hushed_of_idles fun ready done => by
    rw [burn_run] at done
    split at done
    · exact nomatch done
    · cases done
      exact ⟨ready.forest, rfl, .aside rfl rfl⟩

theorem hushed_beginTuplet (offset size : Nat) :
    Hushed live (onTimeline here (Timeline.beginTuplet offset size)) :=
  hushed_onArena fun forest _ ran => by
    rw [Arena.on_run] at ran
    split at ran
    · next begun =>
      cases ran
      have still := Timeline.beginTuplet_still begun
      exact ⟨forest.adjust still.children still.voices, Nat.le_of_eq (Arena.size_adjust ..).symm,
        (Arena.silent_adjust here still.notes).sustains⟩
    · exact nomatch ran

theorem hushed_rest : Hushed live (update here Timeline.rest) :=
  hushed_update (fun _ => Timeline.notes_rest) fun t =>
    ⟨(Timeline.Onward.rest t).children, (Timeline.Onward.rest t).voices⟩

theorem hushed_tie (member : here ∈ live) (offset : Nat) : Hushed live (onArena (Arena.tie here offset)) :=
  hushed_onArena fun forest inside ran =>
    ⟨forest.tie (inside here member) ran, (Arena.Frame.tie_step forest (inside here member) ran).size,
      Arena.sustains_tie (inside here member) ran⟩

theorem hushed_setting (setting : Setting) (offset : Nat) :
    Hushed live (applySetting here setting offset) :=
  tells_timeline fun t => by
    cases read : settingChange t setting.key setting.value with
    | ok f => exact hushed_adjust (settingChange_change read)
    | error cause => exact tells_failAt offset cause

theorem hushed_emoji (symbol : String) (offset : Nat) :
    Hushed live (onDefinitions (Definitions.emoji symbol offset)) :=
  hushed_of_idles fun {s _ _} ready done => by
    have known : (onDefinitions (Definitions.emoji symbol offset)).run s = _ := Step.within_run ..
    rw [known, Definitions.emoji_run] at done
    cases found : s.definitions.emojis.lookup symbol with
    | some setting =>
      rw [found] at done
      cases done
      exact ⟨ready.forest, rfl, .aside rfl rfl⟩
    | none =>
      rw [found] at done
      exact nomatch done

/-- Steps that only look leave a session as it is. -/
theorem hushed_read {p : Play α} (reads : ∀ {s a t}, p.run s = .ok a t → t = s) : Hushed live p :=
  hushed_of_idles fun ready done => by
    obtain rfl := reads done
    exact ⟨ready.forest, rfl, .aside rfl rfl⟩

end Steps

section Pitches
variable {offset : Nat}

theorem keyPitch_reads {key : Key} {pitch : Nat} (done : (keyPitch here key).run s = .ok pitch t) :
    t = s := by
  rw [keyPitch_run] at done
  split at done
  · cases done
    rfl
  · exact nomatch done

theorem chordPitches_reads {octaves : Int} {chord : Chord} {pitches : List Nat}
    (done : (chordPitches here octaves chord).run s = .ok pitches t) : t = s := by
  unfold chordPitches at done
  replace done := (Step.unless_ok done).2
  generalize chord.keys = keys at done
  induction keys generalizing s pitches with
  | nil =>
    cases done
    rfl
  | cons key keys ih =>
    rw [List.mapM_cons] at done
    obtain ⟨pitch, u, first, done⟩ := Step.bind_ok done
    obtain ⟨more, v, others, done⟩ := Step.bind_ok done
    cases done
    exact (ih others).trans (keyPitch_reads first)

mutual

/-- A prefix has as many graces as its text tells, whatever they sound. -/
theorem gracePitches_ok (octaves : Int) : (item : Item) → ∀ {s t : Session}
    {pitches : List (List Nat)},
    (gracePitches here octaves item).run s = .ok pitches t → t = s ∧ pitches.length = item.graceCount
  | .key k, _, _, _, done => by
    obtain ⟨pitch, u, found, done⟩ := Step.bind_ok done
    cases done
    exact ⟨keyPitch_reads found, rfl⟩
  | .chord c, _, _, _, done => by
    obtain ⟨pitches, u, found, done⟩ := Step.bind_ok done
    cases done
    exact ⟨chordPitches_reads found, rfl⟩
  | .range offset kind body, _, _, _, done => match kind with
    | .octaveUp => allGracePitches_ok (octaves + 1) body done
    | .octaveDown => allGracePitches_ok (octaves - 1) body done
    | .tuplet _ | .sustain | .userRange _ => nomatch done
  | .setting _, _, _, _, done | .ornament .., _, _, _, done | .tie _, _, _, _, done | .breakpoint .., _, _, _, done
  | .graced .., _, _, _, done | .group .., _, _, _, done | .groupRef .., _, _, _, done | .parallel .., _, _, _, done
  | .emoji .., _, _, _, done | .rest _, _, _, _, done => nomatch done

theorem allGracePitches_ok (octaves : Int) : (items : List Item) → ∀ {s t : Session}
    {pitches : List (List Nat)},
    (allGracePitches here octaves items).run s = .ok pitches t →
      t = s ∧ pitches.length = graceCounts items
  | [], _, _, _, done => by
    cases done
    exact ⟨rfl, rfl⟩
  | item :: rest, _, _, _, done => by
    obtain ⟨pitches, u, first, resumed⟩ := Step.bind_ok done
    obtain ⟨rfl, count⟩ := gracePitches_ok octaves item first
    obtain ⟨more, v, others, ended⟩ := Step.bind_ok resumed
    obtain ⟨rfl, counts⟩ := allGracePitches_ok octaves rest others
    cases ended
    exact ⟨rfl, by rw [List.length_append, count, counts, graceCounts]⟩

end

theorem prepareGraces_ok {items : List Item} (done : (prepareGraces here offset items).run s = .ok ⟨⟩ t) :
    ∃ pitches, (allGracePitches here 0 items).run s = .ok pitches s ∧
      pitches.length = graceCounts items ∧ t = { s with graces := some (offset, pitches) } := by
  unfold prepareGraces at done
  obtain ⟨pitches, u, found, prepared⟩ := Step.bind_ok done
  obtain ⟨rfl, count⟩ := allGracePitches_ok 0 items found
  cases (Step.unless_ok prepared).2
  exact ⟨pitches, found, count, rfl⟩

/-- Where no graces may be left over, none are. -/
theorem requireNoGraces_ok (done : requireNoGraces.run s = .ok ⟨⟩ t) : s.graces = none ∧ t = s := by
  obtain ⟨waiting, u, taken, done⟩ := Step.bind_ok done
  cases taken
  cases waits : s.graces with
  | some waiting =>
    rw [waits] at done
    exact nomatch done
  | none =>
    rw [waits] at done
    cases done
    exact ⟨rfl, by rw [← waits]⟩

/-- What sounds has taken the graces that waited. -/
theorem sounded_ok {p : Play Nat} {ticks : Nat}
    (done : (do let ticks ← p; requireNoGraces; return ticks : Play Nat).run s = .ok ticks t) :
    p.run s = .ok ticks t ∧ t.graces = none := by
  obtain ⟨_, u, played, finished⟩ := Step.bind_ok done
  obtain ⟨_, v, required, ended⟩ := Step.bind_ok finished
  obtain ⟨none, rfl⟩ := requireNoGraces_ok required
  cases ended
  exact ⟨played, none⟩

/-- What waits after a prefix are its graces, whatever waited before. -/
theorem tells_graced {p : Play α} {r : Step Definitions (List Mark)} (rest : Tells live p r)
    (items : List Item) :
    Tells live (do prepareGraces here offset items; p)
      (do let marks ← r; return .graces (graceCounts items) :: marks) := by
  intro s a t ready done
  obtain ⟨_, u, prepared, done⟩ := Step.bind_ok done
  obtain ⟨pitches, -, count, rfl⟩ := prepareGraces_ok prepared
  have prepared : Ready live { s with graces := some (offset, pitches) } := ⟨ready.forest, ready.inside⟩
  obtain ⟨ready, marks, told, recital⟩ := rest prepared done
  refine ⟨ready, _, ?_, .graces offset pitches recital⟩
  simp only [EStateM.run_bind, told, EStateM.run_pure, count]

theorem tells_commit (member : here ∈ live) (offset : Nat) (pitches : List Nat) (arpeggio : Bool) :
    Tells live (commit here offset pitches arpeggio) (return [.note]) := by
  intro s ticks t ready done
  obtain ⟨roots, forest⟩ := ready.forest
  obtain ⟨graces, mains, strikes⟩ := strikes_commit forest (ready.inside here member) done
  have moves := moves_commit forest (ready.inside here member) done
  have same : t.definitions = s.definitions := by
    obtain ⟨_, _, read, done⟩ := Step.bind_ok done
    cases read
    obtain ⟨plain, u, staged, done⟩ := Step.bind_ok done
    obtain ⟨rfl, -⟩ := Custody.stage_ok staged
    obtain ⟨_, _, read, done⟩ := Step.bind_ok done
    cases read
    obtain ⟨_, _, heard, done⟩ := Step.bind_ok done
    cases heard
    cases arpeggio with
    | false =>
      obtain ⟨arena, -, rfl⟩ := onArena_ok done
      rfl
    | true =>
      obtain ⟨arena, -, rfl⟩ := onArena_ok done
      rfl
  exact ⟨⟨⟨roots, moves.forest forest⟩, fun id listed =>
    Nat.lt_of_lt_of_le (ready.inside id listed) strikes.size⟩, [.note],
    by rw [same]; rfl, .note strikes (.done t)⟩

end Pitches

/-- A performer tells what a reciter does. -/
def Performer.Recites (inner : Performer) (r : Reciter) : Prop :=
  ∀ {live : List TimelineId} {here : TimelineId}, here ∈ live → ∀ references item,
    Tells live (inner here references item) (r item)

section Constructs
variable {inner : Performer} {r : Reciter} (recites : inner.Recites r) (member : here ∈ live)
include recites member

theorem tells_all (references : Nat) (items : List Item) :
    Tells live (performAll inner here references items) (gather r items) :=
  tells_foldlM (fun ticks item _ => (recites member references item).after fun more =>
    tells_pure (ticks + more)) 0

theorem tells_octave (references : Nat) (octaves : Int) (body : List Item) :
    Tells live (performOctave inner here references octaves body) (gather r body) := by
  have shift (octaves : Int) : Hushed live (shiftOctave here octaves) :=
    hushed_adjust (.state fun state => { state with octave := state.octave + octaves })
  exact (shift octaves).before fun _ => (tells_all recites member references body).after fun ticks =>
    (shift (-octaves)).before fun _ => tells_pure ticks

theorem tells_tuplet (references offset size : Nat) (body : List Item) :
    Tells live (performTuplet inner here references offset size body) (gather r body) :=
  (hushed_beginTuplet offset size).before fun unit =>
    (tells_all recites member references body).after fun ticks =>
      (hushed_adjust (.endTuplet unit)).before fun _ => tells_pure ticks

theorem tells_sustain (references : Nat) (body : List Item) :
    Tells live (performSustain inner here references body) (gather r body) :=
  (hushed_adjust (.controller ..)).before fun _ => (tells_all recites member references body).after fun ticks =>
    (hushed_adjust (.controller ..)).before fun _ => tells_pure ticks

theorem tells_underModifier (references : Nat) (m : Modifier) (body : List Item) :
    Tells live (underModifier inner here references m body) (gather r body) := by
  have stacked (f : List Modifier → List Modifier) :
      Hushed live (modify fun s => { s with modifiers := f s.modifiers }) :=
    hushed_modify (fun _ => rfl) (fun _ => rfl) fun _ => rfl
  exact (stacked (m :: ·)).before fun _ => (tells_all recites member references body).after fun ticks =>
    (stacked List.tail).before fun _ => tells_pure ticks

omit recites member in
theorem hushed_refer (references offset : Nat) : Hushed live (refer references offset) := by
  unfold refer
  split
  · exact tells_failAt offset _
  · exact tells_pure _

theorem tells_invokeWith (references : Nat) (name : String) (template : List Item) (item : Item) :
    Tells live (invokeWith inner here references name template item) (match item with
      | .key _ => gather r template
      | item => r item) := by
  cases item with
  | key k =>
    refine (hushed_burn k.offset).before fun _ => (hushed_read keyPitch_reads).before fun base => ?_
    exact tells_timeline fun t => tells_underModifier recites member references _ template
  | setting | rest => exact recites member references _
  | _ => exact tells_failAt _ _

theorem tells_range (references offset : Nat) (kind : RangeKind) (body : List Item) :
    Tells live (performRange inner here references offset kind body)
      (reciteWith r (.range offset kind body)) := by
  cases kind with
  | octaveUp => exact tells_octave recites member references 1 body
  | octaveDown => exact tells_octave recites member references (-1) body
  | tuplet size => exact tells_tuplet recites member references offset size body
  | sustain => exact tells_sustain recites member references body
  | userRange name =>
    refine tells_definitions fun template => (hushed_refer references offset).before fun references => ?_
    exact tells_foldlM (fun ticks item _ =>
      (tells_invokeWith recites member references name template item).after fun more =>
        tells_pure (ticks + more)) 0

theorem tells_dynamics (references offset : Nat) (direction : Direction) (target : Nat)
    (body : List Item) :
    Tells live (performDynamics inner here references offset direction target body) (gather r body) := by
  have finish (ticks : Nat) : Hushed live (do setVelocity here target; return ticks) :=
    (hushed_adjust (.state fun state => { state with velocity := target })).before fun _ => tells_pure ticks
  refine tells_timeline fun t => tells_unless (tells_get fun s => ?_)
  split
  · exact (tells_all recites member references body).after finish
  · refine (hushed_read measure_ok).before fun bounds => ?_
    exact (tells_underModifier recites member references _ body).after finish

theorem tells_bend (references : Nat) (body : List Item) :
    Tells live (performBend inner here references body) (gather (fun item => match item with
      | .breakpoint .. => return []
      | item => r item) body) := by
  refine tells_timeline fun t => Tells.after (tells_foldlM (fun point item _ => ?_) _) fun final => ?_
  · have played := (recites member references item).after fun more =>
      tells_pure { point with ticks := point.ticks + more }
    cases item with
    | breakpoint offset value =>
      exact tells_timeline fun t => (hushed_adjust (.bends _)).before fun _ =>
        (hushed_adjust (.bend ..)).before fun _ => tells_pure _
    | _ => exact played
  · exact tells_timeline fun t => (hushed_adjust (.bend ..)).before fun _ => tells_pure final.ticks

theorem tells_ornament (references offset : Nat) (kind : Ornament) (body : List Item) :
    Tells live (performOrnament inner here references offset kind body)
      (reciteSound r (.ornament offset kind body)) := by
  cases kind with
  | staccato | sforzando | trill => exact tells_underModifier recites member references _ body
  | fermata => exact tells_get fun s => tells_underModifier recites member references _ body
  | crescendo target => exact tells_dynamics recites member references offset .crescendo target body
  | decrescendo target => exact tells_dynamics recites member references offset .decrescendo target body
  | pitchBend => exact tells_bend recites member references body

/-- A later branch; what it defines is forgotten. -/
theorem tells_branch (references offset expected : Nat) (branch : List Item) :
    Tells live (performBranch inner references offset expected (here, branch)) (reciteBranch r branch) := by
  intro s a t ready done
  obtain ⟨_, _, read, done⟩ := Step.bind_ok done
  cases read
  obtain ⟨ticks, u, played, done⟩ := Step.bind_ok done
  obtain ⟨ready, marks, told, recital⟩ := tells_all recites member references branch ready played
  obtain ⟨_, _, restored, done⟩ := Step.bind_ok done
  cases restored
  cases (Step.unless_ok done).2
  let restored : Session := { u with definitions := s.definitions, fermata := s.fermata }
  have aside : u.Idles restored := .aside rfl rfl
  refine ⟨⟨ready.forest, ready.inside⟩, marks, ?_,
    List.append_nil marks ▸ recital.append aside.recital⟩
  simp only [reciteBranch, EStateM.run_bind, EStateM.run_get, told, EStateM.run_set, EStateM.run_pure]

end Constructs

/-- A child that is claimed is in use from then on. -/
theorem tells_claim (member : here ∈ live) {offset index : Nat} {f : TimelineId → Play α}
    {r : Step Definitions (List Mark)} (rest : ∀ child, Tells (child :: live) (f child) r) :
    Tells live (onArena (Arena.childAt here offset (.branch index)) >>= f) r := by
  intro s a t ready done
  obtain ⟨child, u, claimed, done⟩ := Step.bind_ok done
  obtain ⟨arena, ran, rfl⟩ := onArena_ok claimed
  obtain ⟨roots, forest⟩ := ready.forest
  have inside := ready.inside here member
  obtain ⟨forest, -, present, size, -⟩ := Arena.claimed_branch forest inside ran
  have idles : s.Idles { s with arena := arena } :=
    ⟨(Arena.silent_childAt inside ran).sustains, size, rfl⟩
  have claimed : Ready (child :: live) { s with arena := arena } :=
    ⟨⟨roots, forest⟩, List.forall_mem_cons.mpr ⟨present, fun id listed =>
      Nat.lt_of_lt_of_le (ready.inside id listed) size⟩⟩
  obtain ⟨ready, marks, told, recital⟩ := rest child claimed done
  exact ⟨ready.fewer (List.subset_cons_self child live), marks, told, .idle idles recital⟩

theorem tells_children (member : here ∈ live) (offset base count : Nat)
    {f : List TimelineId → Play α} {r : Step Definitions (List Mark)}
    (rest : ∀ children live', live ⊆ live' → children.length = count → children ⊆ live' →
      Tells live' (f children) r) :
    Tells live ((List.range count).mapM
      (fun i => onArena (Arena.childAt here offset (.branch (base + i)))) >>= f) r := by
  rw [List.range_eq_range']
  generalize 0 = start
  induction count generalizing start live f with
  | zero => exact rest [] live (List.Subset.refl _) rfl (List.nil_subset _)
  | succ count ih =>
    simp only [List.range'_succ, List.mapM_cons, bind_assoc, pure_bind]
    refine tells_claim member fun child => ?_
    refine ih (List.mem_cons_of_mem child member) (fun children live' kept length inside => ?_) _
    exact rest (child :: children) live' (List.subset_of_cons_subset kept) (congrArg Nat.succ length)
      (List.cons_subset.mpr ⟨kept List.mem_cons_self, inside⟩)

theorem hushed_requireNoGraces : Hushed live requireNoGraces :=
  hushed_read fun done => (requireNoGraces_ok done).2

section Items
variable {inner : Performer} {r : Reciter} (recites : inner.Recites r)
include recites

theorem tells_others (references offset expected : Nat) {children : List TimelineId}
    (inside : children ⊆ live) {branches : List (List Item)}
    (length : children.length = branches.length) :
    Tells live ((children.zip branches).forM (performBranch inner references offset expected))
      (gather (reciteBranch r) branches) := by
  induction children generalizing branches with
  | nil =>
    obtain rfl := List.length_eq_zero_iff.mp length.symm
    exact tells_pure _
  | cons child children ih =>
    cases branches with
    | nil => exact nomatch length
    | cons branch branches =>
      obtain ⟨listed, inside⟩ := List.cons_subset.mp inside
      exact (tells_branch recites listed references offset expected branch).bind fun _ =>
        ih inside (Nat.succ.inj length)

variable (member : here ∈ live)
include member

theorem tells_sound (references : Nat) (sound : Item) :
    Tells live (performWith.performSound inner here references sound) (reciteSound r sound) := by
  have finish {p : Play Nat} {q : Step Definitions (List Mark)} (played : Tells live p q) :
      Tells live (do let ticks ← p; requireNoGraces; return ticks) q :=
    played.after fun ticks => hushed_requireNoGraces.before fun _ => tells_pure ticks
  cases sound with
  | key k => exact finish ((hushed_read keyPitch_reads).before fun pitch => tells_commit member _ _ _)
  | chord c => exact finish ((hushed_read chordPitches_reads).before fun pitches => tells_commit member _ _ _)
  | ornament offset kind body => exact finish (tells_ornament recites member references offset kind body)
  | tie offset => exact finish (hushed_tie member offset)
  | _ => exact finish (recites member references _)

theorem tells_parallel (references offset : Nat) (branches : List (List Item)) :
    Tells live (performParallel inner here references offset branches)
      (reciteWith r (.parallel offset branches)) := by
  cases branches with
  | nil => exact tells_pure 0
  | cons branch branches =>
    refine (hushed_update (fun _ => rfl) fun _ => ⟨rfl, rfl⟩).before fun base => ?_
    refine tells_children member offset base _ fun children live' kept length inside => ?_
    refine (tells_all recites (kept member) references branch).bind fun expected => ?_
    refine (hushed_adjust (.release base)).before fun _ => ?_
    exact (tells_others recites references offset expected inside length).after fun _ => tells_pure expected

/-- An item is performed as told if those inside it are. -/
theorem tells_with (references : Nat) (item : Item) :
    Tells live (performWith inner here references item) (reciteWith r item) := by
  have opens (offset : Nat) {p : Play Nat} {q : Step Definitions (List Mark)} (rest : Tells live p q) :
      Tells live (opened here offset p) q :=
    (hushed_burn offset).before fun _ => tells_timeline fun _ => tells_unless rest
  have quiet {p : Play Unit} (hushed : Hushed live p) : Hushed live (do p; return 0) :=
    hushed.before fun _ => tells_pure 0
  have sound := tells_sound recites member references item
  cases item with
  | breakpoint offset => exact tells_failAt offset _
  | setting s => exact opens s.offset (quiet (hushed_setting s s.offset))
  | range offset kind body => exact opens offset (tells_range recites member references offset kind body)
  | group offset id body =>
    exact opens offset (tells_definitions fun _ => tells_all recites member references body)
  | groupRef offset id =>
    exact opens offset ((hushed_refer references offset).before fun references =>
      tells_definitions fun body => tells_all recites member references body)
  | parallel offset branches =>
    exact opens offset (tells_parallel recites member references offset branches)
  | emoji offset symbol =>
    exact opens offset ((hushed_emoji symbol offset).before fun setting =>
      quiet (hushed_setting setting offset))
  | rest offset => exact opens offset hushed_rest
  | graced offset graces main =>
    have main' := tells_sound recites member references main
    cases main with
    | tie => exact opens offset (tells_failAt offset _)
    | _ => exact opens offset (tells_graced main' graces)
  | key | chord | ornament | tie => exact opens _ sound

end Items

theorem recites_perform (depth : Nat) : (perform depth).Recites (recite depth) := by
  induction depth with
  | zero => exact fun _ references item => (hushed_burn item.offset).before fun _ => tells_failAt _ _
  | succ depth ih => exact fun member references item => tells_with ih member references item

end Session
end TextScore
