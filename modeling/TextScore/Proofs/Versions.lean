import TextScore.Proofs.Domains
import TextScore.Proofs.KeyMaps
import TextScore.Proofs.Octaves

/-! Two versions of a performance. The second one plays other keys, in another octave and under other
substitutions maybe, but every key has the pitch that it has in the first one. Here it is shown that the
small steps of a performance keep two such versions together. -/
namespace TextScore

namespace Modifier

/-- Substitutions do nothing to what is staged. -/
def audible : Modifier → Bool
  | substitute .. => false
  | _ => true

theorem applyAll_audible (stack : List Modifier) (onset : Nat) (staged : Staged) :
    applyAll (stack.filter audible) onset staged = applyAll stack onset staged := by
  induction stack generalizing staged with
  | nil => rfl
  | cons m stack ih => cases m <;> exact ih _

theorem arpeggioInterval_audible (stack : List Modifier) :
    arpeggioInterval (stack.filter audible) = arpeggioInterval stack := by
  have kept : (stack.filter audible).contains staccato = stack.contains staccato := by
    rw [Bool.eq_iff_iff, List.contains_iff_mem, List.contains_iff_mem, List.mem_filter]
    exact and_iff_left rfl
  rw [arpeggioInterval, kept, arpeggioInterval]

end Modifier

/-- The pitch of a key in a playing state, with this substitution for placeholders. -/
def Performance.pitch (state : Performance) (substitution : Option (Nat × Int)) (key : Key) :
    Except Cause Nat :=
  let found (pitch : Option Nat) : Except Cause Nat := match pitch with
    | some p => .ok p
    | none => .error .pitchOutOfRange
  match key.tone, substitution with
  | .pitchClass c, _ =>
    found (Pitch.midi? (state.octave + key.octave) c (state.transpose + key.semitones))
  | .placeholder, none => .error .unresolvedPlaceholder
  | .placeholder, some (base, octave) =>
    found (Pitch.ofInt? (Int.ofNat base + (12 * (key.octave + state.octave - octave) + key.semitones)))

namespace Session
open Arena (Forest Doubled Apart)
open Step (Follows)
open Coupling (Agree)
variable {here : TimelineId} {s s' : Session} {α β : Type}

theorem keyPitch_run (here : TimelineId) (key : Key) (s : Session) : (keyPitch here key).run s =
    match (s.arena.timeline here).state.pitch (Modifier.substitution? s.modifiers) key with
    | .ok pitch => .ok pitch s
    | .error cause => .error ⟨cause, key.offset⟩ s := by
  have answered (found : Option Nat) : (match found with
      | some p => pure p
      | none => Step.failAt key.offset .pitchOutOfRange : Play Nat).run s =
        match (match found with
          | some p => .ok p
          | none => .error .pitchOutOfRange : Except Cause Nat) with
        | .ok pitch => .ok pitch s
        | .error cause => .error ⟨cause, key.offset⟩ s := by
    cases found <;> rfl
  simp only [keyPitch, EStateM.run_bind, EStateM.run_get, Performance.pitch]
  cases key.tone with
  | pitchClass c => exact answered _
  | placeholder => cases Modifier.substitution? s.modifiers with
    | none => rfl
    | some pair => exact answered _

/-- What settings do that has to do with pitch. -/
inductive Retunes (key : String) : (Timeline → Timeline) → Prop
  | deaf {f : Timeline → Timeline} (deaf : Timeline.Deaf f) : Retunes key f
  | octave (named : key = "o") (octave : Int) : Retunes key (Timeline.inOctave octave)
  | transpose (named : key = "t") (n : Int) : Retunes key fun t =>
    { t with state := { t.state with transpose := n } }

theorem settingChange_retunes {t : Timeline} {key value : String} {f : Timeline → Timeline}
    (h : settingChange t key value = .ok f) : Retunes key f := by
  simp only [settingChange] at h
  split at h
  · exact change_of_read h fun o _ => .octave rfl o
  · exact change_of_read h fun _ _ => .deaf ⟨fun _ _ => rfl, fun _ => rfl⟩
  · split at h
    · cases h
    · exact change_of_read h fun _ _ => .deaf ⟨fun _ _ => rfl, fun _ => rfl⟩
  · exact change_of_read h fun _ _ => .deaf ⟨fun _ _ => rfl, fun _ => rfl⟩
  · exact change_of_read h fun n _ => .transpose rfl n
  · exact change_of_read h fun _ _ => .deaf ⟨fun _ _ => rfl, fun _ => rfl⟩
  · cases h

/-- How the second version differs from the first. -/
structure Version where
  /-- The key that it plays instead. -/
  key : Key → Key
  /-- So many octaves lower. -/
  gap : Int
  /-- A transposition that both rely on. -/
  fixed : Option Int
  /-- Gas that it has more. -/
  surplus : Nat
  stack : List Modifier
  stack' : List Modifier

namespace Version

/-- Inside one more ornament, and with these keys. -/
def under (m : Modifier) (key : Key → Key) (γ : Version) : Version :=
  { γ with key := key, stack := m :: γ.stack, stack' := m :: γ.stack' }

/-- Keys sound alike, and so do ornaments. Once the first version has lost, by a fault that is not asked
about, nothing is asked of the second one. -/
structure Faithful (lost : Fault → Prop) (γ : Version) : Prop where
  offset : ∀ k, (γ.key k).offset = k.offset
  pitch : ∀ {t t' : Timeline}, t.Doubles t' → Apart γ.gap γ.fixed t t' → ∀ octaves k,
    t.state.pitch (Modifier.substitution? γ.stack) (raise octaves k) =
      t'.state.pitch (Modifier.substitution? γ.stack') (raise octaves (γ.key k))
  audible : γ.stack.filter Modifier.audible = γ.stack'.filter Modifier.audible
  spent : γ.surplus ≠ 0 → ∀ offset, lost ⟨.exhausted, offset⟩

variable {lost : Fault → Prop} {γ : Version}

/-- An ornament plays on both sides alike. -/
theorem Faithful.under (faithful : γ.Faithful lost) {m : Modifier} (audible : m.audible) :
    (γ.under m γ.key).Faithful lost where
  offset := faithful.offset
  pitch doubles apart octaves k := by
    have skipped (stack : List Modifier) :
        Modifier.substitution? (m :: stack) = Modifier.substitution? stack := by
      cases m with
      | substitute => exact absurd audible Bool.false_ne_true
      | _ => rfl
    have pitch := faithful.pitch doubles apart octaves k
    rwa [← skipped γ.stack, ← skipped γ.stack'] at pitch
  audible := by
    simp only [Version.under, List.filter_cons_of_pos audible, faithful.audible]
  spent := faithful.spent

/-- Inside a template both versions play the same keys. -/
theorem Faithful.inside (faithful : γ.Faithful lost) (level : γ.gap = 0) (base : Nat) (octave : Int) :
    (γ.under (.substitute base octave) id).Faithful lost where
  offset _ := rfl
  pitch {t t'} doubles apart octaves k := by
    have same : t = t' := apart.same level doubles
    rw [same]
    rfl
  audible := faithful.audible
  spent := faithful.spent

/-- What an item may be if it is to be played in both versions. -/
def Permits (γ : Version) : Item → Prop
  | .group .. | .groupRef .. | .emoji .. => γ.key = id ∧ γ.gap = 0
  | .range _ (.userRange _) _ => γ.gap = 0
  | .setting s => s.key = "o" → γ.gap = 0
  | _ => True

/-- Where both versions play the same keys they may play anything. -/
theorem permits_all (same : γ.key = id) (level : γ.gap = 0) (item : Item) :
    item.Throughout γ.Permits := by
  intro inner _
  cases inner with
  | setting => exact fun _ => level
  | group | groupRef | emoji => exact ⟨same, level⟩
  | range _ kind => cases kind with
    | userRange => exact level
    | _ => trivial
  | _ => trivial

end Version

/-- Both versions have got to the same place. -/
structure Rendered (γ : Version) (live : List TimelineId) (s s' : Session) : Prop where
  gas : s'.gas.remaining = s.gas.remaining + γ.surplus
  definitions : s.definitions = s'.definitions
  fermata : s.fermata = s'.fermata
  graces : s.graces = s'.graces
  onsets : s.onsets = s'.onsets
  measuring : s.measuring = s'.measuring
  stack : s.modifiers = γ.stack
  stack' : s'.modifiers = γ.stack'
  arena : Doubled γ.gap γ.fixed live s.arena s'.arena
  forest : ∃ roots, Forest roots s.arena

def rendering (lost : Fault → Prop) (γ : Version) (live : List TimelineId) : Coupling Session where
  both := Rendered γ live
  alone fault _ := lost fault

/-- The faults of the second version that answer one of the first. -/
def Meets (lost : Fault → Prop) (fault fault' : Fault) : Prop := fault = fault' ∨ lost fault

/-- In these versions a step and its counterpart keep together. -/
abbrev Tracks (lost : Fault → Prop) (γ : Version) (live : List TimelineId) (p q : Play α) : Prop :=
  Follows (Meets lost) (rendering lost γ live) p q fun _ => rendering lost γ live

variable {lost : Fault → Prop} {γ : Version} {live : List TimelineId} {p q : Play α}
  {δ : β → Version} {l : β → List TimelineId}

/-- The versions that a step leads to may depend on what it answers. -/
abbrev leading (lost : Fault → Prop) (δ : β → Version) (l : β → List TimelineId) (b : β) :
    Coupling Session := rendering lost (δ b) (l b)

section Steps

/-- What is known of two runs that are at the same place is all that matters. -/
theorem follows_of {p q : Play β} (h : ∀ {s s'}, Rendered γ live s s' →
      Agree (Meets lost) (leading lost δ l) (p.run s) (q.run s')) :
    Follows (Meets lost) (rendering lost γ live) p q (leading lost δ l) := by
  refine ⟨fun _ _ => h, fun fault s' left => ?_⟩
  cases q.run s' with
  | ok => exact left
  | error => exact .inr left

theorem tracks_pure (a : α) : Tracks lost γ live (pure a) (pure a) :=
  Follows.pure (Q := fun _ => rendering lost γ live) a

theorem follows_failAt (offset : Nat) (cause : Cause) :
    Follows (Meets lost) (rendering lost γ live) (Step.failAt offset cause : Play β)
      (Step.failAt offset cause) (leading lost δ l) :=
  follows_of fun _ => .inl rfl

theorem follows_unless {c : Prop} [Decidable c] {offset : Nat} {cause : Cause}
    {f g : PUnit → Play β}
    (rest : Follows (Meets lost) (rendering lost γ live) (f ⟨⟩) (g ⟨⟩) (leading lost δ l)) :
    Follows (Meets lost) (rendering lost γ live) (if c then Step.failAt offset cause >>= f else f ⟨⟩)
      (if c then Step.failAt offset cause >>= g else g ⟨⟩) (leading lost δ l) := by
  split
  · exact follows_of fun _ => .inl rfl
  · exact rest

theorem follows_get {f g : Session → Play β} (rest : ∀ s s', Rendered γ live s s' →
      Follows (Meets lost) (rendering lost γ live) (f s) (g s') (leading lost δ l)) :
    Follows (Meets lost) (rendering lost γ live) (get >>= f) (get >>= g) (leading lost δ l) :=
  follows_of fun {s s'} rendered => (rest s s' rendered).both s s' rendered

theorem follows_timeline {f g : Timeline → Play β} (member : here ∈ live)
    (rest : ∀ t t' : Timeline, t.Doubles t' → Apart γ.gap γ.fixed t t' →
      Follows (Meets lost) (rendering lost γ live) (f t) (g t') (leading lost δ l)) :
    Follows (Meets lost) (rendering lost γ live) (timeline here >>= f) (timeline here >>= g)
      (leading lost δ l) :=
  follows_of fun {s s'} rendered =>
    (rest _ _ (rendered.arena.timeline here) (rendered.arena.apart here member)).both s s' rendered

theorem tracks_burn (faithful : γ.Faithful lost) (offset : Nat) :
    Tracks lost γ live (burn offset) (burn offset) :=
  follows_of fun {s s'} rendered => by
    have gas := rendered.gas
    rw [burn_run, burn_run]
    by_cases last : s.gas.remaining - 1 = 0
    · rw [if_pos last]
      by_cases equal : γ.surplus = 0
      · rw [if_pos (by omega)]
        exact .inl rfl
      · have excused := faithful.spent equal offset
        split
        · exact .inr excused
        · exact excused
    · rw [if_neg last, if_neg (by omega)]
      exact ⟨rfl, { rendered with gas := by dsimp only; omega }⟩

theorem tracks_modify {f g : Session → Session}
    (kept : ∀ {s s'}, Rendered γ live s s' → Rendered γ live (f s) (g s')) :
    Tracks lost γ live (modify f) (modify g) :=
  follows_of fun rendered => ⟨rfl, kept rendered⟩

theorem tracks_onArena {p q : Step Arena α}
    (resounds : Follows Eq (Arena.doubling γ.gap γ.fixed live) p q
      fun _ => Arena.doubling γ.gap γ.fixed live)
    (grown : ∀ {roots arena arena' a}, Forest roots arena → (∀ id ∈ live, id < arena.timelines.size) →
      p.run arena = .ok a arena' → ∃ roots, Forest roots arena') :
    Tracks lost γ live (onArena p) (onArena q) :=
  follows_of fun {s s'} rendered => by
    have agree := resounds.both _ _ rendered.arena
    obtain ⟨roots, forest⟩ := rendered.forest
    rw [onArena_run, onArena_run]
    cases first : p.run s.arena with
    | ok a arena => cases second : q.run s'.arena with
      | ok b arena' =>
        rw [first, second] at agree
        exact ⟨agree.1, { rendered with
          arena := agree.2, forest := grown forest rendered.arena.inside first }⟩
      | error fault' arena' =>
        rw [first, second] at agree
        exact agree.elim
    | error fault arena => cases second : q.run s'.arena with
      | ok b arena' =>
        rw [first, second] at agree
        exact agree.elim
      | error fault' arena' =>
        rw [first, second] at agree
        exact .inl agree

theorem tracks_update {f : Timeline → α × Timeline} (deaf : Timeline.DeafAnswer f)
    (family : ∀ t, (f t).2.children = t.children ∧ (f t).2.voices = t.voices) :
    Tracks lost γ live (update here f) (update here f) :=
  tracks_onArena (Arena.resounds_update deaf) fun forest _ ran => by
    rw [Arena.update_run] at ran
    cases ran
    exact ⟨_, forest.adjust (family _).1 (family _).2⟩

theorem tracks_adjust {f : Timeline → Timeline} (deaf : Timeline.Deaf f)
    (family : ∀ t, (f t).children = t.children ∧ (f t).voices = t.voices) :
    Tracks lost γ live (adjust here f) (adjust here f) :=
  tracks_modify fun rendered => by
    obtain ⟨roots, forest⟩ := rendered.forest
    exact { rendered with
      arena := rendered.arena.deaf deaf here
      forest := ⟨roots, forest.adjust (family _).1 (family _).2⟩ }

theorem tracks_shiftOctave (octaves : Int) :
    Tracks lost γ live (shiftOctave here octaves) (shiftOctave here octaves) :=
  tracks_modify fun {s s'} rendered => by
    obtain ⟨roots, forest⟩ := rendered.forest
    refine { rendered with arena := rendered.arena.adjust ?_ fun member => ?_
                           forest := ⟨roots, forest.adjust rfl rfl⟩ }
    · obtain ⟨octave, own⟩ := rendered.arena.exists_octave here
      rw [own]
      exact rfl
    · have apart := rendered.arena.apart here member
      refine ⟨?_, apart.transpose⟩
      dsimp only
      rw [apart.octave]
      omega

theorem tracks_definitions {step : Step Definitions α} :
    Tracks lost γ live (onDefinitions step) (onDefinitions step) :=
  follows_of fun {s s'} rendered => by
    have run (s : Session) : (onDefinitions step).run s = _ := Step.within_run ..
    rw [run, run, rendered.definitions]
    cases step.run s'.definitions with
    | ok a d => exact ⟨rfl, { rendered with definitions := rfl }⟩
    | error fault d => exact .inl rfl

theorem tracks_beginTuplet (offset size : Nat) :
    Tracks lost γ live (onTimeline here (Timeline.beginTuplet offset size))
      (onTimeline here (Timeline.beginTuplet offset size)) :=
  tracks_onArena (Arena.resounds_beginTuplet offset size) fun {roots arena arena' unit} forest _ ran => by
    rw [Arena.on_run] at ran
    split at ran
    · next begun =>
      cases ran
      exact ⟨_, forest.onward (Timeline.beginTuplet_onward begun).1⟩
    · exact nomatch ran

theorem tracks_tie (member : here ∈ live) (offset : Nat) :
    Tracks lost γ live (onArena (Arena.tie here offset)) (onArena (Arena.tie here offset)) :=
  tracks_onArena (Arena.resounds_tie here offset) fun forest inside ran =>
    ⟨_, forest.tie (inside here member) ran⟩

theorem tracks_rest : Tracks lost γ live (update here Timeline.rest) (update here Timeline.rest) :=
  tracks_update Timeline.deaf_rest fun t => ⟨(Timeline.Onward.rest t).children, (Timeline.Onward.rest t).voices⟩

/-- A child is claimed in both versions, and is as far apart as its parent. -/
theorem follows_claim (member : here ∈ live) (offset index : Nat) :
    Follows (Meets lost) (rendering lost γ live) (onArena (Arena.childAt here offset (.branch index)))
      (onArena (Arena.childAt here offset (.branch index))) fun child => rendering lost γ (child :: live) := by
  refine follows_of (δ := fun _ => γ) (l := (· :: live)) fun {s s'} rendered => ?_
  have agree := (Arena.resounds_childAt member offset (.branch index)).both _ _ rendered.arena
  obtain ⟨roots, forest⟩ := rendered.forest
  have inside := rendered.arena.inside here member
  rw [onArena_run, onArena_run]
  cases first : (Arena.childAt here offset (.branch index)).run s.arena with
  | error fault arena =>
    cases second : (Arena.childAt here offset (.branch index)).run s'.arena with
    | ok child arena' =>
      rw [first, second] at agree
      exact agree.elim
    | error fault' arena' =>
      rw [first, second] at agree
      exact .inl agree
  | ok child arena =>
    cases second : (Arena.childAt here offset (.branch index)).run s'.arena with
    | error fault' arena' =>
      rw [first, second] at agree
      exact agree.elim
    | ok child' arena' =>
      rw [first, second] at agree
      obtain ⟨rfl, doubled⟩ := agree
      obtain ⟨forest, -, present, -⟩ := Arena.claimed_branch forest inside first
      obtain ⟨own, -⟩ := Arena.alike_claimed inside present first
      obtain ⟨own', -⟩ := Arena.alike_claimed (rendered.arena.size.symm ▸ inside)
        (doubled.size.symm ▸ present) second
      have parent := rendered.arena.apart here member
      have apart : Apart γ.gap γ.fixed (arena.timeline child) (arena'.timeline child) := by
        refine ⟨?_, fun n relied => ?_⟩
        · rw [own.state, own'.state, parent.octave]
        · rw [own.state, parent.transpose n relied]
      exact ⟨rfl, { rendered with
        arena := { doubled with
          apart := List.forall_mem_cons.mpr ⟨apart, doubled.apart⟩
          inside := List.forall_mem_cons.mpr ⟨present, doubled.inside⟩ }
        forest := ⟨roots, forest⟩ }⟩

theorem rendering_fewer {fewer : List TimelineId} (within : fewer ⊆ live) :
    (rendering lost γ live).Within (rendering lost γ fewer) :=
  ⟨fun rendered => { rendered with
    arena := { rendered.arena with
      apart := fun id listed => rendered.arena.apart id (within listed)
      inside := fun id listed => rendered.arena.inside id (within listed) } }, id⟩

/-- Settings that change what the versions rely on are left out. -/
theorem tracks_applySetting (member : here ∈ live) (s : Setting) (offset : Nat)
    (octave : s.key = "o" → γ.gap = 0) (transpose : s.key = "t" → γ.fixed = none) :
    Tracks lost γ live (applySetting here s offset) (applySetting here s offset) := by
  refine follows_timeline member fun t t' doubles _ => ?_
  have tuplet : t.tuplet = t'.tuplet := (congrArg Timeline.tuplet doubles :)
  rw [settingChange_congr tuplet]
  cases change : settingChange t' s.key s.value with
  | error cause => exact follows_failAt offset cause
  | ok f =>
    have family (t : Timeline) := ((settingChange_tweak change).onward t).1
    refine tracks_modify fun {s s'} rendered => ?_
    obtain ⟨roots, forest⟩ := rendered.forest
    refine { rendered with
      arena := ?_
      forest := ⟨roots, forest.adjust (family _).children (family _).voices⟩ }
    have own := rendered.arena.timeline here
    have apart := rendered.arena.apart here member
    cases settingChange_retunes change with
    | deaf deaf => exact rendered.arena.deaf deaf here
    | octave named o =>
      refine rendered.arena.adjust (congrArg (Timeline.inOctave o) own :) fun _ => ⟨?_, apart.transpose⟩
      rw [octave named]
      exact (Int.add_zero o).symm
    | transpose named n =>
      refine rendered.arena.adjust ?_ fun _ => ⟨apart.octave, fun m relied => ?_⟩
      · exact (congrArg (fun t : Timeline => { t with state := { t.state with transpose := n } }) own :)
      · rw [transpose named] at relied
        exact nomatch relied

theorem tracks_onsets (f : Option (Nat × Nat) → Option (Nat × Nat)) :
    Tracks lost γ live (modify fun s => { s with onsets := f s.onsets })
      (modify fun s => { s with onsets := f s.onsets }) :=
  tracks_modify fun rendered => { rendered with onsets := congrArg f rendered.onsets }

theorem tracks_takeGraces : Tracks lost γ live takeGraces takeGraces :=
  follows_of fun rendered => ⟨rendered.graces, { rendered with graces := rfl }⟩

theorem tracks_stage (member : here ∈ live) (pitches : List Nat) :
    Tracks lost γ live (stage here pitches) (stage here pitches) := by
  refine follows_timeline member fun t t' doubles _ => ?_
  have unit : t.state.quantization = t'.state.quantization :=
    (congrArg (·.state.quantization) doubles :)
  have velocity : t.state.velocity = t'.state.velocity := (congrArg (·.state.velocity) doubles :)
  dsimp only
  rw [unit, velocity]
  refine tracks_takeGraces.bind fun graces => ?_
  cases graces with
  | none => exact tracks_pure _
  | some waiting => exact follows_unless (tracks_pure _)

theorem tracks_commit (faithful : γ.Faithful lost) (member : here ∈ live) (offset : Nat)
    (pitches : List Nat) (arpeggio : Bool) : Tracks lost γ live
      (commit here offset pitches arpeggio) (commit here offset pitches arpeggio) := by
  refine follows_timeline member fun t t' doubles _ => ?_
  have position : t.position = t'.position := (congrArg Timeline.position doubles :)
  dsimp only
  rw [position]
  refine (tracks_stage member pitches).bind fun plain => ?_
  refine follows_get fun s s' rendered => ?_
  have staged : Modifier.applyAll s.modifiers t'.position plain =
      Modifier.applyAll s'.modifiers t'.position plain := by
    rw [rendered.stack, rendered.stack', ← Modifier.applyAll_audible γ.stack, faithful.audible,
      Modifier.applyAll_audible]
  have interval : Modifier.arpeggioInterval s.modifiers = Modifier.arpeggioInterval s'.modifiers := by
    rw [rendered.stack, rendered.stack', ← Modifier.arpeggioInterval_audible γ.stack,
      faithful.audible, Modifier.arpeggioInterval_audible]
  rw [staged, interval]
  refine (tracks_onsets fun onsets => (Draft.onsets t'.position
    (Modifier.applyAll s'.modifiers t'.position plain).notes).foldl widen onsets).bind fun _ => ?_
  cases arpeggio with
  | false => exact tracks_update (Timeline.deaf_commit ..) fun t =>
      ⟨(Timeline.Onward.commit offset _ t).children, (Timeline.Onward.commit offset _ t).voices⟩
  | true => exact tracks_onArena (Arena.resounds_commitArpeggio member ..) fun forest inside ran =>
      ⟨_, forest.commitArpeggio (inside here member) ran⟩

theorem follows_push (m : Modifier) (key : Key → Key) : Follows (Meets lost) (rendering lost γ live)
    (pushModifier m) (pushModifier m) fun _ => rendering lost (γ.under m key) live :=
  follows_of (δ := fun _ => γ.under m key) (l := fun _ => live) fun rendered =>
    ⟨rfl, { rendered with
      stack := congrArg (m :: ·) rendered.stack
      stack' := congrArg (m :: ·) rendered.stack' }⟩

theorem follows_pop {m : Modifier} {key : Key → Key} :
    Follows (Meets lost) (rendering lost (γ.under m key) live) popModifier popModifier
      fun _ => rendering lost γ live :=
  follows_of (δ := fun _ => γ) (l := fun _ => live) fun rendered =>
    ⟨rfl, { rendered with
      stack := congrArg List.tail rendered.stack
      stack' := congrArg List.tail rendered.stack' }⟩

end Steps

section Pitches

theorem tracks_keyPitch (faithful : γ.Faithful lost) (member : here ∈ live)
    (octaves : Int) (k : Key) : Tracks lost γ live
    (keyPitch here (raise octaves k)) (keyPitch here (raise octaves (γ.key k))) :=
  follows_of fun {s s'} rendered => by
    have pitch := faithful.pitch (rendered.arena.timeline here) (rendered.arena.apart here member) octaves k
    rw [← rendered.stack, ← rendered.stack'] at pitch
    rw [keyPitch_run, keyPitch_run, pitch]
    have offset : (raise octaves (γ.key k)).offset = (raise octaves k).offset := faithful.offset k
    rw [offset]
    cases (s'.arena.timeline here).state.pitch (Modifier.substitution? s'.modifiers)
      (raise octaves (γ.key k)) with
    | ok pitch => exact ⟨rfl, rendered⟩
    | error cause => exact .inl rfl

theorem tracks_chordPitches (faithful : γ.Faithful lost) (member : here ∈ live)
    (octaves : Int) (chord : Chord) : Tracks lost γ live
    (chordPitches here octaves chord) (chordPitches here octaves (chord.mapKeys γ.key)) := by
  have empty : (chord.mapKeys γ.key).keys.isEmpty = chord.keys.isEmpty := List.isEmpty_map
  unfold chordPitches
  rw [empty]
  refine follows_unless ?_
  rw [Chord.mapKeys, List.mapM_map]
  exact Follows.mapM fun key _ => tracks_keyPitch faithful member octaves key

mutual

theorem tracks_gracePitches (faithful : γ.Faithful lost) (member : here ∈ live)
    (octaves : Int) : (item : Item) → Tracks lost γ live
    (gracePitches here octaves item) (gracePitches here octaves (item.mapKeys γ.key))
  | .key k => (tracks_keyPitch faithful member octaves k).bind fun pitch => tracks_pure [[pitch]]
  | .chord c => (tracks_chordPitches faithful member octaves c).bind fun pitches => tracks_pure [pitches]
  | .range offset kind body => match kind with
    | .octaveUp => tracks_allGracePitches faithful member (octaves + 1) body
    | .octaveDown => tracks_allGracePitches faithful member (octaves - 1) body
    | .tuplet _ | .sustain | .userRange _ => follows_failAt offset _
  | .setting _ | .ornament .. | .tie _ | .breakpoint .. | .graced .. | .group .. | .groupRef ..
  | .parallel .. | .emoji .. | .rest _ => follows_failAt _ _

theorem tracks_allGracePitches (faithful : γ.Faithful lost) (member : here ∈ live)
    (octaves : Int) : (items : List Item) → Tracks lost γ live
    (allGracePitches here octaves items) (allGracePitches here octaves (mapAllKeys γ.key items))
  | [] => tracks_pure []
  | item :: rest => (tracks_gracePitches faithful member octaves item).bind fun pitches =>
    (tracks_allGracePitches faithful member octaves rest).bind fun more => tracks_pure (pitches ++ more)

end

theorem tracks_prepareGraces (faithful : γ.Faithful lost) (member : here ∈ live)
    (offset : Nat) (items : List Item) : Tracks lost γ live
    (prepareGraces here offset items) (prepareGraces here offset (mapAllKeys γ.key items)) :=
  (tracks_allGracePitches faithful member 0 items).bind fun _ =>
    follows_unless (tracks_modify fun rendered => { rendered with graces := rfl })

end Pitches

theorem tracks_requireNoGraces : Tracks lost γ live requireNoGraces requireNoGraces := by
  refine tracks_takeGraces.bind fun graces => ?_
  cases graces with
  | none => exact tracks_pure _
  | some waiting => exact follows_failAt waiting.1 _

end Session
end TextScore
