import TextScore.Proofs.Coupling
import TextScore.Session.Perform

/-! Two performances side by side, each on a timeline of its own. A scene says what is known while
something is performed: on which timelines, under which ornaments, how far the cursors have got. The
small steps of a performance lead from one scene to another, and what they keep is all that a
property of whole performances rests on. -/
namespace TextScore

/-- What items may do to a timeline at once, other than playing. -/
inductive Timeline.Change : (Timeline → Timeline) → Prop
  | state (f : Performance → Performance) : Change fun t => { t with state := f t.state }
  | instrument (program : Nat) (bank : Option Nat) : Change (setInstrument program bank)
  | controller (controller value : Nat) : Change (setController controller value)
  | endTuplet (unit : Nat) : Change (endTuplet unit)
  | bend (position : Nat) (value : Binary64) : Change (addBend position value)
  | bends (bends : List (Nat × Binary64)) : Change (Session.addBends bends)
  | release (base : Nat) : Change (release base)

/-- A setting does to a timeline what its value says, whichever it is. -/
theorem Session.change_of_read {α : Type} {read : Option α} {change : α → Timeline → Timeline}
    {cause : Cause} {f : Timeline → Timeline} {p : (Timeline → Timeline) → Prop}
    (h : (match read with
      | some a => Except.ok (change a)
      | none => Except.error cause) = .ok f)
    (all : ∀ a, read = some a → p (change a)) : p f := by
  cases read with
  | some a => exact Except.ok.inj h ▸ all a rfl
  | none => exact nomatch h

/-- A change that leaves alone which children are in use. -/
structure Timeline.Tweak (f : Timeline → Timeline) : Prop where
  change : Change f
  branchBase : ∀ t, (f t).branchBase = t.branchBase

theorem Session.settingChange_tweak {t : Timeline} {key value : String} {f : Timeline → Timeline}
    (h : settingChange t key value = .ok f) : Timeline.Tweak f := by
  have tweak {α : Type} {read : Option α} {change : α → Timeline → Timeline} {cause : Cause}
      (h : (match read with
        | some a => Except.ok (change a)
        | none => Except.error cause) = .ok f)
      (all : ∀ a, Timeline.Tweak (change a)) : Timeline.Tweak f := change_of_read h fun a _ => all a
  simp only [settingChange] at h
  split at h
  · exact tweak h fun o => ⟨.state fun state => { state with octave := o }, fun _ => rfl⟩
  · exact tweak h fun _ => ⟨.instrument .., fun _ => rfl⟩
  · split at h
    · exact nomatch h
    · exact tweak h fun q => ⟨.state fun state => { state with quantization := q }, fun _ => rfl⟩
  · exact tweak h fun _ => ⟨.controller .., fun _ => rfl⟩
  · exact tweak h fun n => ⟨.state fun state => { state with transpose := n }, fun _ => rfl⟩
  · exact tweak h fun v => ⟨.state fun state => { state with velocity := v }, fun _ => rfl⟩
  · exact nomatch h

theorem Session.settingChange_change {t : Timeline} {key value : String} {f : Timeline → Timeline}
    (h : settingChange t key value = .ok f) : Timeline.Change f := (settingChange_tweak h).change

theorem Session.settingChange_congr {t t' : Timeline} (same : t.tuplet = t'.tuplet)
    (key value : String) : settingChange t key value = settingChange t' key value := by
  have tuplets : t.inTuplet = t'.inTuplet := congrArg Option.isSome same
  simp only [settingChange, tuplets]

/-- Why a setting may be refused. -/
theorem Session.settingChange_error {t : Timeline} {key value : String} {cause : Cause}
    (refused : settingChange t key value = .error cause) :
    cause = .malformedSetting key value ∨ cause = .quantizationInTuplet ∨
      cause = .unknownSetting key := by
  have malformed {α : Type} {found : Option α} {change : α → Timeline → Timeline}
      (refused : (match found with
        | some a => Except.ok (change a)
        | none => Except.error (Cause.malformedSetting key value)) = .error cause) :
      cause = .malformedSetting key value := by
    cases found with
    | some a => exact nomatch refused
    | none => exact (Except.error.inj refused).symm
  simp only [settingChange] at refused
  split at refused
  · exact .inl (malformed refused)
  · exact .inl (malformed refused)
  · split at refused
    · exact .inr (.inl (Except.error.inj refused).symm)
    · exact .inl (malformed refused)
  · exact .inl (malformed refused)
  · exact .inl (malformed refused)
  · exact .inl (malformed refused)
  · exact .inr (.inr (Except.error.inj refused).symm)

/-- What a performance reads of a timeline between its small steps. -/
structure Timeline.Alike (t t' : Timeline) : Prop where
  position : t.position = t'.position
  state : t.state = t'.state
  tuplet : t.tuplet = t'.tuplet

/-- What items ask of the definitions. -/
inductive Definitions.Request : {α : Type} → Step Definitions α → Prop
  | declareGroup (id : Nat) (body : List Item) (offset : Nat) : Request (declareGroup id body offset)
  | group (id offset : Nat) : Request (group id offset)
  | template (name : String) (offset : Nat) : Request (template name offset)
  | emoji (symbol : String) (offset : Nat) : Request (emoji symbol offset)

namespace Session
open Step (Follows)

/-- What two performances read alike, each on its timeline. -/
structure Consonant (here here' : TimelineId) (s s' : Session) : Prop where
  timeline : (s.arena.timeline here).Alike (s'.arena.timeline here')
  definitions : s.definitions = s'.definitions
  fermata : s.fermata = s'.fermata
  substitution : Modifier.substitution? s.modifiers = Modifier.substitution? s'.modifiers
  graces : s.graces = s'.graces

/-- Small steps that move no cursor. -/
inductive Gesture : {α : Type} → (TimelineId → Play α) → Prop
  | burn (offset : Nat) : Gesture fun _ => burn offset
  | change {f : Timeline → Timeline} (tweak : Timeline.Tweak f) : Gesture fun here => adjust here f
  | beginTuplet (offset size : Nat) :
    Gesture fun here => onTimeline here (Timeline.beginTuplet offset size)
  | definitions {α : Type} {step : Step Definitions α} (request : Definitions.Request step) :
    Gesture fun _ => onDefinitions step
  | restore (definitions : Definitions) (fermata : Binary64) : Gesture fun _ =>
    modify fun s => { s with definitions := definitions, fermata := fermata }

/-- Steps that move the cursor of a timeline by the ticks that they answer. -/
inductive Sounding : (TimelineId → Play Nat) → Prop
  | rest : Sounding fun here => update here Timeline.rest
  | tie (offset : Nat) : Sounding fun here => onArena (Arena.tie here offset)
  | commit (offset : Nat) (pitches : List Nat) (arpeggio : Bool) (some : pitches ≠ []) :
    Sounding fun here => commit here offset pitches arpeggio

/-- An empty chord is refused. -/
theorem chordPitches_some {here : TimelineId} {octaves : Int} {chord : Chord} {pitches : List Nat}
    {s t : Session} (done : (chordPitches here octaves chord).run s = .ok pitches t) :
    pitches ≠ [] := by
  unfold chordPitches at done
  obtain ⟨some, done⟩ := Step.unless_ok done
  cases keys : chord.keys with
  | nil => exact absurd (congrArg List.isEmpty keys) some
  | cons key keys' =>
    rw [keys, List.mapM_cons] at done
    obtain ⟨pitch, _, -, done⟩ := Step.bind_ok done
    obtain ⟨rest, _, -, done⟩ := Step.bind_ok done
    cases done
    exact List.cons_ne_nil pitch rest

/-- Every item but a breakpoint burns gas and looks at the cursor first. -/
def opened (here : TimelineId) (offset : Nat) (p : Play Nat) : Play Nat := do
  burn offset
  if longest < (← timeline here).position then Step.failAt offset .songTooLong
  p

/-- What a key of an invocation plays once it has burnt gas: the template, with the key in the place
of placeholders. -/
def invokeKey (inner : Performer) (here : TimelineId) (references : Nat) (template : List Item)
    (k : Key) : Play Nat := do
  let base ← keyPitch here k
  let octave := (← timeline here).state.octave
  pushModifier (.substitute base octave)
  let ticks ← performAll inner here references template
  popModifier
  return ticks

/-- The copy on which a dynamics span is measured. -/
def measured (s : Session) : Session := { s with onsets := none, measuring := true }

theorem measure_run (inner : Performer) (here : TimelineId) (references offset : Nat)
    (body : List Item) (s : Session) :
    (measure inner here references offset body).run s =
      match (performAll inner here references body).run s.measured with
      | .error fault _ => .error fault s
      | .ok _ t => match t.onsets with
        | some bounds => .ok bounds s
        | none => .error ⟨.dynamicsWithoutNote, offset⟩ s := rfl

theorem perform_zero (here : TimelineId) (references : Nat) (item : Item) (s : Session) :
    ∃ t, (perform 0 here references item).run s = .error ⟨.exhausted, item.offset⟩ t := by
  by_cases last : s.gas.remaining - 1 = 0 <;>
    simp only [perform, EStateM.run_bind, burn_run, last, reduceIte]
  · exact ⟨_, rfl⟩
  · exact ⟨_, rfl⟩

/-- How what is known about two performances goes on as they do. -/
class Scene (Γ : Type) where
  /-- So many ticks later. -/
  after : Nat → Γ → Γ
  /-- Inside one more ornament. -/
  under : Modifier → Γ → Γ
  /-- On the copies that are measured. -/
  copied : Γ → Γ
  /-- While graces may wait for their note. -/
  graced : Γ → Γ
  /-- Only the second performance is a measurement. -/
  mixed : Γ → Prop
  after_zero : ∀ γ, after 0 γ = γ
  after_add : ∀ m n γ, after (m + n) γ = after n (after m γ)

open Scene

section
variable {Γ : Type} [Scene Γ] (meets : Fault → Fault → Prop)
  (K : (here here' : TimelineId) → Γ → Coupling Session)

/-- States of `P` belong to a scene on these timelines, and that scene closes in a certain way. -/
structure Enters (P : Coupling Session) (here here' : TimelineId) (closes : Γ → Prop) : Prop where
  both : ∀ {s s'}, P.both s s' → ∃ γ, closes γ ∧ (K here here' γ).both s s'
  alone : ∀ {fault s'}, P.alone fault s' → ∃ γ, closes γ ∧ (K here here' γ).alone fault s'

/-- A parallel passage of so many branches besides the first, step by step: its slots are reserved, and
children claimed for them one after the other; the first branch is played while they wait, and then
each of them plays its own. The lists hold the children of both performances. -/
structure Fork (P : Coupling Session) (here here' : TimelineId) (count : Nat)
    (opening waiting : Nat → List (TimelineId × TimelineId) → Coupling Session)
    (Q : Nat → Coupling Session) : Prop where
  reserve : Follows meets P (update here (Timeline.reserve count))
    (update here' (Timeline.reserve count)) fun base => opening base []
  claim : ∀ {α : Type} {base : Nat} {pairs : List (TimelineId × TimelineId)} {offset : Nat}
    {f g : TimelineId → Play α} {R : α → Coupling Session}, pairs.length < count →
    (∀ child child', Follows meets (opening base (pairs ++ [(child, child')])) (f child) (g child')
      R) →
    Follows meets (opening base pairs)
      (onArena (Arena.childAt here offset (.branch (base + pairs.length))) >>= f)
      (onArena (Arena.childAt here' offset (.branch (base + pairs.length))) >>= g) R
  first : ∀ {base : Nat} {pairs : List (TimelineId × TimelineId)}, pairs.length = count →
    Enters K (opening base pairs) here here' fun γ => ∀ ticks,
      Follows meets (K here here' (after ticks γ)) (adjust here (Timeline.release base))
        (adjust here' (Timeline.release base)) fun _ => waiting ticks pairs
  other : ∀ {ticks : Nat} {pair : TimelineId × TimelineId} {pairs : List (TimelineId × TimelineId)},
    Enters K (waiting ticks (pair :: pairs)) pair.1 pair.2 fun γ =>
      (K pair.1 pair.2 (after ticks γ)).Within (waiting ticks pairs)
  done : ∀ {ticks : Nat}, (waiting ticks []).Within (Q ticks)

/-- Whatever item is performed in a scene, one performer follows the other. -/
def Performer.Accompanies (inner inner' : Performer) : Prop :=
  ∀ ⦃here here' γ⦄ references item, Follows meets (K here here' γ) (inner here references item)
    (inner' here' references item) fun ticks => K here here' (after ticks γ)

/-- One performer follows the other through dynamics, which are measured on a copy first. -/
def Performer.Sways (inner inner' : Performer) : Prop :=
  ∀ ⦃here here' γ⦄ references offset direction target body, Follows meets (K here here' γ)
    (performDynamics inner here references offset direction target body)
    (performDynamics inner' here' references offset direction target body)
    fun ticks => K here here' (after ticks γ)

/-- What the small steps of two performances keep. -/
structure Ensemble : Prop where
  fails : ∀ {fault}, fault.cause ≠ .childAheadOfParent → meets fault fault
  /-- Performing reads no text, so none ends. -/
  loose : ∀ {here here' γ fault fault' s}, (K here here' γ).alone fault s →
    fault'.cause ≠ .unexpectedEnd → meets fault fault'
  consonant : ∀ {here here' γ s s'}, (K here here' γ).both s s' → Consonant here here' s s'
  gesture : ∀ {here here' γ α} {p : TimelineId → Play α}, Gesture p →
    Follows meets (K here here' γ) (p here) (p here') fun _ => K here here' γ
  sound : ∀ {here here' γ} {p : TimelineId → Play Nat}, Sounding p →
    Follows meets (K here here' γ) (p here) (p here') fun ticks => K here here' (after ticks γ)
  push : ∀ {here here' γ} (m : Modifier),
    Follows meets (K here here' γ) (pushModifier m) (pushModifier m) fun _ => K here here' (under m γ)
  pop : ∀ {here here' γ m ticks}, Follows meets (K here here' (after ticks (under m γ))) popModifier
    popModifier fun _ => K here here' (after ticks γ)
  prepare : ∀ {here here' γ} (waiting : Nat × List (List Nat)), Follows meets (K here here' γ)
    (modify fun s => { s with graces := some waiting })
    (modify fun s => { s with graces := some waiting }) fun _ => K here here' (graced γ)
  graceful : ∀ {here here' γ}, (K here here' γ).Within (K here here' (graced γ))
  clear : ∀ {here here' γ ticks}, Follows meets (K here here' (after ticks (graced γ)))
    (modify fun s => { s with graces := none }) (modify fun s => { s with graces := none })
    fun _ => K here here' (after ticks γ)
  fork : ∀ here here' γ count, ∃ opening waiting, Fork meets K (K here here' γ) here here' count
    opening waiting fun ticks => K here here' (after ticks γ)

/-- What is kept on the copies that are measured, too. -/
structure Duet : Prop extends Ensemble meets K where
  lone : ∀ {here here' γ fault s}, (K here here' γ).alone fault s →
    (K here here' (copied γ)).alone fault s.measured ∨ ∀ fault', meets fault fault'
  measuring : ∀ {here here' γ s s'}, ¬ mixed γ → (K here here' γ).both s s' →
    s.measuring = s'.measuring
  copy : ∀ {here here' γ s s'}, ¬ mixed γ → (K here here' γ).both s s' →
    (K here here' (copied γ)).both s.measured s'.measured
  copyAlone : ∀ {here here' γ ticks fault s s' t'}, ¬ mixed γ → (K here here' γ).both s s' →
    (K here here' (after ticks (copied γ))).alone fault t' → (K here here' γ).alone fault s'
  onsets : ∀ {here here' γ ticks s s'}, (K here here' (after ticks (copied γ))).both s s' →
    s.onsets = s'.onsets
  solo : ∀ {here here' γ inner inner'}, mixed γ → Performer.Accompanies meets K inner inner' →
    ∀ references offset direction target body, Follows meets (K here here' γ)
      (performDynamics inner here references offset direction target body)
      (performDynamics inner' here' references offset direction target body)
      fun ticks => K here here' (after ticks γ)

end

end Session
end TextScore
