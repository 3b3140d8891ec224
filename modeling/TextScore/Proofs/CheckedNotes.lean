import TextScore.Proofs.CheckedTimelines

/-! Notes and settings with every operation checked. Graces take up less than the note that they
precede, no length is divided by zero, and the timeline of an item is always there. -/
namespace TextScore
open Checked

namespace Duration

/-- A denominator of zero is turned down before anything is divided by it. -/
def divided? (denominator : Nat) : Option (Option Nat) :=
  let whole := 4 * ticksPerBeat
  if denominator = 0 then some none
  else do
    let part ← remainder? whole denominator
    let ticks ← quotient? whole denominator
    return if part = 0 then some ticks else none

/-- A fraction of a note with its dots. -/
def dotted? (dots : Nat → Nat) (text : List Char) : Option (Option Nat) :=
  match Text.natural? greatest (String.ofList text) with
  | none => some none
  | some denominator => do return (← divided? denominator).map dots

def read? (text : String) : Option (Option Nat) :=
  match text.toList with
  | 'T' :: rest => some (Text.natural? greatest (String.ofList rest))
  | 'd' :: 'd' :: rest => dotted? (fun n => n + n / 2 + n / 4) rest
  | 'd' :: rest => dotted? (fun n => n + n / 2) rest
  | rest => dotted? id rest

theorem divided?_eq (denominator : Nat) : divided? denominator = some (fraction? denominator) := by
  unfold divided? fraction?
  by_cases zero : denominator = 0
  · subst zero
    rfl
  · simp only [zero, remainder?_eq zero, quotient?_eq zero, Option.bind_eq_bind, Option.bind_some,
      Option.pure_def, ne_eq, not_false_eq_true, true_and, if_false]

theorem dotted?_eq (dots : Nat → Nat) (text : List Char) : dotted? dots text =
    some (((Text.natural? greatest (String.ofList text)).bind fraction?).map dots) := by
  unfold dotted?
  cases Text.natural? greatest (String.ofList text) with
  | none => rfl
  | some denominator =>
    simp only [divided?_eq, Option.bind_eq_bind, Option.bind_some, Option.pure_def]

theorem read?_eq (text : String) : read? text = some (ofText? text) := by
  unfold read? ofText?
  split <;> simp [*, dotted?_eq]

end Duration

namespace Session
variable {α : Type}

def onArena? (x : Checked Arena α) : Checked Session α := OptionT.mk (onArena x.run)

def timeline? (here : TimelineId) : Checked Session Timeline := do
  answer (← get).arena.timelines[here]?

/-- A step on a timeline that must be there. -/
def at? (here : TimelineId) (p : Play α) : Checked Session α := do
  require (here < (← get).arena.timelines.size)
  Checked.plain p

def adjust? (here : TimelineId) (f : Timeline → Timeline) : Checked Session PUnit :=
  Checked.change fun s => do return { s with arena := ← s.arena.adjust? here fun t => some (f t) }

def update? (here : TimelineId) (change : Timeline → Option (α × Timeline)) : Checked Session α :=
  onArena? (Arena.update? here change)

/-- A note of one unit without the graces that wait for it. -/
def stage? (here : TimelineId) (pitches : List Nat) : Checked Session Staged := do
  let state := (← timeline? here).state
  let main (duration : Nat) : Draft := ⟨pitches, duration, state.velocity, false⟩
  match ← Checked.plain takeGraces with
  | none => return ⟨[main state.quantization], 0⟩
  | some (offset, graces) =>
    let length := Modifier.graceLength * graces.length
    if state.quantization ≤ length then Checked.failAt offset .graceTooLong
    let drafts := graces.map fun pitches => ⟨pitches, Modifier.graceLength, state.velocity, true⟩
    let left ← answer (minus? state.quantization length)
    return ⟨drafts ++ [main left], 0⟩

def commit? (here : TimelineId) (offset : Nat) (pitches : List Nat) (arpeggio : Bool) :
    Checked Session Nat := do
  let onset := (← timeline? here).position
  let plain ← stage? here pitches
  let modifiers := (← get).modifiers
  let staged ← answer (Modifier.applyAll? modifiers onset plain)
  modify fun s => { s with onsets := (Draft.onsets onset staged.notes).foldl widen s.onsets }
  if arpeggio then
    onArena? (Arena.commitArpeggio? here offset staged (Modifier.arpeggioInterval modifiers))
  else update? here (Timeline.commit? offset staged)

/-- Divisions are needed for lengths of notes only. -/
def settingChange? (t : Timeline) (key value : String) :
    Option (Except Cause (Timeline → Timeline)) :=
  if key = "q" ∧ !t.inTuplet then do
    let length := (← Duration.read? value).filter fun q => 1 ≤ q ∧ q ≤ 64 * Duration.ticksPerBeat
    return match length with
      | some q => .ok fun t => { t with state := { t.state with quantization := q } }
      | none => .error (.malformedSetting key value)
  else some (settingChange t key value)

def applySetting? (here : TimelineId) (s : Setting) (offset : Nat) : Checked Session Unit := do
  match ← answer (settingChange? (← timeline? here) s.key s.value) with
  | .ok change => adjust? here change
  | .error cause => Checked.failAt offset cause

section
variable {β : Type} {P : Session → Prop} {here : TimelineId}

theorem agrees_onArena {x : Checked Arena α} {p : Step Arena α} {R : Arena → Prop}
    (agrees : Agrees R x p) (before : ∀ {s}, P s → R s.arena) :
    Agrees P (onArena? x) (onArena p) := fun s holds => by
  have known := agrees (before holds)
  have inside : (onArena? x).run.run s = _ := onArena_run ..
  rw [inside, onArena_run, known]
  cases p.run s.arena <;> rfl

theorem agrees_timeline {s : Session} {f : Timeline → Checked Session β} {g : Timeline → Play β}
    (inside : here < s.arena.timelines.size)
    (rest : Agrees (fun t => t = s) (f (s.arena.timeline here)) (g (s.arena.timeline here))) :
    Agrees (fun t => t = s) (timeline? here >>= f) (timeline here >>= g) := by
  rintro s rfl
  have started : (timeline? here >>= f).run.run s =
    (answer s.arena.timelines[here]? >>= f).run.run s := rfl
  rw [started, Arena.getElem?_timelines inside]
  exact rest rfl

theorem agrees_at (inside : ∀ {s}, P s → here < s.arena.timelines.size) (p : Play α) :
    Agrees P (at? here p) p :=
  .look fun _ before => .required (inside before) (.plain p)

theorem agrees_adjust (inside : ∀ {s}, P s → here < s.arena.timelines.size)
    (f : Timeline → Timeline) : Agrees P (adjust? here f) (adjust here f) :=
  .change fun {s} before => by
    rw [Arena.adjust?_eq (inside before) rfl]
    rfl

theorem agrees_update {x : Timeline → Option (α × Timeline)} {p : Timeline → α × Timeline}
    (inside : ∀ {s}, P s → here < s.arena.timelines.size)
    (defined : ∀ {s}, P s → x (s.arena.timeline here) = some (p (s.arena.timeline here))) :
    Agrees P (update? here x) (update here p) :=
  .each fun s before => agrees_onArena (R := fun arena => arena = s.arena)
    (Arena.agrees_update (fun same => same ▸ inside before) fun same => same ▸ defined before)
    fun same => same ▸ rfl

end

theorem settingChange?_eq (t : Timeline) (key value : String) :
    settingChange? t key value = some (settingChange t key value) := by
  unfold settingChange?
  split
  · next length =>
    obtain ⟨rfl, outside⟩ := length
    have outside : t.inTuplet = false := by simpa using outside
    simp only [Duration.read?_eq, Option.bind_eq_bind, Option.bind_some, Option.pure_def,
      settingChange, outside, Bool.false_eq_true, if_false, quantization?]
    cases Option.filter (fun q => decide (1 ≤ q ∧ q ≤ 64 * Duration.ticksPerBeat))
      (Duration.ofText? value) <;> rfl
  · rfl

section
variable {stack : List Modifier} {m : Bool} {live : List TimelineId} {here : TimelineId}

theorem agrees_stage (member : here ∈ live) (pitches : List Nat) :
    Agrees (Kept Real stack m live) (stage? here pitches) (stage here pitches) := by
  refine .each fun s kept => agrees_timeline (kept.inside member) ?_
  refine Agrees.bind (Q := fun _ _ => True) (.plain takeGraces) (fun _ _ => trivial) fun waiting => ?_
  cases waiting with
  | none => exact .pure _
  | some waiting =>
    exact .guarded fun short => .defined (minus?_eq (Nat.le_of_not_le short)) (.pure _)

theorem agrees_commit (member : here ∈ live) (offset : Nat) (pitches : List Nat) (arpeggio : Bool) :
    Agrees (Kept Real stack m live) (commit? here offset pitches arpeggio)
      (commit here offset pitches arpeggio) := by
  refine .each fun s kept => agrees_timeline (kept.inside member) ?_
  have staged : Agrees (fun t => t = s) (stage? here pitches) (stage here pitches) :=
    (agrees_stage member pitches).start kept
  refine staged.bind (Q := fun _ t => t.arena = s.arena)
    (fun same done => same ▸ (Custody.stage_ok done).1 ▸ rfl) fun plain => ?_
  refine .read fun t same => .defined (Modifier.applyAll?_eq ..) ?_
  refine Agrees.bind (Q := fun _ u => u.arena = s.arena) (.modify _) (fun known done => ?_) fun _ => ?_
  · cases done
    exact known ▸ same
  · have inside := kept.inside member
    have real := kept.holds.timelines here inside
    cases arpeggio with
    | false =>
      refine agrees_update (fun same => ?_) fun same => ?_
      · rwa [same]
      · rw [same]
        exact Timeline.commit?_eq real ..
    | true =>
      rw [if_pos rfl, if_pos rfl]
      exact agrees_onArena
        (Arena.agrees_commitArpeggio kept.tended.sound.forest inside real _ _ _) id

theorem agrees_applySetting (member : here ∈ live) (setting : Setting) (offset : Nat) :
    Agrees (Kept Real stack m live) (applySetting? here setting offset)
      (applySetting here setting offset) := by
  refine .each fun s kept => agrees_timeline (kept.inside member) ?_
  refine .defined (settingChange?_eq ..) ?_
  cases settingChange (s.arena.timeline here) setting.key setting.value with
  | ok change => exact agrees_adjust (fun same => same ▸ kept.inside member) change
  | error cause => exact .failAt offset cause

end
end Session
end TextScore
