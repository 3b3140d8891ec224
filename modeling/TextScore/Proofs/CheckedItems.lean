import TextScore.Proofs.Advances
import TextScore.Proofs.CheckedNotes

/-! Items with every operation checked. They are defined for the items that scores are made of, and on
all timelines in use, on copies of a session, too. A bend has a length wherever its line is divided,
since the cursor never moves back between breakpoints. -/
namespace TextScore.Session
open Checked
open Step (Contract)

/-- How an item is performed if everything that it needs is defined. -/
abbrev CheckedPerformer :=
  (here : TimelineId) → (references : Nat) → Item → Checked Session Nat

def performAll? (inner : CheckedPerformer) (here : TimelineId) (references : Nat)
    (items : List Item) : Checked Session Nat :=
  items.foldlM (fun ticks item => do return ticks + (← inner here references item)) 0

def refer? (references offset : Nat) : Checked Session Nat := Checked.plain (refer references offset)

def shiftOctave? (here : TimelineId) (octaves : Int) : Checked Session Unit :=
  adjust? here fun t => { t with state := { t.state with octave := t.state.octave + octaves } }

def performOctave? (inner : CheckedPerformer) (here : TimelineId) (references : Nat)
    (octaves : Int) (body : List Item) : Checked Session Nat := do
  shiftOctave? here octaves
  let ticks ← performAll? inner here references body
  shiftOctave? here (-octaves)
  return ticks

def performTuplet? (inner : CheckedPerformer) (here : TimelineId) (references offset size : Nat)
    (body : List Item) : Checked Session Nat := do
  let unit ← onArena? (Arena.on? here (Timeline.beginTuplet? offset size))
  let ticks ← performAll? inner here references body
  adjust? here (Timeline.endTuplet unit)
  return ticks

def performSustain? (inner : CheckedPerformer) (here : TimelineId) (references : Nat)
    (body : List Item) : Checked Session Nat := do
  adjust? here (Timeline.setController sustainController 127)
  let ticks ← performAll? inner here references body
  adjust? here (Timeline.setController sustainController 0)
  return ticks

def underModifier? (inner : CheckedPerformer) (here : TimelineId) (references : Nat)
    (m : Modifier) (body : List Item) : Checked Session Nat := do
  Checked.plain (pushModifier m)
  let ticks ← performAll? inner here references body
  Checked.plain popModifier
  return ticks

def invokeWith? (inner : CheckedPerformer) (here : TimelineId) (references : Nat) (name : String)
    (template : List Item) : Item → Checked Session Nat
  | .key k => do
    Checked.plain (burn k.offset)
    let base ← at? here (keyPitch here k)
    let octave := (← timeline? here).state.octave
    underModifier? inner here references (.substitute base octave) template
  | .setting s => inner here references (.setting s)
  | .rest offset => inner here references (.rest offset)
  | item => Checked.failAt item.offset (.invokedWithoutKey name)

def invoke? (inner : CheckedPerformer) (here : TimelineId) (references offset : Nat)
    (name : String) (body : List Item) : Checked Session Nat := do
  let template ← Checked.plain (onDefinitions (Definitions.template name offset))
  let references ← refer? references offset
  performAll? (fun here references => invokeWith? inner here references name template)
    here references body

def performRange? (inner : CheckedPerformer) (here : TimelineId) (references offset : Nat)
    (kind : RangeKind) (body : List Item) : Checked Session Nat :=
  match kind with
  | .octaveUp => performOctave? inner here references 1 body
  | .octaveDown => performOctave? inner here references (-1) body
  | .tuplet size => performTuplet? inner here references offset size body
  | .sustain => performSustain? inner here references body
  | .userRange name => invoke? inner here references offset name body

def measure? (inner : CheckedPerformer) (here : TimelineId) (references offset : Nat)
    (body : List Item) : Checked Session (Nat × Nat) := OptionT.mk fun s =>
  match (performAll? inner here references body).run.run s.measured with
  | .error fault _ => .error fault s
  | .ok none _ => .ok none s
  | .ok (some _) measured => match measured.onsets with
    | some bounds => .ok (some bounds) s
    | none => .error ⟨.dynamicsWithoutNote, offset⟩ s

def performDynamics? (inner : CheckedPerformer) (here : TimelineId) (references offset : Nat)
    (direction : Direction) (target : Nat) (body : List Item) : Checked Session Nat := do
  let start := (← timeline? here).state.velocity
  let useless := match direction with
    | .crescendo => decide (target ≤ start)
    | .decrescendo => decide (start ≤ target)
  if useless then Checked.failAt offset (.uselessDynamics direction start target)
  let ticks ←
    if (← get).measuring then performAll? inner here references body
    else do
      let (first, last) ← measure? inner here references offset body
      underModifier? inner here references (.dynamics ⟨start, target, first, last⟩) body
  adjust? here fun t => { t with state := { t.state with velocity := target } }
  return ticks

/-- The line of a bend is divided by its length. -/
def bendSamples? (start target : Binary64) (first last : Nat) : Option (List (Nat × Binary64)) := do
  let span ← minus? last first
  let sample (i : Nat) : Option (Nat × Binary64) := do
    let elapsed := i * bendResolution
    let part ← if span = 0 then none else some ((target - start) * .ofNat elapsed / .ofNat span)
    return (first + elapsed, start + part)
  (List.range ((span + bendResolution - 1) / bendResolution)).mapM sample

def performBend? (inner : CheckedPerformer) (here : TimelineId) (references : Nat)
    (body : List Item) : Checked Session Nat := do
  let step (point : BendPoint) (item : Item) : Checked Session BendPoint := do
    match item with
    | .breakpoint _ value =>
      let target := value.clampUnit
      let position := (← timeline? here).position
      let samples ← answer (bendSamples? point.value target point.position position)
      adjust? here (addBends samples)
      adjust? here (Timeline.addBend position target)
      return ⟨point.ticks, target, position⟩
    | item => return { point with ticks := point.ticks + (← inner here references item) }
  let final ← body.foldlM step ⟨0, .zero, (← timeline? here).position⟩
  let position := (← timeline? here).position
  adjust? here (Timeline.addBend position .zero)
  return final.ticks

def performOrnament? (inner : CheckedPerformer) (here : TimelineId) (references offset : Nat)
    (kind : Ornament) (body : List Item) : Checked Session Nat := do
  match kind with
  | .staccato => underModifier? inner here references .staccato body
  | .fermata => underModifier? inner here references (.fermata (← get).fermata) body
  | .sforzando => underModifier? inner here references .sforzando body
  | .trill => underModifier? inner here references .trill body
  | .crescendo target => performDynamics? inner here references offset .crescendo target body
  | .decrescendo target => performDynamics? inner here references offset .decrescendo target body
  | .pitchBend => performBend? inner here references body

def performKey? (here : TimelineId) (k : Key) : Checked Session Nat := do
  commit? here k.offset [← at? here (keyPitch here k)] false

def performChord? (here : TimelineId) (c : Chord) : Checked Session Nat := do
  commit? here c.offset (← at? here (chordPitches here 0 c)) c.arpeggio

def performBranch? (inner : CheckedPerformer) (references offset expected : Nat)
    (branch : TimelineId × List Item) : Checked Session Unit := do
  let before ← get
  let definitions := before.definitions
  let fermata := before.fermata
  let ticks ← performAll? inner branch.1 references branch.2
  modify fun s => { s with definitions := definitions, fermata := fermata }
  if ticks ≠ expected then Checked.failAt offset (.branchesDiffer expected ticks)

def performParallel? (inner : CheckedPerformer) (here : TimelineId) (references offset : Nat) :
    List (List Item) → Checked Session Nat
  | [] => return 0
  | branch :: branches => do
    let base ← update? here fun t => some (t.reserve branches.length)
    let children ← (List.range branches.length).mapM fun i =>
      onArena? (Arena.childAt? here offset (.branch (base + i)))
    let expected ← performAll? inner here references branch
    adjust? here (Timeline.release base)
    (children.zip branches).forM (performBranch? inner references offset expected)
    return expected

def performSound? (inner : CheckedPerformer) (here : TimelineId) (references : Nat) (sound : Item) :
    Checked Session Nat := do
  let ticks ← match sound with
    | .key k => performKey? here k
    | .chord c => performChord? here c
    | .ornament offset kind body => performOrnament? inner here references offset kind body
    | .tie offset => onArena? (Arena.tie? here offset)
    | item => inner here references item
  Checked.plain requireNoGraces
  return ticks

def performWith? (inner : CheckedPerformer) : CheckedPerformer := fun here references item => do
  if let .breakpoint offset _ := item then Checked.failAt offset .strayBreakpoint
  Checked.plain (burn item.offset)
  if longest < (← timeline? here).position then Checked.failAt item.offset .songTooLong
  match item with
  | .setting s => applySetting? here s s.offset; return 0
  | .range offset kind body => performRange? inner here references offset kind body
  | .group offset id body =>
    Checked.plain (onDefinitions (Definitions.declareGroup id body offset))
    performAll? inner here references body
  | .groupRef offset id =>
    let references ← refer? references offset
    performAll? inner here references (← Checked.plain (onDefinitions (Definitions.group id offset)))
  | .parallel offset branches => performParallel? inner here references offset branches
  | .emoji offset symbol =>
    applySetting? here (← Checked.plain (onDefinitions (Definitions.emoji symbol offset))) offset
    return 0
  | .rest _ => update? here Timeline.rest?
  | .graced offset graces main =>
    if let .tie _ := main then Checked.failAt offset .graceOnTie
    at? here (prepareGraces here offset graces)
    performSound? inner here references main
  | sound => performSound? inner here references sound

def perform? : (depth : Nat) → CheckedPerformer
  | 0 => fun _ _ item => do
    Checked.plain (burn item.offset)
    Checked.failAt item.offset .exhausted
  | depth + 1 => performWith? (perform? depth)

/-- What is known of the items inside an item. -/
structure Sure (inner? : CheckedPerformer) (inner : Performer) : Prop where
  agrees : ∀ ⦃stack m live here⦄, here ∈ live → ∀ references {item}, item.WellFormed →
    Agrees (Kept Real stack m live) (inner? here references item) (inner here references item)
  keeps : Performer.Keeps (fun _ => True) (fun _ => Item.WellFormed) Real inner

namespace Sure
variable {inner? : CheckedPerformer} {inner : Performer} {stack : List Modifier} {m : Bool}
  {live : List TimelineId} {here : TimelineId} {body : List Item}

theorem all (sure : Sure inner? inner) (member : here ∈ live) (references : Nat)
    (each : ∀ item ∈ body, item.WellFormed) : Agrees (Kept Real stack m live)
      (performAll? inner? here references body) (performAll inner here references body) := by
  refine .foldlM (P := fun _ => Kept Real stack m live) (fun ticks item listed => ?_)
    (fun ticks item listed => ?_) 0
  · exact (sure.agrees member references (each item listed)).answered _
  · intro s c t kept done
    have counted : Contract (fun _ => True) (Kept Real stack m live)
        (do return ticks + (← inner here references item)) fun _ => Kept Real stack m live :=
      (sure.keeps member references (each item listed)).bind fun _ => .pure id
    exact counted.ok kept done

theorem agrees_tune (member : here ∈ live) (f : Timeline → Timeline) :
    Agrees (Kept Real stack m live) (adjust? here f) (adjust here f) :=
  agrees_adjust (fun kept => kept.inside member) f

/-- What is done to a timeline before a body and undone after it. -/
theorem between (sure : Sure inner? inner) (member : here ∈ live) (references : Nat)
    {α : Type} {x : Checked Session α} {p : Play α} {g : α → Timeline → Timeline}
    (each : ∀ item ∈ body, item.WellFormed) (before : Agrees (Kept Real stack m live) x p)
    (keeps : Contract (fun _ => True) (Kept Real stack m live) p fun _ => Kept Real stack m live) :
    Agrees (Kept Real stack m live)
      (do
        let a ← x
        let ticks ← performAll? inner? here references body
        adjust? here (g a)
        return ticks)
      (do
        let a ← p
        let ticks ← performAll inner here references body
        adjust here (g a)
        return ticks) := by
  refine before.andThen keeps fun a => (sure.all member references each).andThen
    (sure.keeps.all member references each) fun ticks => ?_
  exact (agrees_tune member (g a)).answered _

theorem octave (sure : Sure inner? inner) (member : here ∈ live) (references : Nat) (octaves : Int)
    (each : ∀ item ∈ body, item.WellFormed) : Agrees (Kept Real stack m live)
      (performOctave? inner? here references octaves body)
      (performOctave inner here references octaves body) :=
  sure.between member references each (agrees_tune member _)
    (custody_real.tuned member fun _ => .octave octaves)

theorem sustain (sure : Sure inner? inner) (member : here ∈ live) (references : Nat)
    (each : ∀ item ∈ body, item.WellFormed) : Agrees (Kept Real stack m live)
      (performSustain? inner? here references body) (performSustain inner here references body) :=
  sure.between member references each (agrees_tune member _)
    (custody_real.tuned member fun _ => .pedal (by decide))

theorem tuplet (sure : Sure inner? inner) (member : here ∈ live) (references : Nat)
    {offset size : Nat} (within : (Item.range offset (.tuplet size) body).WellFormed) :
    Agrees (Kept Real stack m live) (performTuplet? inner? here references offset size body)
      (performTuplet inner here references offset size body) := by
  obtain ⟨proper, each⟩ := Item.throughout_iff.mp within
  have some : size ≠ 0 := Nat.ne_of_gt (Nat.lt_of_lt_of_le Nat.zero_lt_two proper)
  refine sure.between member references each (g := Timeline.endTuplet)
    (agrees_onArena (R := fun arena => here < arena.timelines.size) ?_
      fun kept => kept.inside member) ?_
  · exact Arena.agrees_on id (Timeline.agrees_beginTuplet offset some) fun _ => trivial
  · exact (custody_real.succeeds.beginTuplet member within).mono id And.left

theorem underModifier (sure : Sure inner? inner) (member : here ∈ live) (references : Nat)
    {modifier : Modifier} {R : Session → Prop} (each : ∀ item ∈ body, item.WellFormed)
    (pushed : ∀ {s}, Real stack s → R s →
      Real (modifier :: stack) { s with modifiers := modifier :: stack }) :
    Agrees (fun s => Kept Real stack m live s ∧ R s)
      (underModifier? inner? here references modifier body)
      (Session.underModifier inner here references modifier body) := by
  refine (Agrees.plain (pushModifier modifier)).andThen (custody_real.push member pushed) fun _ => ?_
  refine (sure.all member references each).bind (Q := fun _ _ => True) (fun _ _ => trivial)
    fun ticks => ?_
  exact (Agrees.plain popModifier).answered _

theorem invokeWith (sure : Sure inner? inner) (member : here ∈ live) (references : Nat)
    (name : String) (each : ∀ item ∈ body, item.WellFormed) {item : Item}
    (within : item.WellFormed) : Agrees (Kept Real stack m live)
      (invokeWith? inner? here references name body item)
      (Session.invokeWith inner here references name body item) := by
  cases item with
  | key k =>
    refine (Agrees.plain (burn k.offset)).andThen (custody_real.burn member k.offset) fun _ => ?_
    refine (agrees_at (fun kept => kept.inside member) _).andThen
      (custody_real.keyPitch _ k) fun base => .each fun s before => ?_
    obtain ⟨low, kept⟩ := before
    refine agrees_timeline (kept.inside member) ?_
    exact (sure.underModifier member references (R := fun t => t = s) each fun holds _ =>
      custody_real.substitute _ low holds).start ⟨kept, rfl⟩
  | setting | rest => exact sure.agrees member references within
  | _ => exact .failAt _ _

theorem invoke (sure : Sure inner? inner) (member : here ∈ live) (references : Nat) {offset : Nat}
    {name : String} (within : (Item.range offset (.userRange name) body).WellFormed) :
    Agrees (Kept Real stack m live) (invoke? inner? here references offset name body)
      (Session.invoke inner here references offset name body) := by
  refine (Agrees.plain (onDefinitions (Definitions.template name offset))).andThen
    (custody_real.lookup (Definitions.template_run offset · name) nofun) fun template => ?_
  refine .each fun s before => ?_
  obtain ⟨found, kept⟩ := before
  have each := kept.holds.templates name template found
  have invoked : Sure (fun here references => invokeWith? inner? here references name template)
      fun here references => Session.invokeWith inner here references name template :=
    ⟨fun stack m live here member references item within =>
      sure.invokeWith member references name each within,
    fun stack m live here member references item within =>
      custody_real.invokeWith sure.keeps member references name (fun _ _ => each) within⟩
  refine Agrees.start (P := Kept Real stack m live) ?_ kept
  refine (Agrees.plain _).andThen (custody_real.refer references offset) fun references => ?_
  exact invoked.all member references (Item.throughout_iff.mp within).2

theorem range (sure : Sure inner? inner) (member : here ∈ live) (references : Nat) {offset : Nat}
    {kind : RangeKind} (within : (Item.range offset kind body).WellFormed) :
    Agrees (Kept Real stack m live) (performRange? inner? here references offset kind body)
      (performRange inner here references offset kind body) := by
  have each := (Item.throughout_iff.mp within).2
  cases kind with
  | octaveUp | octaveDown => exact sure.octave member references _ each
  | tuplet size => exact sure.tuplet member references within
  | sustain => exact sure.sustain member references each
  | userRange name => exact sure.invoke member references within

theorem measure (sure : Sure inner? inner) (member : here ∈ live) (references offset : Nat)
    (each : ∀ item ∈ body, item.WellFormed) : Agrees (Kept Real stack m live)
      (measure? inner? here references offset body)
      (Session.measure inner here references offset body) := by
  intro s kept
  have copy : Kept Real stack true live s.measured :=
    ⟨upkeep_tended.copy kept.tended, custody_real.copy kept.holds⟩
  have copied := sure.all member references each copy
  have checked : (measure? inner? here references offset body).run.run s =
    match (performAll? inner? here references body).run.run s.measured with
    | .error fault _ => .error fault s
    | .ok none _ => .ok none s
    | .ok (some _) measured => match measured.onsets with
      | some bounds => .ok (some bounds) s
      | none => .error ⟨.dynamicsWithoutNote, offset⟩ s := rfl
  rw [checked, measure_run, copied]
  cases (performAll inner here references body).run s.measured with
  | ok ticks t =>
    dsimp only
    cases t.onsets <;> rfl
  | error fault t => rfl

theorem dynamics (sure : Sure inner? inner) (member : here ∈ live) (references offset : Nat)
    (direction : Direction) {kind : Ornament} {target : Nat}
    (within : (Item.ornament offset kind body).WellFormed)
    (leads : kind = .crescendo target ∨ kind = .decrescendo target) :
    Agrees (Kept Real stack m live)
      (performDynamics? inner? here references offset direction target body)
      (performDynamics inner here references offset direction target body) := by
  have each := (Item.throughout_iff.mp within).2
  have finish (ticks : Nat) : Agrees (Kept Real stack m live)
      (do
        adjust? here fun t => { t with state := { t.state with velocity := target } }
        return ticks)
      (do setVelocity here target; return ticks) := (agrees_tune member _).answered _
  refine .each fun u kept => agrees_timeline (kept.inside member) ?_
  refine Agrees.start (P := Kept Real stack m live) ?_ kept
  refine .guarded fun _ => .read fun s kept => ?_
  by_cases measuring : s.measuring
  · rw [if_pos measuring, if_pos measuring]
    exact ((sure.all member references each).andThen
      (sure.keeps.all member references each) finish).start kept
  · rw [if_neg measuring, if_neg measuring]
    refine Agrees.start (P := Kept Real stack m live) ?_ kept
    refine (sure.measure member references offset each).andThen
      (custody_real.measure sure.keeps member references offset each) fun bounds => ?_
    refine .each fun t kept => ?_
    have pushes (ramp : Ramp) (same : ramp.target = target) : Pushes t kind (.dynamics ramp) := by
      subst same
      rcases leads with rfl | rfl
      · exact .crescendo ramp
      · exact .decrescendo ramp
    have ornament := custody_real.ornament within (pushes
      ⟨(u.arena.timeline here).state.velocity, target, bounds.1, bounds.2⟩ rfl) kept.holds
    have pushed {v : Session} (_ : Real stack v) (same : v = t) := same ▸ ornament.2
    exact ((sure.underModifier member references each pushed).andThen
      (custody_real.succeeds.underModifier (sure.keeps.crossing body) member references each pushed)
      finish).start ⟨kept, rfl⟩

theorem bendSamples?_eq (start target : Binary64) {first last : Nat} (order : first ≤ last) :
    bendSamples? start target first last = some (bendSamples start target first last) := by
  simp only [bendSamples?, bendSamples, minus?_eq order, Option.bind_eq_bind, Option.bind_some]
  refine mapM_defined fun i listed => ?_
  have counted := List.mem_range.mp listed
  have long : last - first ≠ 0 := by
    intro none
    simp only [none, bendResolution] at counted
    omega
  simp only [if_neg long, Option.pure_def]

/-- The curve has got to no place past the cursor. -/
def Reached (stack : List Modifier) (m : Bool) (live : List TimelineId) (here : TimelineId)
    (point : BendPoint) (s : Session) : Prop :=
  Kept Real stack m live s ∧ point.position ≤ (s.arena.timeline here).position

theorem breakpoint (member : here ∈ live) (point : BendPoint) (value : Binary64) :
    Agrees (Reached stack m live here point)
      (do
        let target := value.clampUnit
        let position := (← timeline? here).position
        let samples ← answer (bendSamples? point.value target point.position position)
        adjust? here (addBends samples)
        adjust? here (Timeline.addBend position target)
        return (⟨point.ticks, target, position⟩ : BendPoint))
      (do
        let target := value.clampUnit
        let position := (← timeline here).position
        adjust here (addBends (bendSamples point.value target point.position position))
        adjust here (Timeline.addBend position target)
        return (⟨point.ticks, target, position⟩ : BendPoint)) := by
  refine .each fun s reached => ?_
  have inside := reached.1.inside member
  refine agrees_timeline inside (.defined (bendSamples?_eq _ _ reached.2) ?_)
  refine Agrees.bind (Q := fun _ t => here < t.arena.timelines.size)
    (agrees_adjust (fun same => same ▸ inside) _) (fun same done => ?_) fun _ =>
      (agrees_adjust id _).answered _
  cases same
  cases done
  exact Nat.lt_of_lt_of_eq inside (Arena.size_adjust ..).symm

/-- What an item that is no breakpoint leaves the curve at. -/
abbrev Onward (inner : Performer) : Prop :=
  ∀ ⦃stack m live here⦄, here ∈ live → ∀ references {item : Item} {s t : Session} {ticks : Nat},
    Kept Real stack m live s → (inner here references item).run s = .ok ticks t →
      (s.arena.timeline here).position ≤ (t.arena.timeline here).position

theorem bend (sure : Sure inner? inner) (onward : Onward inner) (member : here ∈ live)
    (references : Nat) (each : ∀ item ∈ body, item.WellFormed) : Agrees (Kept Real stack m live)
      (performBend? inner? here references body) (performBend inner here references body) := by
  refine .each fun s kept => agrees_timeline (kept.inside member) ?_
  refine Agrees.andThen (E := fun _ => True) (Q := fun _ => Kept Real stack m live)
    (Agrees.start (P := Reached stack m live here _) (.foldlM (fun point item listed => ?_)
      (fun point item listed t next u reached done => ?_) _) ⟨kept, Nat.le_refl _⟩)
    ((Contract.foldlM (P := Kept Real stack m live) (fun point item listed => ?_) _).start kept)
    fun final => .each fun t kept => agrees_timeline (kept.inside member)
      ((agrees_adjust (fun same => same ▸ kept.inside member) _).answered _)
  · cases item with
    | breakpoint offset value => exact breakpoint member point value
    | _ => exact ((sure.agrees member references (each _ listed)).mono And.left).answered _
  · cases item with
    | breakpoint offset value =>
      obtain ⟨kept, there⟩ := (custody_real.breakpoint member point value).ok reached.1 done
      exact ⟨kept, Nat.le_of_eq there⟩
    | _ =>
      obtain ⟨ticks, v, performed, done⟩ := Step.bind_ok done
      cases done
      exact ⟨(sure.keeps member references (each _ listed)).ok reached.1 performed,
        Nat.le_trans reached.2 (onward member references reached.1 performed)⟩
  · cases item with
    | breakpoint offset value =>
      exact (custody_real.breakpoint member point value).mono id And.left
    | _ => exact (sure.keeps member references (each _ listed)).bind fun _ => .pure id

theorem ornament (sure : Sure inner? inner) (onward : Onward inner) (member : here ∈ live)
    (references : Nat) {offset : Nat} {kind : Ornament}
    (within : (Item.ornament offset kind body).WellFormed) : Agrees (Kept Real stack m live)
      (performOrnament? inner? here references offset kind body)
      (performOrnament inner here references offset kind body) := by
  have each := (Item.throughout_iff.mp within).2
  have under {modifier : Modifier} {s : Session} (pushes : Pushes s kind modifier)
      (kept : Kept Real stack m live s) : Agrees (fun t => t = s)
      (underModifier? inner? here references modifier body)
      (Session.underModifier inner here references modifier body) :=
    have pushed := (custody_real.ornament within pushes kept.holds).2
    (sure.underModifier member references (R := fun t => t = s) each
      fun _ same => same ▸ pushed).start ⟨kept, rfl⟩
  cases kind with
  | staccato => exact .each fun s kept => under .staccato kept
  | fermata => exact .read fun s kept => under .fermata kept
  | sforzando => exact .each fun s kept => under .sforzando kept
  | trill => exact .each fun s kept => under .trill kept
  | crescendo target => exact sure.dynamics member references offset .crescendo within (.inl rfl)
  | decrescendo target =>
    exact sure.dynamics member references offset .decrescendo within (.inr rfl)
  | pitchBend => exact sure.bend onward member references each

theorem branch (sure : Sure inner? inner) (references offset expected : Nat)
    {branch : TimelineId × List Item} (member : branch.1 ∈ live)
    (each : ∀ item ∈ branch.2, item.WellFormed) : Agrees (Kept Real stack m live)
      (performBranch? inner? references offset expected branch)
      (performBranch inner references offset expected branch) := by
  refine .read fun s kept => ?_
  refine ((sure.all member references each).start kept).bind (Q := fun _ _ => True)
    (fun _ _ => trivial) fun ticks => ?_
  refine (Agrees.modify _).bind (Q := fun _ _ => True) (fun _ _ => trivial) fun _ => ?_
  exact .guarded fun _ => .pure _

theorem parallel (sure : Sure inner? inner) (member : here ∈ live) (references : Nat) {offset : Nat}
    {branches : List (List Item)} (within : (Item.parallel offset branches).WellFormed) :
    Agrees (Kept Real stack m live) (performParallel? inner? here references offset branches)
      (performParallel inner here references offset branches) := by
  have each : ∀ one ∈ branches, ∀ item ∈ one, item.WellFormed := fun one listed item there =>
    (Item.throughout_iff.mp within).2 item (List.mem_flatten.mpr ⟨one, listed, there⟩)
  cases branches with
  | nil => exact .pure 0
  | cons branch branches =>
    refine Agrees.andThen (Q := fun _ => Kept Real stack m live)
      (agrees_update (fun kept => kept.inside member) fun _ => rfl)
      (custody_real.reserve member branches.length) fun base => ?_
    refine Agrees.andThen (Agrees.mapM (fun i _ => ?_) fun i _ => ?_)
      (custody_real.children member offset base _) fun children => ?_
    · exact .each fun s kept => agrees_onArena (R := fun arena => arena = s.arena)
        (Arena.agrees_childAt kept.tended.sound.forest (kept.inside member) offset _)
        fun same => same ▸ rfl
    · exact fun {s child t} kept done => ((custody_real.child member offset (base + i)).ok
        kept done).shrink (List.subset_cons_self child live)
    have live' : here ∈ children ++ live := List.mem_append_right children member
    refine (sure.all live' references (each branch List.mem_cons_self)).andThen
      (sure.keeps.all live' references (each branch List.mem_cons_self)) fun expected => ?_
    refine (agrees_tune live' _).andThen (custody_real.tuned live' fun _ => .branches base)
      fun _ => ?_
    refine Agrees.answered (.forM (fun pair listed => ?_) fun pair listed => ?_) _
    · have there := List.of_mem_zip listed
      exact sure.branch references offset expected (List.mem_append_left live there.1)
        (each pair.2 (List.mem_cons_of_mem branch there.2))
    · have there := List.of_mem_zip listed
      exact fun {s a t} kept done => (custody_real.performBranch sure.keeps references offset
        expected (List.mem_append_left live there.1)
          (each pair.2 (List.mem_cons_of_mem branch there.2))).ok kept done

/-- After what sounds no graces are left. -/
theorem finished {P : Session → Prop} {x : Checked Session Nat} {p : Play Nat}
    (sounds : Agrees P x p) : Agrees P
      (do let ticks ← x; Checked.plain requireNoGraces; return ticks)
      (do let ticks ← p; requireNoGraces; return ticks) :=
  sounds.bind (Q := fun _ _ => True) (fun _ _ => trivial) fun _ =>
    (Agrees.plain requireNoGraces).answered _

theorem sound (sure : Sure inner? inner) (onward : Onward inner) (member : here ∈ live)
    (references : Nat) {sound : Item} (within : sound.WellFormed) : Agrees (Kept Real stack m live)
      (performSound? inner? here references sound)
      (performWith.performSound inner here references sound) := by
  have present {s : Session} (kept : Kept Real stack m live s) := kept.inside member
  cases sound with
  | key k =>
    refine finished ((agrees_at present _).andThen (custody_real.keyPitch _ k) fun pitch => ?_)
    exact (agrees_commit member k.offset [pitch] false).mono And.right
  | chord c =>
    refine finished ((agrees_at present _).andThen (custody_real.chordPitches _ 0 c) fun pitches => ?_)
    exact (agrees_commit member c.offset pitches c.arpeggio).mono And.right
  | ornament offset kind body => exact finished (sure.ornament onward member references within)
  | tie offset =>
    refine finished (.each fun s kept => agrees_onArena (R := fun arena => arena = s.arena)
      (Arena.agrees_tie kept.tended.sound (kept.tended.playable here member)
        (kept.holds.timelines here (present kept)) offset) fun same => same ▸ rfl)
  | _ => exact finished (sure.agrees member references within)

theorem opened (member : here ∈ live) (offset : Nat) {x : Checked Session Nat} {p : Play Nat}
    (rest : Agrees (fun s => Kept Real stack m live s ∧ Custody.Open here s) x p) :
    Agrees (Kept Real stack m live)
      (do
        Checked.plain (burn offset)
        if longest < (← timeline? here).position then Checked.failAt offset .songTooLong
        x)
      (Session.opened here offset p) := by
  refine (Agrees.plain (burn offset)).andThen (custody_real.burn member offset) fun _ => ?_
  refine .each fun s kept => agrees_timeline (kept.inside member) ?_
  exact .guarded fun room => rest.start ⟨kept, Nat.le_of_not_lt room⟩

theorem performWith (sure : Sure inner? inner) (onward : Onward inner) (member : here ∈ live)
    (references : Nat) {item : Item} (within : item.WellFormed) : Agrees (Kept Real stack m live)
      (performWith? inner? here references item) (Session.performWith inner here references item) := by
  have present {s : Session} (kept : Kept Real stack m live s) := kept.inside member
  have each := (Item.throughout_iff.mp within).2
  have opened (offset : Nat) {x : Checked Session Nat} {p : Play Nat}
      (rest : Agrees (Kept Real stack m live) x p) := opened member offset (rest.mono And.left)
  cases item with
  | breakpoint offset value => exact fun _ _ => rfl
  | setting s => exact opened s.offset ((agrees_applySetting member s s.offset).answered _)
  | range offset kind body => exact opened offset (sure.range member references within)
  | group offset id body =>
    exact opened offset ((Agrees.plain _).andThen (custody_real.declared member within)
      fun _ => sure.all member references each)
  | groupRef offset id =>
    refine opened offset ((Agrees.plain _).andThen
      (custody_real.refer references offset) fun references => ?_)
    refine (Agrees.plain _).andThen
      (custody_real.lookup (Definitions.group_run offset · id) nofun) fun body => ?_
    refine .each fun s known => ?_
    exact (sure.all member references (known.2.holds.groups id body known.1)).start known.2
  | parallel offset branches =>
    exact opened offset (sure.parallel member references within)
  | emoji offset symbol =>
    refine opened offset ((Agrees.plain _).andThen
      (custody_real.lookup (Definitions.emoji_run offset · symbol) nofun) fun setting => ?_)
    exact ((agrees_applySetting member setting offset).mono And.right).answered _
  | rest offset =>
    exact opened offset (agrees_update present fun kept =>
      Timeline.rest?_eq (kept.holds.timelines here (present kept)))
  | graced offset graces main =>
    have prepared := (agrees_at (P := fun s => Kept Real stack m live s ∧ Custody.Open here s)
      (fun known => present known.1) (prepareGraces here offset graces)).andThen
        (custody_real.prepareGraces member offset graces) fun _ =>
          (sure.sound onward member references (each main List.mem_cons_self)).mono And.left
    cases main with
    | tie _ => exact opened offset fun _ _ => rfl
    | _ => exact Sure.opened member offset prepared
  | key k => exact opened k.offset (sure.sound onward member references within)
  | chord c => exact opened c.offset (sure.sound onward member references within)
  | ornament offset kind body =>
    exact opened offset (sure.sound onward member references within)
  | tie offset => exact opened offset (sure.sound onward member references within)

end Sure

theorem sure_perform (depth : Nat) : Sure (perform? depth) (perform depth) := by
  refine ⟨?_, custody_real.perform depth⟩
  induction depth with
  | zero =>
    intro stack m live here member references item within
    exact (Agrees.plain _).bind (Q := fun _ _ => True) (fun _ _ => trivial) fun _ => .failAt _ _
  | succ depth ih =>
    intro stack m live here member references item within
    have sure : Sure (perform? depth) (perform depth) := ⟨ih, custody_real.perform depth⟩
    refine sure.performWith (fun stack m live here member references item s t ticks kept done => ?_)
      member references within
    rw [cursor_performed kept.tended.sound.forest (kept.inside member) done]
    exact Nat.le_add_right ..

end TextScore.Session
