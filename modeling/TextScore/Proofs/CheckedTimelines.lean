import TextScore.Proofs.CheckedStaging
import TextScore.Proofs.Levels
import TextScore.Proofs.Ranges

/-! Timelines with every operation checked. A tuplet has a divisor, a child is never ahead of its
parent where it rests, arpeggios are held longer than their voices are spread, and all ids and places
of last notes are those of timelines and notes that there are. -/
namespace TextScore
open Checked

namespace Tuplet

def units? (quantization ticks : Nat) : Option Nat :=
  quotient? (2 * ticks + quantization) (2 * quantization)

def pay? (t : Tuplet) (units : Nat) : Option (Nat × Tuplet) := do
  let owed := t.owed + units * t.remainder
  return (← quotient? owed t.divisor, { t with owed := ← remainder? owed t.divisor })

theorem pay?_eq {t : Tuplet} (counts : t.divisor ≠ 0) (units : Nat) :
    t.pay? units = some (t.pay units) := by
  simp only [pay?, pay, quotient?_eq counts, remainder?_eq counts, Option.bind_eq_bind,
    Option.bind_some, Option.pure_def]

end Tuplet

namespace Timeline

def calibrate? (ticks : Nat) (t : Timeline) : Option (Nat × Timeline) :=
  match t.tuplet with
  | none => some (0, t)
  | some tuplet => do
    let (extra, tuplet) ← tuplet.pay? (← Tuplet.units? (max t.state.quantization 1) ticks)
    return (extra, { t with tuplet := some tuplet })

def rest? (t : Timeline) : Option (Nat × Timeline) :=
  let length := t.state.quantization
  if length = 0 then some (0, t)
  else do
    let (extra, t) ← t.calibrate? length
    return (length + extra, t.pad (length + extra))

/-- The place of a note that was just logged is the last one. -/
def pushNote? (offset : Nat) (arpeggio : Bool) (draft : Draft) (t : Timeline) : Option Timeline := do
  let pushed := t.pushNote offset arpeggio draft
  return { pushed with last := .note (← minus? pushed.events.size 1) }

def pushNotes? (offset : Nat) (drafts : List Draft) (t : Timeline) : Option Timeline :=
  drafts.foldlM (fun t draft => t.pushNote? offset false draft) t

def commit? (offset : Nat) (staged : Staged) (t : Timeline) : Option (Nat × Timeline) := do
  let (extra, t) ← t.calibrate? staged.ticks
  let staged := extend extra staged
  let drafts := staged.notes.filter (0 < ·.duration)
  return (Draft.sum Draft.duration drafts + staged.rest,
    (← t.pushNotes? offset drafts).trail staged.rest)

def beginTuplet? (offset size : Nat) : Checked Timeline Nat := do
  let t ← get
  if t.inTuplet then Checked.failAt offset .tupletInTuplet
  let unit := t.state.quantization
  let quantization ← answer (quotient? (2 * unit) size)
  if quantization = 0 then Checked.failAt offset (.tupletTooShort size)
  let remainder ← answer (remainder? (2 * unit) size)
  set { t with
    state := { t.state with quantization := quantization }
    tuplet := some ⟨size, remainder, 0⟩ }
  return unit

/-- Only a note can be lengthened. -/
def lengthenNote? (index ticks : Nat) (t : Timeline) : Option Timeline := do
  let _ ← (← t.events[index]?).note?
  return t.lengthenNote index ticks

def lengthenLast? (ticks : Nat) (t : Timeline) : Option Timeline :=
  match t.last with
  | .note index => t.lengthenNote? index ticks
  | _ => some { t with position := t.position + ticks }

/-- The place that a tie would lengthen is that of a note. -/
def Recalls (t : Timeline) : Prop :=
  ∀ index, t.last = .note index → ∃ note, t.events[index]? = some (.note note)

variable {t : Timeline}

theorem Orderly.recalls (orderly : t.Orderly) : t.Recalls := by
  intro index last
  obtain ⟨before, note, after, logged, rfl, -⟩ := orderly.latest index last
  refine ⟨note, ?_⟩
  rw [← Array.getElem?_toList, logged, List.getElem?_append_right (Nat.le_refl _), Nat.sub_self]
  rfl

theorem Real.divisor (real : t.Real) {tuplet : Tuplet} (counts : tuplet ∈ t.tuplet) :
    tuplet.divisor ≠ 0 := Nat.ne_of_gt (Nat.zero_lt_of_lt (real.tuplet tuplet counts).owed)

theorem calibrate?_eq (real : t.Real) (ticks : Nat) :
    t.calibrate? ticks = some (t.calibrate ticks) := by
  unfold calibrate? calibrate
  cases counts : t.tuplet with
  | none => rfl
  | some tuplet =>
    have some : 2 * max t.state.quantization 1 ≠ 0 := by omega
    simp only [Tuplet.units?, quotient?_eq some, Tuplet.pay?_eq (real.divisor counts),
      Option.bind_eq_bind, Option.bind_some, Option.pure_def, Tuplet.units]

theorem rest?_eq (real : t.Real) : t.rest? = some t.rest := by
  unfold rest? rest restFor
  dsimp only
  split
  · rfl
  · rw [calibrate?_eq real]
    rfl

theorem pushNote?_eq (offset : Nat) (arpeggio : Bool) (draft : Draft) (t : Timeline) :
    t.pushNote? offset arpeggio draft = some (t.pushNote offset arpeggio draft) := by
  have size : (t.pushNote offset arpeggio draft).events.size = t.events.size + 1 :=
    Array.size_push _
  have some : 1 ≤ t.events.size + 1 := Nat.le_add_left ..
  simp only [pushNote?, size, minus?_eq some, Nat.add_sub_cancel, Option.bind_eq_bind,
    Option.bind_some, Option.pure_def]
  rfl

theorem pushNotes?_eq (offset : Nat) (drafts : List Draft) (t : Timeline) :
    t.pushNotes? offset drafts = some (t.pushNotes offset drafts) := by
  simp only [pushNotes?, pushNote?_eq]
  exact List.foldlM_pure

theorem commit?_eq (real : t.Real) (offset : Nat) (staged : Staged) :
    t.commit? offset staged = some (t.commit offset staged) := by
  simp only [commit?, calibrate?_eq real, pushNotes?_eq, Option.bind_eq_bind, Option.bind_some,
    Option.pure_def]
  rfl

theorem agrees_beginTuplet (offset : Nat) {size : Nat} (proper : size ≠ 0) :
    Agrees (fun _ => True) (beginTuplet? offset size) (beginTuplet offset size) := by
  refine .read fun t _ => .guarded fun _ => .defined (quotient?_eq proper) (.guarded fun _ => ?_)
  exact .defined (remainder?_eq proper) fun _ _ => rfl

theorem lengthenLast?_eq (recalls : t.Recalls) (ticks : Nat) :
    t.lengthenLast? ticks = some (t.lengthenLast ticks) := by
  unfold lengthenLast? lengthenLast
  cases last : t.last with
  | note index =>
    obtain ⟨note, logged⟩ := recalls index last
    simp only [lengthenNote?, logged, Event.note?, Option.bind_eq_bind, Option.bind_some,
      Option.pure_def]
  | nothing | rest | arpeggio => rfl

theorem Recalls.lengthenLast (recalls : t.Recalls) (ticks : Nat) : (t.lengthenLast ticks).Recalls := by
  unfold Timeline.lengthenLast
  split
  · next place last =>
    intro index same
    obtain ⟨note, logged⟩ := recalls index same
    obtain rfl : index = place := LastUnit.note.inj (same.symm.trans last)
    refine ⟨{ note with duration := note.duration + ticks }, ?_⟩
    simp only [lengthenNote, Array.getElem?_modify, logged, if_pos, Option.map_some, Event.lengthen]
  · exact recalls

end Timeline

namespace Arena
variable {α : Type}

/-- The timeline of an id, if there is one. -/
def timeline? (id : TimelineId) : Checked Arena Timeline := do answer (← get).timelines[id]?

/-- Only a timeline that there is can be changed. -/
def adjust? (id : TimelineId) (f : Timeline → Option Timeline) (arena : Arena) : Option Arena := do
  let t ← f (← arena.timelines[id]?)
  return arena.adjust id fun _ => t

def adjustAll? (ids : List TimelineId) (f : Timeline → Option Timeline) (arena : Arena) :
    Option Arena :=
  ids.foldlM (fun arena id => arena.adjust? id f) arena

def update? (id : TimelineId) (change : Timeline → Option (α × Timeline)) : Checked Arena α := do
  let (a, t) ← answer (change (← timeline? id))
  modify (adjust id fun _ => t)
  return a

def on? (id : TimelineId) (step : Checked Timeline α) : Checked Arena α := do
  require (id < (← get).timelines.size)
  OptionT.mk (on id step.run)

/-- The id of a new timeline is the last place. -/
def create? (channel : Nat) (arena : Arena) : Option (TimelineId × Arena) := do
  let arena := (arena.create channel).2
  return (← minus? arena.timelines.size 1, arena)

def addChild? (parent : TimelineId) (slot : Slot) (arena : Arena) : Option Arena := do
  let (id, arena) ← arena.create? (← arena.timelines[parent]?).channel
  arena.adjust? parent fun t => some (slot.push id t)

def addChildren? (parent : TimelineId) (slot : Slot) : (count : Nat) → Arena → Option Arena
  | 0, arena => some arena
  | count + 1, arena => do addChild? parent slot (← addChildren? parent slot count arena)

def childAt? (parent : TimelineId) (offset : Nat) (slot : Slot) : Checked Arena TimelineId := do
  let present := (slot.list (← timeline? parent)).size
  change (addChildren? parent slot (slot.index + 1 - present))
  let t ← timeline? parent
  let id ← answer (slot.list t)[slot.index]?
  change (adjust? id fun child => some { child with state := t.state, tuplet := t.tuplet })
  let position := (← timeline? id).position
  if t.position < position then Checked.failAt offset .childAheadOfParent
  let length ← answer (minus? t.position position)
  change (adjust? id fun child => some (child.pad length))
  return id

def tie? (here : TimelineId) (offset : Nat) : Checked Arena Nat := do
  let unit := (← timeline? here).state.quantization
  let extra ← update? here (·.calibrate? unit)
  let ticks := unit + extra
  let t ← timeline? here
  match t.last with
  | .nothing => Checked.failAt offset .malformedTie
  | .note index => change (adjust? here (·.lengthenNote? index ticks))
  | .rest => change (adjust? here fun t => some (t.trail ticks))
  | .arpeggio count =>
    change (adjust? here fun t => some (t.trail ticks))
    change (adjustAll? (t.voices.toList.take count) (·.lengthenLast? ticks))
  return ticks

def playVoice? (offset held velocity rest delay pitch : Nat) (voice : Timeline) :
    Option Timeline := do
  let draft := ⟨[pitch], ← minus? held delay, velocity, false⟩
  return (← (voice.pad delay).pushNote? offset true draft).trail rest

def playVoices? (play : (delay pitch : Nat) → Timeline → Option Timeline) (interval : Nat) :
    (delay : Nat) → List (TimelineId × Nat) → Arena → Option Arena
  | _, [], arena => some arena
  | delay, (voice, pitch) :: rest, arena => do
    playVoices? play interval (delay + interval) rest (← arena.adjust? voice (play delay pitch))

def commitArpeggio? (here : TimelineId) (offset : Nat) (staged : Staged) (interval : Nat) :
    Checked Arena Nat := do
  let extra ← update? here (·.calibrate? staged.ticks)
  let (graces, mains) := staged.notes.partition (·.grace)
  change (adjust? here (·.pushNotes? offset graces))
  let advanced := Draft.sum Draft.duration graces
  match mains with
  | [] =>
    change (adjust? here fun t => some (t.trail (staged.rest + extra)))
    return advanced + (staged.rest + extra)
  | chord :: _ =>
    let sounding := Draft.sum Draft.duration mains
    let held := if 0 < staged.rest then sounding else sounding + extra
    let rest := if 0 < staged.rest then staged.rest + extra else staged.rest
    if held ≤ interval * (chord.pitches.length - 1) then Checked.failAt offset .arpeggioTooLong
    let voices ← (List.range chord.pitches.length).mapM fun i => childAt? here offset (.voice i)
    change (adjust? here fun t =>
      some { t.trail (held + rest) with last := .arpeggio chord.pitches.length })
    change (playVoices? (playVoice? offset held chord.velocity rest) interval 0
      (voices.zip chord.pitches))
    return advanced + held + rest

variable {arena : Arena} {id here : TimelineId} {roots : List TimelineId}

theorem getElem?_timelines (inside : id < arena.timelines.size) :
    arena.timelines[id]? = some (arena.timeline id) := by
  rw [timeline, Array.getElem?_eq_getElem inside, Option.getD_some]

theorem adjust?_eq (inside : id < arena.timelines.size) {f : Timeline → Option Timeline}
    {g : Timeline → Timeline} (defined : f (arena.timeline id) = some (g (arena.timeline id))) :
    arena.adjust? id f = some (arena.adjust id g) := by
  simp only [adjust?, getElem?_timelines inside, defined, Option.bind_eq_bind, Option.bind_some,
    Option.pure_def]
  exact congrArg some (adjust_congr rfl)

section
variable {β : Type} {P : Arena → Prop} {f : Timeline → Checked Arena β} {g : Arena → Step Arena β}

theorem agrees_timeline (inside : id < arena.timelines.size)
    (rest : Agrees (fun t => t = arena) (f (arena.timeline id)) (g arena)) :
    Agrees (fun t => t = arena) (timeline? id >>= f) (get >>= g) := by
  rintro arena rfl
  have started : (timeline? id >>= f).run.run arena =
    (answer arena.timelines[id]? >>= f).run.run arena := rfl
  rw [started, getElem?_timelines inside]
  exact rest rfl

theorem agrees_update {x : Timeline → Option (α × Timeline)} {p : Timeline → α × Timeline}
    (inside : ∀ {arena}, P arena → id < arena.timelines.size)
    (defined : ∀ {arena}, P arena → x (arena.timeline id) = some (p (arena.timeline id))) :
    Agrees P (update? id x) (update id p) := by
  intro arena known
  have started : (update? id x).run.run arena = (answer arena.timelines[id]? >>= fun t =>
    answer (x t) >>= fun (a, t) => (do
      modify (adjust id fun _ => t)
      return a)).run.run arena := rfl
  rw [started, getElem?_timelines (inside known), answer_bind, defined known, answer_bind, update_run]
  exact congrArg (EStateM.Result.ok _) (adjust_congr rfl)

theorem agrees_on {x : Checked Timeline α} {p : Step Timeline α} {R : Timeline → Prop}
    (inside : ∀ {arena}, P arena → id < arena.timelines.size) (agrees : Agrees R x p)
    (known : ∀ {arena}, P arena → R (arena.timeline id)) : Agrees P (on? id x) (on id p) := by
  refine .look fun arena before => .required (inside before) ?_
  rintro arena rfl
  have same := agrees (known before)
  have checked : (OptionT.mk (on id x.run) : Checked Arena α).run.run arena = _ := on_run ..
  rw [checked, on_run, same]
  cases p.run (arena.timeline id) <;> rfl

end

theorem create?_eq (channel : Nat) (arena : Arena) :
    arena.create? channel = some (arena.create channel) := by
  have size : (arena.create channel).2.timelines.size = arena.timelines.size + 1 :=
    Array.size_push _
  simp only [create?, size, minus?_eq (Nat.le_add_left ..), Nat.add_sub_cancel, Option.bind_eq_bind,
    Option.bind_some, Option.pure_def]
  rfl

theorem addChild?_eq (inside : here < arena.timelines.size) (slot : Slot) :
    arena.addChild? here slot = some (arena.addChild here slot) := by
  simp only [addChild?, getElem?_timelines inside, create?_eq, Option.bind_eq_bind, Option.bind_some]
  exact adjust?_eq (inside_create inside _) rfl

theorem addChildren?_eq (inside : here < arena.timelines.size) (slot : Slot) (count : Nat) :
    addChildren? here slot count arena = some (Nat.repeat (addChild here slot) count arena) := by
  induction count with
  | zero => rfl
  | succ count ih =>
    have grown := (size_list_repeat inside slot count).1
    simp only [addChildren?, ih, Option.bind_eq_bind, Option.bind_some, Nat.repeat]
    exact addChild?_eq (Nat.lt_of_lt_of_le inside grown) slot

/-- Both lists of a timeline hold ids of timelines. -/
theorem Forest.inside_of_listed (forest : Forest roots arena) (slot : Slot)
    (member : id ∈ arena.listed slot.list) : id < arena.timelines.size := by
  cases slot with
  | branch => exact forest.lt_size (List.mem_append_left _ (List.mem_append_right _ member))
  | voice => exact forest.lt_size (List.mem_append_right _ member)

theorem agrees_childAt (forest : Forest roots arena) (inside : here < arena.timelines.size)
    (offset : Nat) (slot : Slot) : Agrees (fun t => t = arena) (childAt? here offset slot)
      (childAt here offset slot) := by
  refine agrees_timeline inside (.changed (addChildren?_eq inside slot _) ?_)
  have path := Arena.withChild_strides inside slot
  have inside' := Nat.lt_of_lt_of_le inside path.grows.size
  refine agrees_timeline inside' (.defined (Level.slot_claimed inside slot rfl) ?_)
  have child := (path.forest forest).inside_of_listed slot (withChild_mem inside slot)
  refine .changed (adjust?_eq child rfl) (agrees_timeline ?_ (.guarded fun caught => ?_))
  · exact Nat.lt_of_lt_of_eq child (size_adjust ..).symm
  · refine .defined (minus?_eq (Nat.le_of_not_lt caught)) (.changed (adjust?_eq ?_ rfl) (.pure _))
    exact Nat.lt_of_lt_of_eq child (size_adjust ..).symm

theorem childAt_path (inside : here < arena.timelines.size) {offset : Nat} {slot : Slot}
    {arena' : Arena} (done : (childAt here offset slot).run arena = .ok id arena') :
    arena.Strides arena' := by
  obtain ⟨-, -, rfl⟩ := childAt_ok done
  exact (Arena.withChild_strides inside slot).trans (adjust_strides _ (Timeline.follow_strides ..))

theorem childAt_inside (forest : Forest roots arena) (inside : here < arena.timelines.size)
    {offset : Nat} {slot : Slot} {arena' : Arena}
    (done : (childAt here offset slot).run arena = .ok id arena') : id < arena'.timelines.size := by
  obtain ⟨rfl, -, rfl⟩ := childAt_ok done
  have path := Arena.withChild_strides inside slot
  have child := (path.forest forest).inside_of_listed slot (withChild_mem inside slot)
  exact Nat.lt_of_lt_of_eq child (size_adjust ..).symm

/-- Voices that are claimed are there. -/
theorem claimVoices_inside {offset count : Nat} {voices : List TimelineId} {arena' : Arena}
    (forest : Forest roots arena) (inside : here < arena.timelines.size)
    (done : (claimVoices here offset count).run arena = .ok voices arena') :
    arena.timelines.size ≤ arena'.timelines.size ∧ ∀ voice ∈ voices, voice < arena'.timelines.size := by
  have claimed := claimVoices_rule (motive := fun arena' voices => Forest roots arena' ∧
    arena.timelines.size ≤ arena'.timelines.size ∧ ∀ voice ∈ voices, voice < arena'.timelines.size)
    ⟨forest, Nat.le_refl _, nofun⟩ (fun ⟨forest, grown, there⟩ one => ?_) done
  · exact claimed.2
  · have inside := Nat.lt_of_lt_of_le inside grown
    have path := childAt_path inside one
    exact ⟨path.forest forest, Nat.le_trans grown path.grows.size, List.forall_mem_append.mpr
      ⟨fun voice listed => Nat.lt_of_lt_of_le (there voice listed) path.grows.size,
        List.forall_mem_singleton.mpr (childAt_inside forest inside one)⟩⟩

theorem agrees_claimVoices (forest : Forest roots arena) (inside : here < arena.timelines.size)
    (offset : Nat) (slots : List Nat) : Agrees (fun t => t = arena)
      (slots.mapM fun i => childAt? here offset (.voice i))
      (slots.mapM fun i => childAt here offset (.voice i)) := by
  refine Agrees.start (P := fun arena => Forest roots arena ∧ here < arena.timelines.size)
    (.mapM (fun i _ => .each fun arena known => agrees_childAt known.1 known.2 offset _)
      fun i _ {arena voice arena'} known done => ?_) ⟨forest, inside⟩
  have path := childAt_path known.2 done
  exact ⟨path.forest known.1, Nat.lt_of_lt_of_le known.2 path.grows.size⟩

theorem agrees_updated {β : Type} {x : Timeline → Option (α × Timeline)}
    {p : Timeline → α × Timeline} {f : α → Checked Arena β} {g : α → Step Arena β}
    (inside : id < arena.timelines.size)
    (defined : x (arena.timeline id) = some (p (arena.timeline id)))
    (rest : Agrees (fun t => t = arena.adjust id fun t => (p t).2) (f (p (arena.timeline id)).1)
      (g (p (arena.timeline id)).1)) :
    Agrees (fun t => t = arena) (update? id x >>= f) (update id p >>= g) := by
  refine Agrees.bind (Q := fun a t => a = (p (arena.timeline id)).1 ∧
      t = arena.adjust id fun t => (p t).2)
    (agrees_update (fun same => same ▸ inside) fun same => same ▸ defined)
    (fun {s a t} same done => ?_) fun a => .each fun t known => ?_
  · rw [update_run] at done
    cases done
    cases same
    exact ⟨rfl, rfl⟩
  · obtain ⟨rfl, rfl⟩ := known
    exact rest

theorem adjustAll?_eq {ids : List TimelineId} (each : arena.Each Timeline.Recalls)
    (inside : ∀ id ∈ ids, id < arena.timelines.size) (ticks : Nat) :
    arena.adjustAll? ids (·.lengthenLast? ticks) =
      some (arena.adjustAll ids (·.lengthenLast ticks)) := by
  induction ids generalizing arena with
  | nil => rfl
  | cons id ids ih =>
    obtain ⟨first, others⟩ := List.forall_mem_cons.mp inside
    have later : (arena.adjust id (·.lengthenLast ticks)).Each Timeline.Recalls :=
      each.adjust fun recalls => recalls.lengthenLast ticks
    have next := ih later fun other listed =>
      Nat.lt_of_lt_of_eq (others other listed) (size_adjust ..).symm
    have one := adjust?_eq first (Timeline.lengthenLast?_eq (each id first) ticks)
    simp only [adjustAll?, List.foldlM_cons, one, Option.bind_eq_bind, Option.bind_some]
    exact next

theorem agrees_tie (sound : Sound roots [] arena) (playable : arena.Playable roots here)
    (real : (arena.timeline here).Real) (offset : Nat) :
    Agrees (fun t => t = arena) (tie? here offset) (tie here offset) := by
  have inside := sound.inside playable
  refine agrees_timeline inside (agrees_updated inside (Timeline.calibrate?_eq real _) ?_)
  obtain ⟨path, sound⟩ := sound.adjust_playable playable
    (f := fun t => (t.calibrate (arena.timeline here).state.quantization).2)
    (Timeline.calibrate_still ..).strides
  have inside := Nat.lt_of_lt_of_le inside path.grows.size
  generalize arena.adjust here _ = tuned at *
  refine agrees_timeline inside ?_
  dsimp only
  cases last : (tuned.timeline here).last with
  | nothing => exact fun _ _ => rfl
  | note index =>
    refine .changed (adjust?_eq inside ?_) (.pure _)
    obtain ⟨note, logged⟩ := (sound.orderly here).recalls index last
    simp only [Timeline.lengthenNote?, logged, Event.note?, Option.bind_eq_bind, Option.bind_some,
      Option.pure_def]
  | rest => exact .changed (adjust?_eq inside rfl) (.pure _)
  | arpeggio count =>
    refine .changed (adjust?_eq inside rfl) (.changed (adjustAll?_eq ?_ ?_ _) (.pure _))
    · exact Each.adjust (fun id _ => (sound.orderly id).recalls) id
    · intro voice listed
      have owned := Array.mem_toList_iff.mp (List.mem_of_mem_take listed)
      rw [size_adjust]
      exact sound.forest.lt_size (List.mem_append_right _ (mem_listed owned inside))

theorem playVoice?_eq (offset velocity rest pitch : Nat) {held delay : Nat} (early : delay ≤ held)
    (voice : Timeline) : playVoice? offset held velocity rest delay pitch voice =
      some (playVoice offset held velocity rest delay pitch voice) := by
  simp only [playVoice?, minus?_eq early, Timeline.pushNote?_eq, Option.bind_eq_bind,
    Option.bind_some, Option.pure_def]
  rfl

theorem playVoices?_eq (offset velocity rest : Nat) {held interval delay : Nat}
    {pairs : List (TimelineId × Nat)} (inside : ∀ pair ∈ pairs, pair.1 < arena.timelines.size)
    (early : ∀ i < pairs.length, delay + interval * i ≤ held) :
    playVoices? (playVoice? offset held velocity rest) interval delay pairs arena =
      some (playVoices (playVoice offset held velocity rest) interval delay pairs arena) := by
  induction pairs generalizing delay arena with
  | nil => rfl
  | cons pair pairs ih =>
    obtain ⟨first, others⟩ := List.forall_mem_cons.mp inside
    have soon : delay ≤ held := early 0 (Nat.zero_lt_succ _)
    have one := adjust?_eq first
      (playVoice?_eq offset velocity rest pair.2 soon (arena.timeline pair.1))
    have later (i : Nat) (counted : i < pairs.length) : delay + interval + interval * i ≤ held := by
      have next := early (i + 1) (Nat.succ_lt_succ counted)
      rwa [Nat.mul_succ, Nat.add_comm (interval * i), ← Nat.add_assoc] at next
    rw [playVoices?, one]
    exact ih (fun other listed => Nat.lt_of_lt_of_eq (others other listed) (size_adjust ..).symm) later

theorem agrees_commitArpeggio (forest : Forest roots arena) (inside : here < arena.timelines.size)
    (real : (arena.timeline here).Real) (offset interval : Nat) (staged : Staged) :
    Agrees (fun t => t = arena) (commitArpeggio? here offset staged interval)
      (commitArpeggio here offset staged interval) := by
  unfold commitArpeggio? commitArpeggio
  rcases parted : staged.notes.partition (·.grace) with ⟨graces, mains⟩
  rw [parted]
  refine agrees_updated inside (Timeline.calibrate?_eq real _) ?_
  have forest := (adjust_strides (f := fun t => (t.calibrate staged.ticks).2) here
    (Timeline.calibrate_still ..).strides).forest forest
  have inside := Nat.lt_of_lt_of_eq inside
    (size_adjust here (fun t => (t.calibrate staged.ticks).2) arena).symm
  generalize arena.adjust here _ = tuned at *
  refine .changed (adjust?_eq inside (Timeline.pushNotes?_eq ..)) ?_
  have forest := (adjust_strides here (Timeline.pushNotes_strides offset graces _)).forest forest
  have inside := Nat.lt_of_lt_of_eq inside
    (size_adjust here (Timeline.pushNotes offset graces) tuned).symm
  generalize tuned.adjust here _ = sounded at *
  cases mains with
  | nil => exact .changed (adjust?_eq inside rfl) (.pure _)
  | cons chord mains =>
    refine .guarded fun long => ?_
    refine Agrees.bind (agrees_claimVoices forest inside offset _)
      (fun same done => claimVoices_inside forest inside (same ▸ done)) fun voices => ?_
    refine .each fun claimed known => ?_
    refine .changed (adjust?_eq (Nat.lt_of_lt_of_le inside known.1) rfl) ?_
    refine .changed (playVoices?_eq _ _ _ (fun pair listed => ?_) fun i counted => ?_) (.pure _)
    · rw [size_adjust]
      exact known.2 pair.1 (List.of_mem_zip listed).1
    · have few : i ≤ chord.pitches.length - 1 := by
        rw [List.length_zip] at counted
        omega
      have spread := Nat.mul_le_mul_left interval few
      omega

end Arena
end TextScore
