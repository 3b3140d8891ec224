import Mathlib.Algebra.GroupWithZero.Nat
import TextScore.Proofs.Advances

/-! Tuplets are exact. Whatever is played on a timeline in a tuplet, in whole units, the cursor is
never more than a fraction of a tick behind where it should be, so a whole tuplet fills the time of
two of the units around it. -/
namespace TextScore

namespace Tuplet

/-- Whole units are counted as what they are. -/
theorem units_mul {unit : Nat} (some : 0 < unit) (count : Nat) : units unit (count * unit) = count := by
  have bounds : count * (2 * unit) ≤ 2 * (count * unit) + unit ∧
      2 * (count * unit) + unit < (count + 1) * (2 * unit) := by
    rw [Nat.add_mul, Nat.mul_left_comm]
    omega
  exact Nat.div_eq_of_lt_le bounds.1 bounds.2

/-- The tuplet when so many units have been played. -/
def atUnit (span size count : Nat) : Tuplet := ⟨size, span % size, count * (span % size) % size⟩

/-- The part of a span that so many units should fill. -/
def share (span size count : Nat) : Nat := span * count / size

variable {span size : Nat}

theorem ofSpan_eq (span size : Nat) : ofSpan span size = atUnit span size 0 := by
  simp only [ofSpan, atUnit, Nat.zero_mul, Nat.zero_mod]

theorem share_eq (some : 0 < size) (count : Nat) :
    share span size count = count * quantization span size + count * (span % size) / size := by
  have parts : span * count = size * (count * (span / size)) + count * (span % size) := by
    calc
      span * count = (size * (span / size) + span % size) * count := by rw [Nat.div_add_mod]
      _ = size * (count * (span / size)) + count * (span % size) := by
        rw [Nat.add_mul, Nat.mul_assoc, Nat.mul_comm (span / size), Nat.mul_comm (span % size)]
  rw [share, parts, Nat.mul_add_div some, quantization]

/-- What is paid out for more units keeps to the shares. -/
theorem pay_atUnit (span : Nat) (some : 0 < size) (count more : Nat) :
    share span size count + (more * quantization span size + ((atUnit span size count).pay more).1) =
        share span size (count + more) ∧
      ((atUnit span size count).pay more).2 = atUnit span size (count + more) := by
  have owed : (count + more) * (span % size) =
      size * (count * (span % size) / size) +
        (count * (span % size) % size + more * (span % size)) := by
    rw [Nat.add_mul, ← Nat.add_assoc, Nat.div_add_mod]
  constructor
  · rw [share_eq some, share_eq some, owed, Nat.mul_add_div some, Nat.add_mul]
    simp only [pay, atUnit]
    omega
  · simp only [pay, atUnit, Nat.mod_add_mod, ← Nat.add_mul]

/-- One unit more takes as long as a unit, or a tick longer. -/
theorem share_succ (span : Nat) (some : 0 < size) (count : Nat) :
    share span size count + quantization span size ≤ share span size (count + 1) ∧
      share span size (count + 1) ≤ share span size count + quantization span size + 1 := by
  have paid := (pay_atUnit span some count 1).1
  have owed : (atUnit span size count).owed < size := Nat.mod_lt _ some
  have remainder : span % size < size := Nat.mod_lt _ some
  have one : ((atUnit span size count).pay 1).1 < 2 := by
    refine Nat.div_lt_of_lt_mul ?_
    simp only [atUnit] at owed ⊢
    omega
  omega

end Tuplet

/-- What playing on a timeline leaves of how it is played. -/
structure Timeline.InTune (t t' : Timeline) : Prop where
  state : t'.state = t.state
  tuplet : t'.tuplet = t.tuplet

namespace Timeline

theorem InTune.trans {t t' t'' : Timeline} (first : t.InTune t') (second : t'.InTune t'') :
    t.InTune t'' := ⟨second.state.trans first.state, second.tuplet.trans first.tuplet⟩

theorem inTune_pushNotes (offset : Nat) (drafts : List Draft) (t : Timeline) :
    t.InTune (t.pushNotes offset drafts) := by
  induction drafts generalizing t with
  | nil => exact ⟨rfl, rfl⟩
  | cons draft drafts ih =>
    have pushed : t.InTune (t.pushNote offset false draft) := ⟨rfl, rfl⟩
    exact pushed.trans (ih _)

theorem inTune_pad (length : Nat) (t : Timeline) : t.InTune (t.pad length) := by
  unfold pad
  split <;> exact ⟨rfl, rfl⟩

end Timeline

namespace Arena
open Timeline (InTune)
variable {roots : List TimelineId} {arena arena' : Arena} {here id : TimelineId} {ticks : Nat}

theorem inTune_moves (arena : Arena) (moves : List (TimelineId × (Timeline → Timeline)))
    (others : ∀ move ∈ moves, move.1 ≠ here) : (arena.timeline here).InTune
      ((moves.foldl (fun arena move => arena.adjust move.1 move.2) arena).timeline here) := by
  induction moves generalizing arena with
  | nil => exact ⟨rfl, rfl⟩
  | cons move moves ih =>
    obtain ⟨other, others⟩ := List.forall_mem_cons.mp others
    have still := timeline_adjust_ne move.2 arena other
    exact ⟨(ih _ others).state.trans (congrArg Timeline.state still),
      (ih _ others).tuplet.trans (congrArg Timeline.tuplet still)⟩

theorem inTune_claimVoice (forest : Forest roots arena) (inside : here < arena.timelines.size)
    {offset index : Nat} (done : (childAt here offset (.voice index)).run arena = .ok id arena') :
    (arena.timeline here).InTune (arena'.timeline here) := by
  obtain ⟨taken, -, rfl⟩ := childAt_ok done
  have added : (arena.timeline here).InTune
      ((arena.withChild here (.voice index)).timeline here) := by
    refine Arena.withChild_rule inside _ ⟨rfl, rfl⟩ fun inside tuned => tuned.trans ?_
    rw [timeline_addChild inside, if_pos rfl]
    exact ⟨rfl, rfl⟩
  have owned := Array.mem_of_getElem? (Level.slot_claimed inside (.voice index) taken)
  have younger := ((Arena.withChild_strides inside (.voice index)).forest forest).younger here id
    (.inr owned)
  rw [timeline_adjust_ne _ _ (Nat.ne_of_gt younger)]
  exact added

theorem inTune_claimVoices (forest : Forest roots arena) (inside : here < arena.timelines.size)
    {offset count : Nat} {claimed : List TimelineId}
    (done : (Arena.claimVoices here offset count).run arena = .ok claimed arena') :
    (arena.timeline here).InTune (arena'.timeline here) := by
  have tuned := claimVoices_rule (motive := fun arena' _ => Forest roots arena' ∧
    here < arena'.timelines.size ∧ (arena.timeline here).InTune (arena'.timeline here))
    ⟨forest, inside, rfl, rfl⟩ (fun ⟨forest, inside, tuned⟩ one => ?_) done
  · exact tuned.2.2
  · obtain ⟨frame, grown, -⟩ := Frame.claimVoice forest inside one
    exact ⟨grown, Nat.lt_of_lt_of_le inside frame.size, tuned.trans (inTune_claimVoice forest inside one)⟩

/-- What may be played on a timeline in a tuplet. -/
inductive Emission where
  /-- A rest of so many ticks, or of one unit. -/
  | rest (length : Option Nat)
  | commit (offset : Nat) (staged : Staged)
  | tie (offset : Nat)
  | arpeggio (offset : Nat) (staged : Staged) (interval : Nat)

namespace Emission

def emit (here : TimelineId) : Emission → Step Arena Nat
  | rest none => update here Timeline.rest
  | rest (some length) => update here (Timeline.restFor length)
  | commit offset staged => update here (Timeline.commit offset staged)
  | tie offset => Arena.tie here offset
  | arpeggio offset staged interval => commitArpeggio here offset staged interval

/-- How long it takes on a timeline of a certain unit, without what a tuplet owes for it. -/
def plain (unit : Nat) : Emission → Nat
  | rest length => length.getD unit
  | commit _ staged | arpeggio _ staged _ => staged.ticks
  | tie _ => unit

/-- Cursors before, between and after some emissions. -/
def trace (here : TimelineId) : List Emission → Step Arena (List Nat)
  | [] => return [((← get).timeline here).position]
  | emission :: emissions => do
    let cursor := ((← get).timeline here).position
    let _ ← emission.emit here
    return cursor :: (← trace here emissions)

/-- An emission takes so many whole units. -/
def Counts (unit : Nat) (emission : Emission) (count : Nat) : Prop :=
  1 ≤ count ∧ emission.plain unit = count * unit

/-- What an emission does to its timeline: it takes its ticks and what the tuplet owes for them. -/
structure Emitted (here : TimelineId) (plain : Nat) (arena arena' : Arena) : Prop where
  forest : ∀ {roots}, Forest roots arena → Forest roots arena'
  frame : Frame here (plain + ((arena.timeline here).calibrate plain).1) arena arena'
  inTune : ((arena.timeline here).calibrate plain).2.InTune (arena'.timeline here)

theorem Emitted.own (inside : here < arena.timelines.size) {plain : Nat} {f : Timeline → Timeline}
    (onward : (arena.timeline here).Onward (f (arena.timeline here)))
    (position : (f (arena.timeline here)).position =
      (arena.timeline here).position + (plain + ((arena.timeline here).calibrate plain).1))
    (inTune : ((arena.timeline here).calibrate plain).2.InTune (f (arena.timeline here))) :
    Emitted here plain arena (arena.adjust here f) where
  forest forest := forest.onward onward
  frame := .own inside ⟨onward, position⟩
  inTune := by
    rw [timeline_adjust_self here f arena inside]
    exact inTune

theorem emitted_rest (inside : here < arena.timelines.size) {length : Nat} (long : 0 < length) :
    Emitted here length arena (arena.adjust here fun t => (t.restFor length).2) := by
  have answered := Timeline.position_restFor length (arena.timeline here)
  refine .own inside ?_ (answered.trans ?_) ?_
  all_goals
    unfold Timeline.restFor
    rw [if_neg (Nat.ne_of_gt long)]
  · exact (Timeline.Onward.calibrate length _).trans (.pad ..)
  · exact Timeline.inTune_pad _ _

theorem emitted_commit (inside : here < arena.timelines.size) {offset : Nat} {staged : Staged}
    (done : (update here (Timeline.commit offset staged)).run arena = .ok ticks arena') :
    Emitted here staged.ticks arena arena' := by
  rw [update_run] at done
  cases done
  refine .own inside (.commit ..) ?_ ?_
  · rw [Timeline.position_commit, Nat.add_assoc]
  · have pushed := Timeline.inTune_pushNotes offset
      (Timeline.extend ((arena.timeline here).calibrate staged.ticks).1 staged |>.notes.filter
        (0 < ·.duration)) ((arena.timeline here).calibrate staged.ticks).2
    exact ⟨pushed.state, pushed.tuplet⟩

theorem emitted_tie (forest : Forest roots arena) (inside : here < arena.timelines.size)
    {offset : Nat} (done : (Arena.tie here offset).run arena = .ok ticks arena') :
    Emitted here (arena.timeline here).state.quantization arena arena' := by
  have forests : ∀ {roots}, Forest roots arena → Forest roots arena' :=
    fun forest => forest.tie inside done
  have frame := Frame.tie_step forest inside done
  obtain ⟨extra, tuned, calibrated, rfl, ties⟩ := tie_ok inside done
  refine ⟨forests, ?_, ?_⟩ <;> rw [calibrated]
  · exact frame
  · cases ties with
    | note | rest =>
      rw [timeline_adjust_self _ _ _ inside]
      exact ⟨rfl, rfl⟩
    | @arpeggio count =>
      have trailed : tuned.InTune ((arena.adjust here fun _ => tuned.trail
          ((arena.timeline here).state.quantization + extra)).timeline here) := by
        rw [timeline_adjust_self _ _ _ inside]
        exact ⟨rfl, rfl⟩
      have voices : tuned.voices = (arena.timeline here).voices := by
        have still := Timeline.calibrate_still (arena.timeline here).state.quantization
          (arena.timeline here)
        rw [calibrated] at still
        exact still.voices
      have lengthened := inTune_moves (arena.adjust here fun _ => tuned.trail
          ((arena.timeline here).state.quantization + extra))
        ((tuned.voices.toList.take count).map fun voice =>
          (voice, Timeline.lengthenLast ((arena.timeline here).state.quantization + extra)))
        fun move listed => by
          obtain ⟨voice, member, rfl⟩ := List.mem_map.mp listed
          exact Nat.ne_of_gt (forest.younger here voice
            (.inr (voices ▸ Array.mem_toList_iff.mp (List.mem_of_mem_take member))))
      rw [List.foldl_map] at lengthened
      exact trailed.trans lengthened

theorem emitted_arpeggio (forest : Forest roots arena) (inside : here < arena.timelines.size)
    {offset interval : Nat} {staged : Staged}
    (done : (commitArpeggio here offset staged interval).run arena = .ok ticks arena') :
    Emitted here staged.ticks arena arena' := by
  have forests : ∀ {roots}, Forest roots arena → Forest roots arena' :=
    fun forest => forest.commitArpeggio inside done
  have frame := Frame.arpeggio_step forest inside done
  obtain ⟨extra, tuned, calibrated, rfl, arpeggiates⟩ := commitArpeggio_ok done
  have onward := Timeline.Onward.calibrate staged.ticks (arena.timeline here)
  rw [calibrated] at onward
  refine ⟨forests, ?_, ?_⟩ <;> rw [calibrated]
  · exact frame
  · cases arpeggiates with
    | graces only =>
      rw [timeline_adjust_self _ _ _ inside]
      exact (Timeline.inTune_pushNotes offset staged.notes tuned).trans ⟨rfl, rfl⟩
    | @chord graces mains chord held rest voices middle parted total long claimed =>
      have graced := forest.onward (f := fun _ => tuned.pushNotes offset graces)
        (onward.trans (.pushNotes ..))
      have inside' := (size_adjust here (fun _ => tuned.pushNotes offset graces) arena).symm ▸ inside
      have claims := inTune_claimVoices graced inside' claimed
      obtain ⟨ready, grown, owned⟩ := Frame.claimVoices graced inside' claimed
      rw [timeline_adjust_self _ _ _ inside] at claims
      have trailed : (middle.timeline here).InTune ((middle.adjust here fun t =>
          { t.trail (held + rest) with last := .arpeggio chord.pitches.length }).timeline here) := by
        rw [timeline_adjust_self _ _ _ (Nat.lt_of_lt_of_le inside' ready.size)]
        exact ⟨rfl, rfl⟩
      rw [Level.playVoices_eq]
      refine (Timeline.inTune_pushNotes offset graces tuned).trans (claims.trans
        (trailed.trans (inTune_moves _ _ fun move listed => ?_)))
      obtain ⟨i, there, rfl⟩ := List.mem_mapIdx.mp listed
      have pair := (List.of_mem_zip (List.getElem_mem there)).1
      exact Nat.ne_of_gt (grown.younger here _ (.inr (owned _ pair)))

theorem emitted {emission : Emission} (forest : Forest roots arena)
    (inside : here < arena.timelines.size)
    (long : 0 < emission.plain (arena.timeline here).state.quantization)
    (done : (emission.emit here).run arena = .ok ticks arena') :
    Emitted here (emission.plain (arena.timeline here).state.quantization) arena arena' := by
  cases emission with
  | rest length => cases length with
    | none =>
      rw [emit, update_run] at done
      cases done
      rw [adjust_congr (g := fun t => (t.restFor (arena.timeline here).state.quantization).2) rfl]
      exact emitted_rest inside long
    | some length =>
      rw [emit, update_run] at done
      cases done
      exact emitted_rest inside long
  | commit offset staged => exact emitted_commit inside done
  | tie offset => exact emitted_tie forest inside done
  | arpeggio offset staged interval => exact emitted_arpeggio forest inside done

end Emission

/-- A timeline on which so many units of a tuplet have been played since a certain tick, and which was
played in a certain way before. -/
structure Filling (before : Performance) (span size start count : Nat) (here : TimelineId)
    (arena : Arena) : Prop where
  forest : ∃ roots, Forest roots arena
  inside : here < arena.timelines.size
  state : (arena.timeline here).state =
    { before with quantization := Tuplet.quantization span size }
  tuplet : (arena.timeline here).tuplet = some (Tuplet.atUnit span size count)
  cursor : (arena.timeline here).position = start + Tuplet.share span size count

namespace Filling
variable {before : Performance} {span size start count more : Nat} {emission : Emission}
  {units : List Nat} {emissions : List Emission} {cursors : List Nat}

/-- Whatever is played, for however many units, the cursor keeps to the shares. -/
theorem emit (filling : Filling before span size start count here arena) (proper : 0 < size)
    (room : size ≤ span) (counts : emission.Counts (Tuplet.quantization span size) more)
    (done : (emission.emit here).run arena = .ok ticks arena') :
    Filling before span size start (count + more) here arena' := by
  obtain ⟨roots, forest⟩ := filling.forest
  have quantization := congrArg Performance.quantization filling.state
  dsimp only at quantization
  have unit : 0 < Tuplet.quantization span size := Nat.div_pos room proper
  have plain : emission.plain (arena.timeline here).state.quantization =
      more * Tuplet.quantization span size := by
    rw [quantization]
    exact counts.2
  have long : 0 < more * Tuplet.quantization span size := Nat.mul_pos counts.1 unit
  have emitted := Emission.emitted forest filling.inside (plain ▸ long) done
  rw [plain] at emitted
  have paid : (arena.timeline here).calibrate (more * Tuplet.quantization span size) =
      (((Tuplet.atUnit span size count).pay more).1,
        { arena.timeline here with tuplet := some ((Tuplet.atUnit span size count).pay more).2 }) := by
    simp only [Timeline.calibrate, filling.tuplet, quantization, Nat.max_eq_left unit,
      Tuplet.units_mul unit]
  obtain ⟨shares, owed⟩ := Tuplet.pay_atUnit span proper count more
  have frame := emitted.frame
  have inTune := emitted.inTune
  rw [paid] at frame inTune
  refine ⟨⟨roots, emitted.forest forest⟩, Nat.lt_of_lt_of_le filling.inside frame.size, ?_,
    inTune.tuplet.trans (congrArg some owed), ?_⟩
  · rw [inTune.state]
    exact filling.state
  · rw [frame.cursor, filling.cursor, Nat.add_assoc, shares]

theorem trace (filling : Filling before span size start count here arena) (proper : 0 < size)
    (room : size ≤ span)
    (counts : List.Forall₂ (Emission.Counts (Tuplet.quantization span size)) emissions units)
    (done : (Emission.trace here emissions).run arena = .ok cursors arena') :
    Filling before span size start (count + units.sum) here arena' ∧
      cursors = (List.range (units.length + 1)).map fun k =>
        start + Tuplet.share span size (count + (units.take k).sum) := by
  induction counts generalizing count arena cursors with
  | nil =>
    cases done
    exact ⟨filling, congrArg (fun cursor => [cursor]) filling.cursor⟩
  | @cons emission more emissions units first others ih =>
    obtain ⟨_, _, read, done⟩ := Step.bind_ok done
    cases read
    obtain ⟨_, middle, emitted, done⟩ := Step.bind_ok done
    obtain ⟨later, last, traced, done⟩ := Step.bind_ok done
    cases done
    obtain ⟨filled, rest⟩ := ih (filling.emit proper room first emitted) traced
    refine ⟨by rwa [List.sum_cons, ← Nat.add_assoc], ?_⟩
    rw [List.length_cons, List.range_succ_eq_map, List.map_cons, List.map_map, filling.cursor, rest]
    simp only [Function.comp_def, List.take_succ_cons, List.take_zero, List.sum_nil, List.sum_cons,
      Nat.add_zero, Nat.add_assoc]

/-- A tuplet begins where it finds its timeline. -/
theorem begin (offset : Nat) {unit : Nat} (forest : Forest roots arena)
    (inside : here < arena.timelines.size) (free : (arena.timeline here).tuplet = none)
    (current : (arena.timeline here).state.quantization = unit) (proper : 0 < size)
    (room : size ≤ 2 * unit) :
    ∃ begun, (on here (Timeline.beginTuplet offset size)).run arena = .ok unit begun ∧
      Filling (arena.timeline here).state (2 * unit) size (arena.timeline here).position 0 here
        begun := by
  subst current
  let entered (t : Timeline) : Timeline :=
    { t with
      state := { t.state with quantization := Tuplet.quantization (2 * t.state.quantization) size }
      tuplet := some (Tuplet.ofSpan (2 * t.state.quantization) size) }
  have unit : Tuplet.quantization (2 * (arena.timeline here).state.quantization) size ≠ 0 :=
    Nat.ne_of_gt (Nat.div_pos room proper)
  have begun : (Timeline.beginTuplet offset size).run (arena.timeline here) =
      .ok (arena.timeline here).state.quantization (entered (arena.timeline here)) := by
    simp only [Timeline.beginTuplet, EStateM.run_bind, EStateM.run_get, Timeline.inTuplet, free,
      Option.isSome_none, Bool.false_eq_true, reduceIte, unit]
    rfl
  refine ⟨arena.adjust here fun _ => entered (arena.timeline here), ?_, ⟨roots, ?_⟩,
    (size_adjust ..).symm ▸ inside, ?_, ?_, ?_⟩
  · rw [on_run, begun]
  · exact forest.adjust rfl rfl
  · rw [timeline_adjust_self _ _ _ inside]
  · rw [timeline_adjust_self _ _ _ inside]
    exact congrArg some (Tuplet.ofSpan_eq ..)
  · rw [timeline_adjust_self _ _ _ inside, Tuplet.share, Nat.mul_zero, Nat.zero_div]
    rfl

end Filling

/-- The ticks between two cursors next to each other. -/
def slot (cursors : List Nat) (i : Nat) : Nat := cursors.getD (i + 1) 0 - cursors.getD i 0

/-- A single unit takes as long as the unit of the tuplet, or a tick longer. -/
theorem slot_shares {span size start i : Nat} {units cursors : List Nat} (proper : 0 < size)
    (shares : cursors = (List.range (units.length + 1)).map fun k =>
      start + Tuplet.share span size (units.take k).sum)
    (single : units[i]? = some 1) :
    Tuplet.quantization span size ≤ slot cursors i ∧
      slot cursors i ≤ Tuplet.quantization span size + 1 := by
  obtain ⟨inside, one⟩ := List.getElem?_eq_some_iff.mp single
  have there (k : Nat) (within : k ≤ units.length) :
      cursors.getD k 0 = start + Tuplet.share span size (units.take k).sum := by
    rw [shares, List.getD_eq_getElem?_getD, List.getElem?_map,
      List.getElem?_range (Nat.lt_succ_of_le within)]
    rfl
  have next : (units.take (i + 1)).sum = (units.take i).sum + 1 := by
    rw [List.take_succ_eq_append_getElem inside, List.sum_append, one]
    rfl
  have bounds := Tuplet.share_succ span proper (units.take i).sum
  rw [slot, there i (Nat.le_of_lt inside), there (i + 1) inside, next]
  omega

/-- In a tuplet of so many units, which are to fill the time of two of the units around it, the cursor
is after every emission where it should be, in whole ticks. So a whole tuplet fills that time, units
differ by a tick at most, and when the tuplet has ended the timeline is played as before. -/
theorem tuplets_fill_their_span {unit offset size : Nat} (forest : Forest roots arena)
    (inside : here < arena.timelines.size) (free : (arena.timeline here).tuplet = none)
    (current : (arena.timeline here).state.quantization = unit) (proper : 0 < size)
    (room : size ≤ 2 * unit) :
    ∃ begun, (on here (Timeline.beginTuplet offset size)).run arena = .ok unit begun ∧
      ∀ emissions units cursors ended,
        List.Forall₂ (Emission.Counts (2 * unit / size)) emissions units →
        (Emission.trace here emissions).run begun = .ok cursors ended →
        (cursors = (List.range (units.length + 1)).map fun k =>
          (arena.timeline here).position + 2 * unit * (units.take k).sum / size) ∧
        (units.sum = size →
          (ended.timeline here).position = (arena.timeline here).position + 2 * unit) ∧
        (∀ i j, units[i]? = some 1 → units[j]? = some 1 → slot cursors i ≤ slot cursors j + 1) ∧
        ((ended.adjust here (Timeline.endTuplet unit)).timeline here).state =
          (arena.timeline here).state ∧
        ((ended.adjust here (Timeline.endTuplet unit)).timeline here).tuplet = none := by
  obtain ⟨begun, ran, filling⟩ := Filling.begin offset forest inside free current proper room
  refine ⟨begun, ran, fun emissions units cursors ended counts traced => ?_⟩
  obtain ⟨filled, shares⟩ := filling.trace proper room counts traced
  simp only [Nat.zero_add] at filled shares
  have after := timeline_adjust_self here (Timeline.endTuplet unit) ended filled.inside
  refine ⟨shares, fun whole => ?_, fun i j first second => ?_, ?_, ?_⟩
  · rw [filled.cursor, whole, Tuplet.share, Nat.mul_div_cancel _ proper]
  · have one := slot_shares proper shares first
    have other := slot_shares proper shares second
    omega
  · rw [after, Timeline.endTuplet, filled.state, ← current]
  · rw [after, Timeline.endTuplet]

/-- A note, an arpeggio and a tie, each as long as a unit of a triplet. -/
def thirds : List Emission :=
  let chord (pitches : List Nat) : Staged := ⟨[⟨pitches, 21, 80, false⟩], 0⟩
  [.commit 1 (chord [60]), .arpeggio 2 (chord [60, 64]) 8, .tie 3]

/-- They fill the time of 64 ticks on a new timeline, which is played as before when their triplet has
ended. -/
theorem triplet_fills_its_span :
    let arena := (Arena.create 1 {}).2
    (arena.timeline 0).tuplet = none ∧ (arena.timeline 0).state.quantization = 32 ∧
    ∃ begun ended, (on 0 (Timeline.beginTuplet 0 3)).run arena = .ok 32 begun ∧
      List.Forall₂ (Emission.Counts (2 * 32 / 3)) thirds [1, 1, 1] ∧
      (Emission.trace 0 thirds).run begun = .ok [0, 21, 42, 64] ended ∧
      (ended.timeline 0).position = 64 ∧ (ended.timeline 0).last = .arpeggio 2 ∧
      ((ended.adjust 0 (Timeline.endTuplet 32)).timeline 0).state = (arena.timeline 0).state ∧
      ((ended.adjust 0 (Timeline.endTuplet 32)).timeline 0).tuplet = none := by
  intro arena
  have counts : List.Forall₂ (Emission.Counts (2 * 32 / 3)) thirds [1, 1, 1] :=
    .cons ⟨by decide, by decide⟩ (.cons ⟨by decide, by decide⟩ (.cons ⟨by decide, by decide⟩ .nil))
  have played : (do
      let _ ← on 0 (Timeline.beginTuplet 0 3)
      let _ ← Emission.trace 0 thirds
      return ((← get).timeline 0).last : Step Arena LastUnit).run' arena =
        some (.arpeggio 2) := by decide +kernel
  obtain ⟨_, played⟩ := Step.exists_of_run' played
  obtain ⟨_, begun, ran, played⟩ := Step.bind_ok played
  obtain ⟨cursors, ended, traced, played⟩ := Step.bind_ok played
  obtain ⟨last, -⟩ := EStateM.Result.ok.inj played
  obtain ⟨begun', ran', exact⟩ := @tuplets_fill_their_span _ arena 0 32 0 3
    (Session.sound_empty.create 1).forest (by decide) rfl rfl (by decide) (by decide)
  cases ran.symm.trans ran'
  obtain ⟨shares, whole, -, state, tuplet⟩ := exact thirds [1, 1, 1] cursors ended counts traced
  have cursors : cursors = [0, 21, 42, 64] := shares
  exact ⟨rfl, rfl, begun, ended, ran, counts, cursors ▸ traced, whole rfl, last, state, tuplet⟩

end Arena
end TextScore
