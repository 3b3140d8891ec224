import TextScore.Proofs.Bends
import TextScore.Proofs.Decorations
import TextScore.Proofs.Lengths

/-! Curves of pitch bends. A pitch bend draws a line to each of its breakpoints from the one before,
however far what stands between them moves the cursor and whatever else it bends, and a track tells
all bends of a timeline in the order of their ticks. -/
namespace TextScore

theorem Binary64.clampUnit_eq (x : Binary64) :
    x.clampUnit = x ∨ x.clampUnit = one.neg ∨ x.clampUnit = one := by
  unfold clampUnit
  split
  · exact .inl rfl
  · split
    · exact .inr (.inl rfl)
    · split
      · exact .inr (.inr rfl)
      · exact .inl rfl

theorem Binary64.clampUnit_clampUnit (x : Binary64) : x.clampUnit.clampUnit = x.clampUnit := by
  have bounds : one.neg.clampUnit = one.neg ∧ one.clampUnit = one := by decide +kernel
  rcases x.clampUnit_eq with same | same | same
  · rw [same, same]
  · rw [same]
    exact bounds.1
  · rw [same]
    exact bounds.2

/-- A place that a curve has come to, and the bends that were recorded on the way from the one
before. -/
structure Stop where
  tick : Nat
  value : Binary64
  bends : List (Nat × Binary64)

/-- A line between two bends: points at every eighth tick before its end, and its end. -/
def bendLine (start target : Binary64) (first last : Nat) : List (Nat × Binary64) :=
  let point (elapsed : Nat) : Nat × Binary64 := (first + elapsed,
    (start + (target - start) * .ofNat elapsed / .ofNat (last - first)).clampUnit)
  ((List.range (last - first)).filter (· % 8 = 0)).map point ++ [(last, target)]

/-- A curve leads from a stop to the next one. Between stops at one tick nothing is divided. -/
structure Stop.Leads (a b : Stop) : Prop where
  order : a.tick ≤ b.tick
  bends : b.bends = bendLine a.value b.value a.tick b.tick
  still : a.tick = b.tick → b.bends = [(b.tick, b.value)]

/-- The bends that a curve has recorded itself, once it has gone back to no bend. -/
def Stop.curve (stops : List Stop) (last : Nat) : List (Nat × Binary64) :=
  stops.flatMap Stop.bends ++ [(last, .zero)]

theorem filter_range_multiples (n : Nat) :
    (List.range n).filter (· % 8 = 0) = (List.range ((n + 7) / 8)).map (· * 8) := by
  induction n with
  | zero => rfl
  | succ n ih =>
    rw [List.range_succ, List.filter_append, ih, List.filter_singleton]
    by_cases multiple : n % 8 = 0
    · have more : (n + 1 + 7) / 8 = (n + 7) / 8 + 1 := by omega
      have last : (n + 7) / 8 * 8 = n := by omega
      rw [more, List.range_succ, List.map_append, List.map_singleton, last]
      simp only [multiple, decide_true, cond_true]
    · have same : (n + 1 + 7) / 8 = (n + 7) / 8 := by omega
      rw [same]
      simp only [multiple, decide_false, cond_false, List.append_nil]

theorem Stop.Leads.of_bends {a b : Stop} (order : a.tick ≤ b.tick)
    (bends : b.bends = bendLine a.value b.value a.tick b.tick) : a.Leads b where
  order := order
  bends := bends
  still same := by
    rw [bends, same, bendLine, Nat.sub_self]
    rfl

theorem mem_bendLine {start target : Binary64} {first last : Nat} (order : first ≤ last)
    {bend : Nat × Binary64} (listed : bend ∈ bendLine start target first last) :
    first ≤ bend.1 ∧ bend.1 ≤ last := by
  rcases List.mem_append.mp listed with between | there
  · obtain ⟨elapsed, counted, rfl⟩ := List.mem_map.mp between
    have few := List.mem_range.mp (List.mem_of_mem_filter counted)
    exact ⟨Nat.le_add_right .., by dsimp only; omega⟩
  · obtain rfl := List.mem_singleton.mp there
    exact ⟨order, Nat.le_refl _⟩

/-- All bends on the way lie between its stops. -/
theorem Stop.within {a : Stop} {stops : List Stop} {last : Nat}
    (leads : (a :: stops).IsChain Stop.Leads) (before : ∀ stop ∈ stops, stop.tick ≤ last) :
    ∀ bend ∈ stops.flatMap Stop.bends, a.tick ≤ bend.1 ∧ bend.1 ≤ last := by
  induction stops generalizing a with
  | nil => exact nofun
  | cons b stops ih =>
    obtain ⟨first, leads⟩ := List.isChain_cons_cons.mp leads
    obtain ⟨there, before⟩ := List.forall_mem_cons.mp before
    intro bend listed
    rw [List.flatMap_cons, List.mem_append] at listed
    rcases listed with own | later
    · rw [first.bends] at own
      have inside := mem_bendLine first.order own
      exact ⟨inside.1, Nat.le_trans inside.2 there⟩
    · have inside := ih leads before bend later
      exact ⟨Nat.le_trans first.order inside.1, inside.2⟩

namespace Session
variable {inner : Performer} {here : TimelineId} {references : Nat} {s t u : Session}

theorem addBends_bendLine (start target : Binary64) (first last : Nat) (t : Timeline) :
    (addBends (bendSamples start target.clampUnit first last) t).addBend last target.clampUnit =
      t.record (bendLine start target.clampUnit first last) := by
  rw [Timeline.addBend_eq, Timeline.addBends_eq, Timeline.record_record,
    Binary64.clampUnit_clampUnit, bendLine, filter_range_multiples, List.map_map, bendSamples, List.map_map]
  rfl

/-- How a session goes on through the body of a pitch bend: items are performed, and a breakpoint
records bends. -/
inductive Drawing (inner : Performer) (here : TimelineId) (references : Nat) :
    List Item → Session → List Stop → Session → Prop
  | done (s : Session) : Drawing inner here references [] s [] s
  | item {item : Item} {body : List Item} {s t u : Session} {ticks : Nat} {stops : List Stop}
    (other : ∀ offset value, item ≠ .breakpoint offset value)
    (performed : (inner here references item).run s = .ok ticks t)
    (rest : Drawing inner here references body t stops u) :
    Drawing inner here references (item :: body) s stops u
  | breakpoint {offset : Nat} {value : Binary64} {body : List Item} {s t : Session}
    {bends : List (Nat × Binary64)} {stops : List Stop}
    (rest : Drawing inner here references body
      { s with arena := s.arena.adjust here (Timeline.record bends) } stops t) :
    Drawing inner here references (.breakpoint offset value :: body) s
      (⟨(s.arena.timeline here).position, value.clampUnit, bends⟩ :: stops) t

/-- What a pitch bend does about an item of its body. -/
def bendStep (inner : Performer) (here : TimelineId) (references : Nat) (point : BendPoint) :
    Item → Play BendPoint
  | .breakpoint _ value => do
    let target := value.clampUnit
    let position := (← timeline here).position
    adjust here (addBends (bendSamples point.value target point.position position))
    adjust here (Timeline.addBend position target)
    return ⟨point.ticks, target, position⟩
  | item => return { point with ticks := point.ticks + (← inner here references item) }

theorem performBend_eq (body : List Item) : performBend inner here references body = (do
    let final ← body.foldlM (bendStep inner here references)
      ⟨0, .zero, (← timeline here).position⟩
    let position := (← timeline here).position
    adjust here (Timeline.addBend position .zero)
    return final.ticks) := rfl

theorem bendStep_breakpoint (point : BendPoint) (offset : Nat) (value : Binary64) (s : Session) :
    let last := (s.arena.timeline here).position
    (bendStep inner here references point (.breakpoint offset value)).run s =
      .ok ⟨point.ticks, value.clampUnit, last⟩
        { s with arena := s.arena.adjust here (Timeline.record
            (bendLine point.value value.clampUnit point.position last)) } := by
  intro last
  have drawn := funext (addBends_bendLine point.value value point.position last)
  have both : (s.arena.adjust here (addBends (bendSamples point.value value.clampUnit
      point.position last))).adjust here (Timeline.addBend last value.clampUnit) =
        s.arena.adjust here _ := (Arena.adjust_adjust ..).trans (congrArg (s.arena.adjust here) drawn)
  exact congrArg (fun arena => EStateM.Result.ok _ { s with arena := arena }) both

theorem bendStep_item (point : BendPoint) {item : Item}
    (other : ∀ offset value, item ≠ .breakpoint offset value) :
    bendStep inner here references point item =
      (do return { point with ticks := point.ticks + (← inner here references item) }) := by
  cases item with
  | breakpoint offset value => exact absurd rfl (other offset value)
  | _ => rfl

theorem Ready.record {live : List TimelineId} (ready : Ready live s) (bends : List (Nat × Binary64)) :
    Ready live { s with arena := s.arena.adjust here (Timeline.record bends) } := by
  obtain ⟨roots, forest⟩ := ready.forest
  exact ⟨⟨roots, forest.adjust rfl rfl⟩, fun id listed =>
    (Arena.size_adjust ..).symm ▸ ready.inside id listed⟩

/-- An item moves no cursor back, and takes back no bends. -/
theorem onward_performed (ready : Ready [here] s) {depth ticks : Nat} {item : Item}
    (done : (perform depth here references item).run s = .ok ticks t) :
    Ready [here] t ∧ (s.arena.timeline here).position ≤ (t.arena.timeline here).position ∧
      (s.arena.timeline here).Accrues (t.arena.timeline here) := by
  obtain ⟨roots, forest⟩ := ready.forest
  have moved := cursor_performed forest (ready.inside here List.mem_cons_self) done
  obtain ⟨ready, accrues⟩ := bends_performed ready List.mem_cons_self done
  exact ⟨ready, by omega, accrues here⟩

/-- The loop over a body draws a line to each breakpoint. -/
theorem exists_drawing {depth count : Nat} {body : List Item} {final : BendPoint} {a : Stop}
    (ready : Ready [here] s) (reached : a.tick ≤ (s.arena.timeline here).position)
    (done : (body.foldlM (bendStep (perform depth) here references) ⟨count, a.value, a.tick⟩).run s =
      .ok final u) :
    ∃ stops, Drawing (perform depth) here references body s stops u ∧
      (a :: stops).IsChain Stop.Leads := by
  induction body generalizing s count a with
  | nil =>
    cases done
    exact ⟨[], .done u, .singleton a⟩
  | cons item body ih =>
    rw [List.foldlM_cons] at done
    obtain ⟨next, t, first, done⟩ := Step.bind_ok done
    by_cases other : ∀ offset value, item ≠ .breakpoint offset value
    · rw [bendStep_item _ other] at first
      obtain ⟨more, v, performed, answered⟩ := Step.bind_ok first
      cases answered
      obtain ⟨ready, moved, -⟩ := onward_performed ready performed
      obtain ⟨stops, drawing, leads⟩ := ih (a := a) ready (Nat.le_trans reached moved) done
      exact ⟨stops, .item other performed drawing, leads⟩
    · obtain ⟨offset, value, rfl⟩ : ∃ offset value, item = .breakpoint offset value := by
        simpa only [not_forall, not_not] using other
      rw [bendStep_breakpoint] at first
      cases first
      let b : Stop := ⟨(s.arena.timeline here).position, value.clampUnit,
        bendLine a.value value.clampUnit a.tick (s.arena.timeline here).position⟩
      have recorded := Arena.timeline_adjust_self here (Timeline.record b.bends) s.arena
        (ready.inside here List.mem_cons_self)
      obtain ⟨stops, drawing, leads⟩ := ih (a := b) (ready.record b.bends)
        (Nat.le_of_eq (congrArg Timeline.position recorded).symm) done
      exact ⟨b :: stops, .breakpoint drawing,
        List.isChain_cons_cons.mpr ⟨.of_bends reached rfl, leads⟩⟩

/-- On its way through a body a session moves no cursor back, and to the bends of the timeline come
those of the stops, in this order, with whatever bends other items have in between. -/
theorem Drawing.onward {depth : Nat} {body : List Item} {stops : List Stop}
    (drawing : Drawing (perform depth) here references body s stops u) (ready : Ready [here] s) :
    Ready [here] u ∧ (s.arena.timeline here).position ≤ (u.arena.timeline here).position ∧
      (∀ stop ∈ stops, stop.tick ≤ (u.arena.timeline here).position) ∧
      ∃ more, (u.arena.timeline here).bends.toList = (s.arena.timeline here).bends.toList ++ more ∧
        (stops.flatMap Stop.bends).Sublist more := by
  induction drawing with
  | done s => exact ⟨ready, Nat.le_refl _, nofun, [], (List.append_nil _).symm, .slnil⟩
  | item other performed rest ih =>
    obtain ⟨ready, moved, first, told⟩ := onward_performed ready performed
    obtain ⟨ready, moved', before, more, told', own⟩ := ih ready
    exact ⟨ready, Nat.le_trans moved moved', before, first ++ more,
      by rw [told', ← told, List.append_assoc], List.sublist_append_of_sublist_right own⟩
  | @breakpoint offset value body s t bends stops rest ih =>
    have recorded := Arena.timeline_adjust_self here (Timeline.record bends) s.arena
      (ready.inside here List.mem_cons_self)
    obtain ⟨ready, moved, before, more, told, own⟩ := ih (ready.record bends)
    rw [recorded] at moved told
    refine ⟨ready, moved, List.forall_mem_cons.mpr ⟨moved, before⟩, bends ++ more, ?_, ?_⟩
    · rw [told, Timeline.bends_record, List.append_assoc]
    · exact own.append_left bends

theorem performBend_ok {depth ticks : Nat} {body : List Item} (ready : Ready [here] s)
    (done : (performBend (perform depth) here references body).run s = .ok ticks t) :
    ∃ stops u, Drawing (perform depth) here references body s stops u ∧
      (⟨(s.arena.timeline here).position, .zero, []⟩ :: stops).IsChain Stop.Leads ∧
      t.arena = u.arena.adjust here
        (Timeline.record [((u.arena.timeline here).position, .zero)]) := by
  rw [performBend_eq] at done
  obtain ⟨_, _, read, done⟩ := Step.bind_ok done
  cases read
  obtain ⟨final, u, gone, done⟩ := Step.bind_ok done
  obtain ⟨stops, drawing, leads⟩ := exists_drawing
    (a := ⟨(s.arena.timeline here).position, .zero, []⟩) ready (Nat.le_refl _) gone
  obtain ⟨_, _, read, done⟩ := Step.bind_ok done
  cases read
  have zero : Binary64.zero.clampUnit = .zero := by decide +kernel
  have back := funext (Timeline.addBend_eq (u.arena.timeline here).position .zero)
  rw [zero] at back
  cases done
  exact ⟨stops, u, drawing, leads, congrArg (u.arena.adjust here) back⟩

/-- A pitch bend over a body, by itself or after graces. -/
inductive BendOver (body : List Item) : Item → Prop
  | plain (offset : Nat) : BendOver body (.ornament offset .pitchBend body)
  | graced (offset : Nat) (graces : List Item) (inner : Nat) :
    BendOver body (.graced offset graces (.ornament inner .pitchBend body))

theorem bend_sounds {depth offset ticks : Nat} {body : List Item}
    (done : (performWith.performSound (perform depth) here references
      (.ornament offset .pitchBend body)).run s = .ok ticks t) :
    ∃ u, (performBend (perform depth) here references body).run s = .ok ticks u ∧
      t.arena = u.arena := by
  obtain ⟨_, u, bent, done⟩ := Step.bind_ok done
  obtain ⟨_, _, required, ended⟩ := Step.bind_ok done
  obtain ⟨-, rfl⟩ := requireNoGraces_ok required
  cases ended
  exact ⟨_, bent, rfl⟩

theorem BendOver.performed {body : List Item} {item : Item} (bends : BendOver body item)
    {depth ticks : Nat} (done : (perform (depth + 1) here references item).run s = .ok ticks t) :
    ∃ before after, before.arena = s.arena ∧
      (performBend (perform depth) here references body).run before = .ok ticks after ∧
      t.arena = after.arena := by
  cases bends with
  | plain offset =>
    have unfolded : perform (depth + 1) here references (.ornament offset .pitchBend body) =
      opened here offset (performWith.performSound (perform depth) here references
        (.ornament offset .pitchBend body)) := rfl
    rw [unfolded] at done
    obtain ⟨u, bent, same⟩ := bend_sounds (opened_ok done).2
    exact ⟨{ s with gas := ⟨s.gas.remaining - 1⟩ }, u, rfl, bent, same⟩
  | graced offset graces inner =>
    obtain ⟨pitches, -, -, done⟩ := graced_ok done
    obtain ⟨u, bent, same⟩ := bend_sounds done
    exact ⟨{ s with gas := ⟨s.gas.remaining - 1⟩, graces := some (offset, pitches) }, u, rfl, bent,
      same⟩

/-- What a pitch bend over a body draws on a timeline, from one session to another. -/
structure Draws (inner : Performer) (here : TimelineId) (references : Nat) (body : List Item)
    (s t : Session) (stops : List Stop) : Prop where
  drawing : ∃ before after, before.arena = s.arena ∧
    Drawing inner here references body before stops after ∧
    t.arena = after.arena.adjust here
      (Timeline.record [((t.arena.timeline here).position, .zero)])
  leads : (⟨(s.arena.timeline here).position, .zero, []⟩ :: stops).IsChain Stop.Leads
  within : ∀ bend ∈ Stop.curve stops (t.arena.timeline here).position,
    (s.arena.timeline here).position ≤ bend.1 ∧ bend.1 ≤ (t.arena.timeline here).position
  added : ∃ more, (t.arena.timeline here).bends.toList =
      (s.arena.timeline here).bends.toList ++ more ∧
    (Stop.curve stops (t.arena.timeline here).position).Sublist more

theorem exists_draws {depth ticks : Nat} {body : List Item} {item : Item} (ready : Ready [here] s)
    (bends : BendOver body item)
    (done : (perform (depth + 1) here references item).run s = .ok ticks t) :
    ∃ stops, Draws (perform depth) here references body s t stops := by
  obtain ⟨before, after, same, bent, ended⟩ := bends.performed done
  have started : Ready [here] before := ⟨same ▸ ready.forest, same ▸ ready.inside⟩
  obtain ⟨stops, u, drawing, leads, closed⟩ := performBend_ok started bent
  obtain ⟨finished, moved, reached, more, told, own⟩ := drawing.onward started
  have there := Arena.timeline_adjust_self here
    (Timeline.record [((u.arena.timeline here).position, .zero)]) u.arena
    (finished.inside here List.mem_cons_self)
  rw [← closed, ← ended] at there
  have last : (t.arena.timeline here).position = (u.arena.timeline here).position := by
    rw [there]
    rfl
  rw [same] at leads moved told
  refine ⟨stops, ⟨before, u, same, drawing, last ▸ ended.trans closed⟩, leads, ?_,
    more ++ [((u.arena.timeline here).position, .zero)], ?_, ?_⟩
  · rw [Stop.curve, last]
    exact List.forall_mem_append.mpr ⟨Stop.within leads reached,
      List.forall_mem_singleton.mpr ⟨moved, Nat.le_refl _⟩⟩
  · rw [there, Timeline.bends_record, told, List.append_assoc]
  · rw [Stop.curve, last]
    exact own.append_right _

end Session

/-- The bend that an event tells, after what has come before. -/
def TrackEvent.bend? (cursor : Nat) : TrackEvent → Option (Nat × Binary64)
  | .bend wait value => some (cursor + wait, value)
  | _ => none

namespace Track

/-- The bends of events at the ticks that their waits add up to. -/
def bendsFrom : (cursor : Nat) → List TrackEvent → List (Nat × Binary64)
  | _, [] => []
  | cursor, event :: rest => (event.bend? cursor).toList ++ bendsFrom (cursor + event.span) rest

theorem bendsFrom_bendEvents {cursor : Nat} {bends : List (Nat × Binary64)}
    (ordered : (cursor :: bends.map Prod.fst).Pairwise (· ≤ ·)) :
    bendsFrom cursor (bendEvents cursor bends) = bends := by
  induction bends generalizing cursor with
  | nil => rfl
  | cons bend bends ih =>
    obtain ⟨before, ordered⟩ := List.pairwise_cons.mp ordered
    have tick : cursor + (bend.1 - cursor) = bend.1 :=
      Nat.add_sub_cancel' (before bend.1 List.mem_cons_self)
    rw [bendEvents, bendsFrom, TrackEvent.span, TrackEvent.bend?, tick, ih ordered]
    rfl

theorem length_bendEvents (cursor : Nat) (bends : List (Nat × Binary64)) :
    (bendEvents cursor bends).length = bends.length := by
  induction bends generalizing cursor with
  | nil => rfl
  | cons bend bends ih => exact congrArg (· + 1) (ih bend.1)

/-- Bends sorted by their ticks; those of one tick stay in the order in which they were recorded. -/
structure Sorts (recorded told : List (Nat × Binary64)) : Prop where
  perm : told.Perm recorded
  ordered : told.Pairwise fun a b => a.1 ≤ b.1
  stable : ∀ tick, told.filter (·.1 = tick) = recorded.filter (·.1 = tick)

theorem sorts_mergeSort (bends : List (Nat × Binary64)) :
    Sorts bends (bends.mergeSort fun a b => a.1 ≤ b.1) := by
  let early (a b : Nat × Binary64) : Bool := a.1 ≤ b.1
  have trans (a b c : Nat × Binary64) (first : early a b) (second : early b c) : early a c :=
    decide_eq_true (Nat.le_trans (of_decide_eq_true first) (of_decide_eq_true second))
  have total (a b : Nat × Binary64) : early a b || early b a := by
    rw [Bool.or_eq_true]
    exact (Nat.le_total a.1 b.1).imp decide_eq_true decide_eq_true
  refine ⟨List.mergeSort_perm bends early,
    (List.pairwise_mergeSort trans total bends).imp of_decide_eq_true, fun tick => ?_⟩
  refine filter_mergeSort trans total (fun a b first second => ?_) bends
  exact decide_eq_true (Nat.le_of_eq
    ((of_decide_eq_true first).trans (of_decide_eq_true second).symm))

/-- A timeline that has bends has a track of its own for them, which comes first. -/
theorem ofTimeline_bends {t : Timeline} (bent : t.bends ≠ #[]) : ∃ events log,
    ofTimeline t = ⟨some t.channel, events⟩ :: log ∧ events.length = t.bends.size ∧
      Sorts t.bends.toList (bendsFrom 0 events) := by
  have told : t.bends.isEmpty = false :=
    Bool.eq_false_iff.mpr fun empty => bent (Array.isEmpty_iff.mp empty)
  have first : ofTimeline t = ofBends t.channel t.bends.toList ::
      if t.events.isEmpty then [] else [⟨some t.channel, t.events.toList.map ofEvent⟩] := by
    rw [ofTimeline, told]
    rfl
  refine ⟨_, _, first, (length_bendEvents ..).trans (List.length_mergeSort _), ?_⟩
  rw [bendsFrom_bendEvents (ordered_mergeSort _)]
  exact sorts_mergeSort _

end Track

namespace Session

/-- A pitch bend that succeeds draws a line to each of its breakpoints from where the one before has
been, and goes back to no bend at its end; and the track that tells the bends of a timeline tells them
by their ticks, whatever they were recorded by. -/
theorem curves_complete :
    (∀ {gas : Nat} {score : List Node} {s t : Session} {here : TimelineId}
      {depth references ticks : Nat} {body : List Item} {item : Item}, Visits gas score s →
      here < s.arena.timelines.size → BendOver body item →
      (perform (depth + 1) here references item).run s = .ok ticks t →
      ∃ stops, Draws (perform depth) here references body s t stops) ∧
    ∀ t : Timeline, t.bends ≠ #[] → ∃ events log,
      Track.ofTimeline t = ⟨some t.channel, events⟩ :: log ∧ events.length = t.bends.size ∧
        Track.Sorts t.bends.toList (Track.bendsFrom 0 events) := by
  constructor
  · intro gas score s t here depth references ticks body item visits inside bends done
    obtain ⟨m, live, tended⟩ := visits.tended
    exact exists_draws ⟨⟨_, tended.sound.forest⟩, List.forall_mem_singleton.mpr inside⟩ bends done
  · exact fun t => Track.ofTimeline_bends

/-- A pitch bend with another one in it, two breakpoints at one tick and a line shorter than eight
ticks. -/
theorem curves_complete_nested : ∃ (score : List Node) (s t : Session) (body : List Item)
    (stops : List Stop) (events : List TrackEvent) (log : List Track),
    Visits 40 score s ∧ (perform 40 0 0 (.ornament 0 .pitchBend body)).run s = .ok 68 t ∧
    (t.arena.timeline 0).bends.toList.map Prod.fst =
      [0, 8, 16, 24, 32, 32, 32, 36, 36, 44, 52, 60, 68, 68, 36, 44, 52, 60, 68, 68] ∧
    Draws (perform 39) 0 0 body s t stops ∧
    Track.ofTimeline (t.arena.timeline 0) = ⟨some (t.arena.timeline 0).channel, events⟩ :: log ∧
    Track.Sorts (t.arena.timeline 0).bends.toList (Track.bendsFrom 0 events) := by
  let key : Item := .key ⟨1, .pitchClass 0, 0, 0⟩
  let body : List Item := [key, .breakpoint 2 .one, .breakpoint 3 Binary64.one.neg,
    .range 4 (.tuplet 16) [key], .breakpoint 5 .zero,
    .ornament 6 .pitchBend [key, .breakpoint 7 .one], .breakpoint 8 .one]
  let call : Call := ⟨0, 0, .ornament 0 .pitchBend body,
    { gas := ⟨40⟩, arena := ⟨#[{ channel := 1 }]⟩, channels := #[0] }⟩
  have approached : (approach none false).run { gas := ⟨40⟩ } = .ok call.here call.session := rfl
  have reached : Reaches 40 [.item call.item] 41 call :=
    Reaches.node (t := call.session) Relation.ReflTransGen.refl approached
  have performed : (do
      let ticks ← perform 40 0 0 call.item
      return (ticks, ((← get).arena.timeline 0).bends.toList.map Prod.fst) :
        Play (Nat × List Nat)).run' call.session =
      some (68, [0, 8, 16, 24, 32, 32, 32, 36, 36, 44, 52, 60, 68, 68, 36, 44, 52, 60, 68, 68]) := by
    decide +kernel
  obtain ⟨_, performed⟩ := Step.exists_of_run' performed
  obtain ⟨ticks, t, done, observed⟩ := Step.bind_ok performed
  obtain ⟨rfl, told⟩ := Prod.mk.inj (EStateM.Result.ok.inj observed).1
  have visits : Visits 40 [.item call.item] call.session := .before reached
  obtain ⟨stops, draws⟩ := curves_complete.1 visits Nat.zero_lt_one (.plain 0) done
  have bent : (t.arena.timeline 0).bends ≠ #[] := by
    intro none
    rw [none] at told
    exact nomatch told
  obtain ⟨events, log, first, -, sorts⟩ := curves_complete.2 _ bent
  exact ⟨_, call.session, t, body, stops, events, log, visits, done, told, draws, first, sorts⟩

end Session
end TextScore
