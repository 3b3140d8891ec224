import TextScore.Midi.File
import TextScore.Proofs.Tracks

/-! Where program and controller changes end up. The log of a timeline keeps them in their place
among the notes, but they carry no wait of their own. -/
namespace TextScore

namespace Session
variable {gas depth : Nat} {score : List Node} {call : Call} {t : Session}

theorem Upkeep.all {I : (measuring : Bool) → (live : List TimelineId) → Session → Prop}
    (up : Upkeep I) {m : Bool} {live : List TimelineId} {here : TimelineId}
    {references ticks : Nat} {items : List Item} {s : Session} (member : here ∈ live)
    (before : I m live s)
    (done : (performAll (Session.perform depth) here references items).run s = .ok ticks t) :
    I m live t := by
  obtain ⟨_, _, rfl, after⟩ := (Unison.follows_all (up.simulation.follows_perform depth) member
    references items).ok ⟨rfl, before⟩ done
  exact after

/-- What holds once a call has been answered, and lasts, still holds when the score has been
performed. -/
theorem Reaches.lasting {P : Arena → Prop} (lasts : Lasts P)
    (reached : Reaches gas score depth call) (real : call.session.measuring = false)
    (established : ∀ {ticks u}, (perform depth).answer call = .ok ticks u → P u.arena)
    (plays : Plays score gas t) : P t.arena := by
  induction reached with
  | @node active item again rest s u here rounds approached =>
    obtain ⟨last, ended, -⟩ := drain_ok plays
    have ended := rounds.through ended
    rcases ended.cases_head with same | ⟨_, ⟨done⟩, ended⟩
    · exact nomatch congrArg Config.queue same
    · have before := (handover_held lasts_true).rounds rounds (held_start trivial gas score)
      have before := (handover_held lasts_true).approach again before approached
      rw [step_item] at done
      obtain ⟨_, _, first, done⟩ := Step.bind_ok done
      cases approached.symm.trans first
      obtain ⟨_, _, read, done⟩ := Step.bind_ok done
      cases read
      obtain ⟨ticks, v, performed, done⟩ := Step.bind_ok done
      have held : Held P (some here) v :=
        ⟨((handover_held lasts_true).item before performed).tended, established performed⟩
      have finish : Keeps (Held P (some here)) (do
          if !again then adjustRepeats (some here) (Repeats.record (.item item))
          return (some here, ([] : List Node))) fun next => Held P next.1 :=
        Keeps.when ((handover_held lasts).adjustRepeats _) (.pure fun h => h)
      exact ((handover_held lasts).rounds ended (finish held done)).holds
  | @inner depth outer call reached asks ih =>
    refine ih (asks.measuring real) fun {ticks u} done => ?_
    obtain ⟨m, live, member, tended, -⟩ := reached.held lasts_true trivial
    have after := (upkeep_lasts lasts_true).resumed (upkeep_lasts lasts)
      (fun h => h.1.measuring) member ⟨tended, trivial⟩ asks real
      (fun member h done => ⟨((upkeep_lasts lasts_true).perform member h done).1,
        established done⟩) done
    exact after.2

end Session

/-- Logs an event that is no note. -/
def Timeline.mark (event : Event) (t : Timeline) : Timeline :=
  { t with events := t.events.push event }

namespace Track

/-- By how much events move the cursor of a track on in all. -/
def span : List TrackEvent → Nat
  | [] => 0
  | event :: rest => event.span + span rest

/-- The event at an index of a track is sent at a tick, which the events before it lead to: what
comes before it is sent first, and what comes after it counts from there. -/
structure Sends (track : Track) (index : Nat) (event : TrackEvent) (tick : Nat) : Prop where
  listed : track.events[index]? = some event
  cursor : tick = span (track.events.take index)
  exact : ∀ channel, ∀ timed ∈ (Midi.ofEvent channel tick event).1, timed.tick = tick
  sent : ∀ channel, Midi.ofEvents channel 0 track.events =
    Midi.ofEvents channel 0 (track.events.take index) ++ (Midi.ofEvent channel tick event).1 ++
      Midi.ofEvents channel tick (track.events.drop (index + 1))

theorem ofEvent_cursor (channel cursor : Nat) (event : TrackEvent) :
    (Midi.ofEvent channel cursor event).2 = cursor + event.span := by
  cases event <;> simp only [Midi.ofEvent, TrackEvent.span, Nat.add_assoc, Nat.add_zero]

theorem ofEvents_append (channel cursor : Nat) (before after : List TrackEvent) :
    Midi.ofEvents channel cursor (before ++ after) =
      Midi.ofEvents channel cursor before ++ Midi.ofEvents channel (cursor + span before) after := by
  induction before generalizing cursor with
  | nil => rfl
  | cons event before ih =>
    simp only [List.cons_append, Midi.ofEvents, ofEvent_cursor, ih, span, Nat.add_assoc, List.append_assoc]

/-- An event is sent at the cursor that the events before it lead to. -/
theorem sends_span {track : Track} {index : Nat} {event : Event} (silent : event.note? = none)
    (listed : track.events[index]? = some (ofEvent event)) :
    track.Sends index (ofEvent event) (span (track.events.take index)) := by
  have still : (ofEvent event).span = 0 := by
    cases event with
    | note => exact nomatch silent
    | program | controller => rfl
  refine ⟨listed, rfl, fun channel timed member => ?_, fun channel => ?_⟩
  · cases event with
    | note => exact nomatch silent
    | program program bank =>
      cases bank <;>
        simp only [ofEvent, Midi.ofEvent, List.cons_append, List.nil_append, List.mem_cons,
          List.not_mem_nil, or_false] at member
      · exact member ▸ rfl
      · rcases member with rfl | rfl <;> rfl
    | controller => exact List.mem_singleton.mp member ▸ rfl
  obtain ⟨inside, found⟩ := List.getElem?_eq_some_iff.mp listed
  have whole : track.events = track.events.take index ++
      ofEvent event :: track.events.drop (index + 1) := by
    rw [← found, ← List.drop_eq_getElem_cons inside, List.take_append_drop]
  conv_lhs => rw [whole, ofEvents_append, Midi.ofEvents]
  simp only [ofEvent_cursor, still, Nat.add_zero, Nat.zero_add, List.append_assoc]

/-- The cursor of a track after a log is where the notes of the log end. -/
theorem span_events {cursor : Nat} {events : List Event}
    (chained : Note.Chained cursor (events.filterMap Event.note?)) :
    cursor + span (events.map ofEvent) = Note.lastStop cursor (events.filterMap Event.note?) := by
  induction events generalizing cursor with
  | nil => rfl
  | cons event events ih =>
    cases event with
    | note n =>
      simp only [List.filterMap_cons, Event.note?] at chained ⊢
      obtain ⟨onset, chained⟩ := chained
      rw [Note.lastStop, ← ih chained]
      simp only [List.map_cons, span, ofEvent, TrackEvent.span, Note.stop, onset]
      omega
    | program | controller =>
      refine Eq.trans ?_ (ih chained)
      simp only [List.map_cons, span, ofEvent, TrackEvent.span, Nat.zero_add]

/-- Notes that have become longer move everything after them. -/
theorem span_lengthened {log log' : List Event} (logged : ∀ (index : Nat) (event : Event),
      log[index]? = some event → ∃ ticks, log'[index]? = some (event.lengthen ticks)) :
    ∃ grown, span ((log'.take log.length).map ofEvent) = span (log.map ofEvent) + grown := by
  induction log generalizing log' with
  | nil => exact ⟨0, rfl⟩
  | cons event log ih =>
    obtain ⟨ticks, first⟩ := logged 0 event rfl
    cases log' with
    | nil => exact nomatch first
    | cons event' log' =>
      obtain rfl : event' = event.lengthen ticks := Option.some.inj first
      obtain ⟨grown, more⟩ := ih fun index e found => logged (index + 1) e found
      have longer : ∃ extra, (ofEvent (event.lengthen ticks)).span = (ofEvent event).span + extra := by
        cases event with
        | note n => exact ⟨ticks, (Nat.add_assoc ..).symm⟩
        | program | controller => exact ⟨0, rfl⟩
      obtain ⟨extra, longer⟩ := longer
      refine ⟨extra + grown, ?_⟩
      simp only [span, List.length_cons, List.take_succ_cons, List.map_cons] at more ⊢
      omega

/-- The cursor of a timeline stands after its log and the silence that waits. -/
theorem span_position {t : Timeline} (orderly : t.Orderly) :
    t.position = span (t.events.toList.map ofEvent) + t.rests := by
  have ended := span_events orderly.chained
  rw [Nat.zero_add] at ended
  rw [orderly.cursor, ended]
  rfl

/-- An event that was logged is sent as far behind the log before it as that has become longer. -/
theorem sends_marked {before after : Timeline} {event : Event} (silent : event.note? = none)
    (grows : (before.mark event).Grows after) : ∃ grown,
    Sends ⟨some after.channel, after.events.toList.map ofEvent⟩ before.events.size (ofEvent event)
      (span (before.events.toList.map ofEvent) + grown) := by
  have listed : after.events[before.events.size]? = some event := by
    obtain ⟨ticks, found⟩ := grows.logged before.events.size event Array.getElem?_push_size
    have same : event.lengthen ticks = event := by
      cases event with
      | note => exact nomatch silent
      | program | controller => rfl
    rw [found, same]
  have logged (index : Nat) (e : Event) (found : before.events.toList[index]? = some e) :
      ∃ ticks, after.events.toList[index]? = some (e.lengthen ticks) := by
    rw [Array.getElem?_toList] at found ⊢
    obtain ⟨small, -⟩ := Array.getElem?_eq_some_iff.mp found
    refine grows.logged index e ((Array.getElem?_push_lt small).trans ?_)
    rw [← found, Array.getElem?_eq_getElem small]
  obtain ⟨grown, spans⟩ := span_lengthened logged
  rw [List.map_take, Array.length_toList] at spans
  refine ⟨grown, spans ▸ sends_span silent ?_⟩
  rw [List.getElem?_map, Array.getElem?_toList, listed, Option.map_some]

end Track

namespace Session
variable {inner : Performer} {call : Call}

/-- What items log besides notes, and the timeline that they log it on: settings and shortcuts of
instruments and pedals, and both ends of a sustained range. -/
inductive Logs (inner : Performer) (call : Call) : Timeline → Event → Prop
  | setting {s : Setting} {event : Event} (item : call.item = .setting s)
    (silent : event.note? = none)
    (change : settingChange (call.session.arena.timeline call.here) s.key s.value =
      .ok (Timeline.mark event)) :
    Logs inner call (call.session.arena.timeline call.here) event
  | emoji {offset : Nat} {symbol : String} {s : Setting} {event : Event}
    (item : call.item = .emoji offset symbol)
    (known : call.session.definitions.emojis.lookup symbol = some s)
    (silent : event.note? = none)
    (change : settingChange (call.session.arena.timeline call.here) s.key s.value =
      .ok (Timeline.mark event)) :
    Logs inner call (call.session.arena.timeline call.here) event
  | pedalDown {offset : Nat} {body : List Item} (item : call.item = .range offset .sustain body) :
    Logs inner call (call.session.arena.timeline call.here) (.controller sustainController 127)
  | pedalUp {offset ticks : Nat} {body : List Item} {u : Session}
    (item : call.item = .range offset .sustain body)
    (performed : (performAll inner call.here call.references body).run
      { call.session with
        gas := ⟨call.session.gas.remaining - 1⟩
        arena := call.session.arena.adjust call.here
          (Timeline.setController sustainController 127) } = .ok ticks u) :
    Logs inner call (u.arena.timeline call.here) (.controller sustainController 0)

/-- The timeline has logged an event after what it had logged before. -/
def Marked (here : TimelineId) (before : Timeline) (event : Event) (arena : Arena) : Prop :=
  here < arena.timelines.size ∧ (before.mark event).Grows (arena.timeline here)

theorem lasts_marked (here : TimelineId) (before : Timeline) (event : Event) :
    Lasts (Marked here before event) where
  strides path marked :=
    have grows := path.grows
    ⟨Nat.lt_of_lt_of_le marked.1 grows.size, marked.2.trans (grows.timeline here marked.1)⟩
  create channel marked := by
    constructor
    · exact Nat.lt_of_lt_of_le marked.1 (Nat.le_of_lt (Array.size_push _ ▸ Nat.lt_succ_self _))
    · rw [Arena.timeline_create, if_neg (Nat.ne_of_lt marked.1)]
      exact marked.2

theorem marked_adjust {here : TimelineId} {arena : Arena} (inside : here < arena.timelines.size)
    (event : Event) :
    Marked here (arena.timeline here) event (arena.adjust here (Timeline.mark event)) := by
  constructor
  · exact (Arena.size_adjust ..).symm ▸ inside
  · rw [Arena.timeline_adjust_self _ _ _ inside]
    exact .refl _

theorem applySetting_ok {here : TimelineId} {setting : Setting} {offset : Nat} {s t : Session}
    {f : Timeline → Timeline} (done : (applySetting here setting offset).run s = .ok () t)
    (change : settingChange (s.arena.timeline here) setting.key setting.value = .ok f) :
    t = { s with arena := s.arena.adjust here f } := by
  obtain ⟨_, _, read, done⟩ := Step.bind_ok done
  cases read
  rw [change] at done
  cases done
  rfl

theorem emoji_ok {symbol : String} {offset : Nat} {setting setting' : Setting} {s t : Session}
    (done : (onDefinitions (Definitions.emoji symbol offset)).run s = .ok setting' t)
    (known : s.definitions.emojis.lookup symbol = some setting) : setting' = setting ∧ t = s := by
  have found : (Definitions.emoji symbol offset).run s.definitions = .ok setting s.definitions := by
    simp only [Definitions.emoji, EStateM.run_bind, EStateM.run_get, known]
    rfl
  have looked : (onDefinitions (Definitions.emoji symbol offset)).run s = _ := Step.within_run ..
  rw [looked, found] at done
  cases done
  exact ⟨rfl, rfl⟩

/-- A sustained range presses the pedal, performs its body and lets the pedal go. -/
theorem sustain_ok {here : TimelineId} {references offset ticks : Nat} {body : List Item}
    {s t : Session}
    (done : (performWith inner here references (.range offset .sustain body)).run s =
      .ok ticks t) :
    ∃ u, (performAll inner here references body).run
        { s with
          gas := ⟨s.gas.remaining - 1⟩
          arena := s.arena.adjust here (Timeline.setController sustainController 127) } =
          .ok ticks u ∧
      t = { u with
        arena := u.arena.adjust here (Timeline.setController sustainController 0) } := by
  have ⟨_, done⟩ := opened_ok done
  obtain ⟨_, _, pressed, done⟩ := Step.bind_ok done
  cases pressed
  obtain ⟨_, u, performed, done⟩ := Step.bind_ok done
  obtain ⟨_, _, released, done⟩ := Step.bind_ok done
  cases released
  cases done
  exact ⟨u, performed, rfl⟩

section Marking
variable {depth : Nat} {m : Bool} {live : List TimelineId} {before : Timeline} {event : Event}

/-- The session in which the body of a sustained range is performed is tended, too. -/
theorem Tended.pressed (tended : call.session.Tended m live) (member : call.here ∈ live) :
    Tended m live { call.session with
      gas := ⟨call.session.gas.remaining - 1⟩
      arena := call.session.arena.adjust call.here
        (Timeline.setController sustainController 127) } :=
  have kept := (tended.primitive member (.change (.controller sustainController 127)) rfl).2
  ⟨kept.measuring, kept.sound, kept.playable⟩

/-- When the call has been answered, what it logged stands in the log. -/
theorem Logs.marked (logs : Logs (perform depth) call before event)
    (tended : call.session.Tended m live) (member : call.here ∈ live) {ticks : Nat} {t : Session}
    (done : (perform (depth + 1)).answer call = .ok ticks t) :
    Marked call.here before event t.arena := by
  have inside := tended.sound.inside (tended.playable call.here member)
  have done : (performWith (perform depth) call.here call.references call.item).run call.session =
    .ok ticks t := done
  cases logs with
  | setting item silent change =>
    rw [item] at done
    obtain ⟨_, _, applied, done⟩ := Step.bind_ok (opened_ok done).2
    cases done
    obtain rfl := applySetting_ok applied change
    exact marked_adjust inside event
  | emoji item known silent change =>
    rw [item] at done
    obtain ⟨_, _, found, done⟩ := Step.bind_ok (opened_ok done).2
    obtain ⟨rfl, rfl⟩ := emoji_ok found known
    obtain ⟨_, _, applied, done⟩ := Step.bind_ok done
    cases done
    obtain rfl := applySetting_ok applied change
    exact marked_adjust inside event
  | pedalDown item =>
    rw [item] at done
    obtain ⟨u, performed, rfl⟩ := sustain_ok done
    have lasts := lasts_marked call.here (call.session.arena.timeline call.here)
      (.controller sustainController 127)
    have after := (upkeep_lasts lasts).all member
      ⟨tended.pressed member, marked_adjust inside _⟩ performed
    have released : (u.arena.timeline call.here).Strides
        ((u.arena.timeline call.here).setController sustainController 0) := .single (.mark _ rfl)
    exact lasts.strides (Arena.adjust_strides call.here released) after.2
  | @pedalUp offset ticks body u item performed =>
    rw [item] at done
    obtain ⟨v, performed', rfl⟩ := sustain_ok done
    cases performed.symm.trans performed'
    have after := upkeep_tended.all member (tended.pressed member) performed
    have inside := after.sound.inside (after.playable call.here member)
    exact marked_adjust inside _

/-- An event is logged on a timeline that is in order. -/
theorem Logs.orderly (logs : Logs (perform depth) call before event)
    (tended : call.session.Tended m live) (member : call.here ∈ live) : before.Orderly := by
  cases logs with
  | setting | emoji | pedalDown => exact tended.sound.orderly call.here
  | pedalUp item performed =>
    have after := upkeep_tended.all member (tended.pressed member) performed
    exact after.sound.orderly call.here

theorem Logs.silent (logs : Logs (perform depth) call before event) : event.note? = none := by
  cases logs with
  | setting _ silent | emoji _ _ silent => exact silent
  | pedalDown | pedalUp => rfl

/-- A timeline that has logged anything makes a track. -/
theorem track_mem {P : Arena → Prop} {s : Session} {active : Option TimelineId}
    (held : Held P active s)
    {here : TimelineId} (inside : here < s.arena.timelines.size)
    (logged : (s.arena.timeline here).events.isEmpty = false) :
    ⟨some (s.arena.timeline here).channel, (s.arena.timeline here).events.toList.map Track.ofEvent⟩ ∈
      Track.ofSession s := by
  have walk := held.tended.sound.forest.walk_perm (Nat.le_refl _)
  obtain ⟨root, member, below⟩ :=
    List.mem_flatMap.mp (walk.mem_iff.mpr (List.mem_range.mpr inside))
  refine List.mem_cons_of_mem _ (List.mem_flatMap.mpr ⟨root, member, ?_⟩)
  rw [Arena.ofTree_eq]
  refine List.mem_flatMap.mpr ⟨here, below, List.mem_append_right _ ?_⟩
  rw [logged]
  exact List.mem_cons_self

/-- Where a change of program or pedal ends up. It is sent where the last note before it ends by the
time the score is over: ties may have lengthened that note by `grown` ticks since, and the silence
that waited at the cursor does not count. So it is sent at the tick at which it was written exactly
if as much silence was waiting as ties have added. -/
theorem change_sent {gas : Nat} {score : List Node} {s : Session} (plays : Plays score gas s)
    (reached : Reaches gas score (depth + 1) call) (real : call.session.measuring = false)
    (logs : Logs (perform depth) call before event) :
    ∃ track ∈ Track.ofSession s, ∃ tick grown, track.channel = some before.channel ∧
      track.Sends before.events.size (Track.ofEvent event) tick ∧
      tick = Track.span (before.events.toList.map Track.ofEvent) + grown ∧
      (tick = before.position ↔ before.rests = grown) := by
  obtain ⟨m, live, member, tended, -⟩ := reached.held lasts_true trivial
  have lasts := lasts_marked call.here before event
  obtain ⟨inside, grows⟩ := reached.lasting lasts real (logs.marked tended member) plays
  obtain ⟨last, held⟩ := plays.held lasts_true trivial
  obtain ⟨grown, sends⟩ := Track.sends_marked logs.silent grows
  have logged : (s.arena.timeline call.here).events.isEmpty = false := by
    have listed := sends.listed
    apply Bool.eq_false_iff.mpr
    intro none
    rw [Array.isEmpty_iff.mp none] at listed
    exact nomatch listed
  have position := Track.span_position (logs.orderly tended member)
  refine ⟨_, track_mem held inside logged, _, grown, congrArg some grows.channel, sends, rfl, ?_⟩
  rw [position]
  omega

/-- A change of program that was written after a rest, at tick 32, is sent at the very start. -/
theorem change_sent_before_rest : ∃ score s depth call before,
    Plays score 20 s ∧ Reaches 20 score (depth + 1) call ∧
      Logs (perform depth) call before (.program 5 none) ∧ before.position = 32 ∧
      ∃ track ∈ Track.ofSession s, track.Sends 0 (.program 5 none) 0 := by
  let score : List Node := [.item (.rest 0), .item (.setting ⟨1, "p", "5"⟩),
    .item (.key ⟨8, .pitchClass 0, 0, 0⟩)]
  have rested : (do
      let next ← step none ⟨.item (.rest 0), false⟩
      let s ← get
      let t := s.arena.timeline 0
      return decide (next.1 = some 0 ∧ next.2.isEmpty ∧ !s.measuring ∧ 0 < s.arena.timelines.size ∧
        t.position = 32 ∧ t.events = #[]) : Play Bool).run' { gas := ⟨20⟩ } = some true := by
    decide +kernel
  have played : (run score).run' { gas := ⟨20⟩ } = some () := by decide +kernel
  obtain ⟨t, plays⟩ := Step.exists_of_run' played
  obtain ⟨_, rested⟩ := Step.exists_of_run' rested
  obtain ⟨⟨active, again⟩, s, done, rested⟩ := Step.bind_ok rested
  have rested := of_decide_eq_true (EStateM.Result.ok.inj rested).1
  obtain ⟨rfl, ended, real, inside, position, events⟩ := rested
  obtain rfl := List.isEmpty_iff.mp ended
  let call : Call := ⟨0, 0, .setting ⟨1, "p", "5"⟩,
    { s with arena := s.arena.adjust 0 fun t => { t with repeats := t.repeats.expire } }⟩
  have approached : (approach (some 0) false).run s = .ok 0 call.session := rfl
  have reached : Reaches 20 score (call.session.gas.remaining + 1) call :=
    .node (.single (.node done)) approached
  have logs : Logs (perform call.session.gas.remaining) call
      (call.session.arena.timeline call.here) (.program 5 none) :=
    .setting rfl rfl rfl
  have same : call.session.arena.timeline call.here = _ :=
    Arena.timeline_adjust_self 0 _ s.arena inside
  have real : call.session.measuring = false := Bool.not_eq_true' _ |>.mp real
  obtain ⟨track, member, tick, grown, -, sends, -⟩ := change_sent plays reached real logs
  rw [same, events] at sends
  obtain rfl : tick = 0 := sends.cursor
  exact ⟨score, t, _, call, _, plays, reached, logs,
    (congrArg Timeline.position same).trans position, track, member, sends⟩

end Marking

end Session
end TextScore
