import TextScore.Proofs.Nodes
import TextScore.Proofs.Soundness

/-! Runs keep the arena sound. So whenever an item has been performed, waits and durations tell the
same onsets as the notes of every timeline do. -/
namespace TextScore.Session

/-- The invariant of a session while items are performed on the timelines in use. -/
structure Tended (m : Bool) (live : List TimelineId) (s : Session) : Prop where
  measuring : s.measuring = m
  sound : s.arena.Sound s.channels.toList []
  playable : ∀ id ∈ live, s.arena.Playable s.channels.toList id

variable {m : Bool} {live : List TimelineId} {here : TimelineId} {s t : Session} {α : Type}

/-- A step that strides on in the arena and leaves the rest of a session alone keeps it tended. -/
theorem Tended.strides (tended : s.Tended m live) (measuring : t.measuring = s.measuring)
    (channels : t.channels = s.channels) (path : s.arena.Strides t.arena)
    (sound : t.arena.Sound s.channels.toList []) : t.Tended m live where
  measuring := measuring.trans tended.measuring
  sound := channels ▸ sound
  playable id member := channels ▸ (tended.playable id member).grows path.grows

theorem Tended.primitive (tended : s.Tended m live) (member : here ∈ live) {p : Play α} {a : α}
    (primitive : Primitive here p) (done : p.run s = .ok a t) :
    s.arena.Strides t.arena ∧ t.Tended m live := by
  have played := primitive.played done
  obtain ⟨path, sound⟩ := tended.sound.played (tended.playable here member) played.arena
  exact ⟨path, tended.strides played.measuring played.channels path sound⟩

theorem Tended.branch (tended : s.Tended m live) (member : here ∈ live) {offset index : Nat}
    {child : TimelineId}
    (done : (onArena (Arena.childAt here offset (.branch index))).run s = .ok child t) :
    s.arena.Strides t.arena ∧ t.Tended m (child :: live) := by
  obtain ⟨arena, claimed, rfl⟩ := onArena_ok done
  obtain ⟨path, sound, playable⟩ :=
    tended.sound.childAt_branch (tended.playable here member) claimed
  have kept : Tended m live { s with arena := arena } := tended.strides rfl rfl path sound
  refine ⟨path, kept.measuring, kept.sound, fun id listed => ?_⟩
  rcases List.mem_cons.mp listed with rfl | listed
  · exact playable
  · exact kept.playable id listed

/-- What an arena keeps as it strides on and as channels start timelines in it. -/
structure Lasts (P : Arena → Prop) : Prop where
  strides : ∀ {arena arena' : Arena}, arena.Strides arena' → P arena → P arena'
  create : ∀ {arena : Arena} (channel : Nat), P arena → P (arena.create channel).2

theorem lasts_true : Lasts fun _ => True := ⟨fun _ _ => trivial, fun _ _ => trivial⟩

theorem upkeep_lasts {P : Arena → Prop} (lasts : Lasts P) :
    Upkeep fun m live s => s.Tended m live ∧ P s.arena where
  shrink within h :=
    ⟨⟨h.1.measuring, h.1.sound, fun id member => h.1.playable id (within member)⟩, h.2⟩
  primitive member primitive h done :=
    have ⟨path, tended⟩ := h.1.primitive member primitive done
    ⟨tended, lasts.strides path h.2⟩
  branch member h done :=
    have ⟨path, tended⟩ := h.1.branch member done
    ⟨tended, lasts.strides path h.2⟩
  copy h := ⟨⟨rfl, h.1.sound, h.1.playable⟩, h.2⟩

theorem upkeep_tended : Upkeep Tended where
  shrink within h := ⟨h.measuring, h.sound, fun id member => h.playable id (within member)⟩
  primitive member primitive h done := (h.primitive member primitive done).2
  branch member h done := (h.branch member done).2
  copy h := ⟨rfl, h.sound, h.playable⟩

/-- The invariant of a session between nodes. -/
structure Held (P : Arena → Prop) (active : Option TimelineId) (s : Session) : Prop where
  tended : s.Tended false active.toList
  holds : P s.arena

theorem handover_held {P : Arena → Prop} (lasts : Lasts P) : Handover (Held P) where
  aside held arena channels measuring _ :=
    ⟨held.tended.strides measuring channels (arena ▸ .refl) (arena ▸ held.tended.sound),
      arena ▸ held.holds⟩
  start {active s} channel held := by
    refine ⟨⟨held.tended.measuring, ?_, fun id listed => ?_⟩, lasts.create channel held.holds⟩
    · rw [Array.toList_push]
      exact held.tended.sound.create channel
    · apply List.mem_append_left _
      rw [Array.toList_push]
      exact List.mem_append_right _ listed
  resume held root := by
    refine ⟨⟨held.tended.measuring, held.tended.sound, fun id listed => ?_⟩, held.holds⟩
    obtain rfl := List.mem_singleton.mp listed
    exact List.mem_append_left _ root
  repeats {here s} f held := by
    have playable := held.tended.playable here List.mem_cons_self
    have still : (s.arena.timeline here).Still
        { s.arena.timeline here with repeats := f (s.arena.timeline here).repeats } :=
      ⟨rfl, rfl, rfl, rfl, rfl, rfl, rfl⟩
    obtain ⟨path, sound⟩ := held.tended.sound.adjust_playable
      (f := fun t => { t with repeats := f t.repeats }) playable still.strides
    exact ⟨held.tended.strides rfl rfl path sound, lasts.strides path held.holds⟩
  item held done := by
    obtain ⟨tended, holds⟩ := (upkeep_lasts lasts).perform List.mem_cons_self
      ⟨held.tended, held.holds⟩ done
    exact ⟨tended, holds⟩

theorem sound_empty : ({} : Arena).Sound [] [] where
  forest := ⟨.refl _, fun _ _ member => by
    simp only [Arena.timeline, Array.getElem?_empty, Option.getD_none, Array.not_mem_empty,
      or_self] at member⟩
  orderly _ := Timeline.orderly_new 0
  voiced _ member := nomatch member

theorem held_start {P : Arena → Prop} (empty : P {}) (gas : Nat) (score : List Node) :
    Held P (Config.start gas score).active (Config.start gas score).session :=
  ⟨⟨rfl, sound_empty, fun _ member => nomatch member⟩, empty⟩

theorem Plays.held {P : Arena → Prop} (lasts : Lasts P) (empty : P {}) {gas : Nat}
    {score : List Node} (plays : Plays score gas t) : ∃ last, Held P last t := by
  obtain ⟨last, rounds, -⟩ := drain_ok plays
  exact ⟨last, (handover_held lasts).rounds rounds (held_start empty gas score)⟩

/-- Every item that a run performs finds the session tended. -/
theorem Reaches.held {P : Arena → Prop} (lasts : Lasts P) (empty : P {}) {gas depth : Nat}
    {score : List Node} {call : Call} (reached : Reaches gas score depth call) :
    ∃ m live, call.here ∈ live ∧ call.session.Tended m live ∧ P call.session.arena := by
  induction reached with
  | @node active item again rest s t here rounds approached =>
    have held := (handover_held lasts).rounds rounds (held_start empty gas score)
    have held := (handover_held lasts).approach again held approached
    exact ⟨false, [here], List.mem_cons_self, held.tended, held.holds⟩
  | inner reached asks ih =>
    obtain ⟨m, live, member, held⟩ := ih
    obtain ⟨m', live', member', held'⟩ := (upkeep_lasts lasts).asked member held asks
    exact ⟨m', live', member', held'⟩

/-- Whenever an item has been performed, at whatever depth, all timelines are in order: waits and
durations tell the onsets that the notes have, and cursors stand where the logs end. -/
theorem sequential_of_performed {gas depth ticks : Nat} {score : List Node} {call : Call}
    {s : Session} (reached : Reaches gas score depth call)
    (performed : (perform depth).answer call = .ok ticks s) (id : TimelineId) :
    (s.arena.timeline id).Sequential ∧
      Note.replay 0 (s.arena.timeline id).notes = (s.arena.timeline id).notes.map Note.start := by
  obtain ⟨m, live, member, tended, -⟩ := reached.held lasts_true trivial
  have after := (upkeep_lasts lasts_true).perform member ⟨tended, trivial⟩ performed
  have orderly := after.1.sound.orderly id
  exact ⟨orderly.toSequential, orderly.chained.replay_eq⟩

/-- A tie after a staccato note, which silence still follows. -/
theorem sequential_of_tied_staccato : ∃ score depth call ticks s,
    Reaches 10 score depth call ∧ (perform depth).answer call = .ok ticks s ∧
      (s.arena.timeline 0).Sequential ∧ (s.arena.timeline 0).position = 64 ∧
      (s.arena.timeline 0).rests = 16 := by
  let item : Item := .group 0 0 [.ornament 2 .staccato [.key ⟨4, .pitchClass 0, 0, 0⟩], .tie 6]
  let call : Call :=
    ⟨0, 0, item, { gas := ⟨10⟩, arena := ⟨#[{ channel := 1 }]⟩, channels := #[0] }⟩
  have approached : (approach none false).run { gas := ⟨10⟩ } = .ok call.here call.session := rfl
  have reached : Reaches 10 [.item item] 11 call :=
    Reaches.node (t := call.session) Relation.ReflTransGen.refl approached
  have performed : (do
      let _ ← perform 11 0 0 item
      let s ← get
      return ((s.arena.timeline 0).position, (s.arena.timeline 0).rests) :
        Play (Nat × Nat)).run' call.session = some (64, 16) := by decide +kernel
  obtain ⟨_, performed⟩ := Step.exists_of_run' performed
  obtain ⟨ticks, s, done, observed⟩ := Step.bind_ok performed
  obtain ⟨position, rests⟩ := Prod.ext_iff.mp (EStateM.Result.ok.inj observed).1
  exact ⟨_, _, call, ticks, s, reached, done, (sequential_of_performed reached done 0).1, position,
    rests⟩

end TextScore.Session
