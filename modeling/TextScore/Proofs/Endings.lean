import TextScore.Proofs.Steering

/-! Repeats and their endings over a whole run. Only the active timeline may have an open repeat or wait
for a second ending, and the last node from the score decides whether it does. So the nodes so far tell
which marks are accepted next, and nothing is left open where a channel is declared or the run ends. -/
namespace TextScore.Session
variable {gas : Nat} {score : List Node} {active active' : Option TimelineId} {here : TimelineId}
  {s t : Session} {node : Node} {again : List Node}

/-- The repeats of the active timeline. Without one nothing has been recorded. -/
def Config.own (c : Config) : Repeats :=
  match c.active with
  | none => {}
  | some here => c.session.arena.repeats here

/-- Only the active timeline may have an open repeat or wait for a second ending. What is played again
steers nothing. -/
structure Config.Proper (c : Config) : Prop where
  inside : ∀ here, c.active = some here → here < c.session.arena.timelines.size
  recorded : c.session.Recorded fun node => node.replay?.isSome
  closed : ∀ id, c.active ≠ some id → (c.session.arena.repeats id).capture = none
  lapsed : ∀ id, c.active ≠ some id → (c.session.arena.repeats id).secondaAllowed = false
  replays : ∀ queued ∈ c.queue, queued.again = true → queued.node.isPlain ∧ c.active ≠ none

/-- What a round does to repeats. -/
inductive Config.Turns (c c' : Config) : Prop
  | rests {queued : Queued} {rest : List Queued} (next : c.queue = queued :: rest)
    (quiet : queued.again = true ∨ c.active = none ∧ queued.node.activates = false)
    (active : c'.active = c.active) (same : c'.session.arena.repeats = c.session.arena.repeats)
    (later : c'.queue = rest)
  | steers {node : Node} {here : TimelineId} {rest : List Queued} {again : List Node} {q : Repeats}
    (next : c.queue = ⟨node, false⟩ :: rest)
    (apart : ∀ offset id resume, node ≠ .channel offset id resume)
    (seat : c.active = some here ∨ c.active = none ∧ c.session.arena.repeats here = {})
    (active : c'.active = some here)
    (steers : c.own.Steers (c.session.gas.remaining - 1) node again q)
    (changed : c'.session.arena.repeats = Function.update c.session.arena.repeats here q)
    (later : c'.queue = again.map (⟨·, true⟩) ++ rest)
  | channel {offset id : Nat} {resume : Bool} {here : TimelineId} {rest : List Queued}
    (next : c.queue = ⟨.channel offset id resume, false⟩ :: rest) (closed : c.own.capture = none)
    (active : c'.active = some here)
    (lapsed : ∀ other, c'.session.arena.repeats other =
      if c.active = some other then (c.session.arena.repeats other).expire
      else c.session.arena.repeats other) (later : c'.queue = rest)

/-- Every round is a turn. -/
theorem Round.turns {c c' : Config} (round : Round c c') (proper : c.Proper) : c.Turns c' := by
  obtain @⟨active, active', ⟨node, repeated⟩, rest, again, s, t, done⟩ := round
  have inside := proper.inside
  cases repeated with
  | true =>
    obtain ⟨plain, seated⟩ := proper.replays _ List.mem_cons_self rfl
    obtain ⟨here, rfl⟩ := Option.ne_none_iff_exists'.mp seated
    obtain ⟨rfl, rfl, same⟩ := step_replays (inside here rfl) plain done
    exact .rests rfl (.inl rfl) rfl same rfl
  | false =>
    by_cases other : ∃ offset id resume, node = .channel offset id resume
    · obtain ⟨offset, id, resume, rfl⟩ := other
      obtain ⟨u, here, left, declared, next⟩ := step_channel_ok done
      cases next
      obtain ⟨closed, lapsed⟩ := leave_ok inside left
      have same : t.arena.repeats = u.arena.repeats :=
        @Passing.declareChannel _ active (passing_repeats u.arena.repeats) offset id resume _ _ _ rfl
          declared
      refine .channel rfl ?_ rfl (same ▸ lapsed) rfl
      cases active with
      | none => rfl
      | some previous => exact closed previous rfl
    · have apart (offset id : Nat) (resume : Bool) : node ≠ .channel offset id resume :=
        fun same => other ⟨offset, id, resume, same⟩
      cases active with
      | some here =>
        obtain ⟨rfl, q, steers, changed⟩ := step_steers (inside here rfl) apart done
        exact .steers rfl apart (.inl rfl) rfl steers changed rfl
      | none => cases activates : node.activates with
        | false =>
          obtain ⟨rfl, rfl, same⟩ := step_prelude activates done
          exact .rests rfl (.inr ⟨rfl, activates⟩) rfl same rfl
        | true =>
          have left : 1 < s.gas.remaining := by
            have burnt := step_burns done
            have solvent := step_solvent done
            omega
          have new : s.arena.repeats s.arena.timelines.size = {} := repeats_out (Nat.le_refl _)
          have within : s.arena.timelines.size < s.begun.arena.timelines.size :=
            Nat.lt_of_lt_of_eq (Nat.lt_succ_self _) (Array.size_push _).symm
          rw [step_begins activates apart left] at done
          obtain ⟨rfl, q, steers, changed⟩ := step_steers within apart done
          rw [repeats_begun, new] at steers
          rw [repeats_begun] at changed
          exact .steers rfl apart (.inr ⟨rfl, new⟩) rfl steers changed rfl

namespace Config
variable {c c' : Config}

theorem Proper.captured (proper : c.Proper) : ∀ node ∈ c.own.captured, node.replay?.isSome := by
  intro node member
  unfold own at member
  split at member
  · exact absurd member (Array.not_mem_empty node)
  · exact proper.recorded _ node (Repeats.records_of_captured member)

/-- After a channel has been declared no repeat is open. -/
theorem Proper.declared (proper : c.Proper) (free : c.own.capture = none)
    (lapsed : ∀ other, c'.session.arena.repeats other =
      if c.active = some other then (c.session.arena.repeats other).expire
      else c.session.arena.repeats other) (id : TimelineId) :
    (c'.session.arena.repeats id).capture = none ∧
      (c'.session.arena.repeats id).secondaAllowed = false := by
  rw [lapsed id]
  split
  · next seat =>
    rw [own, seat] at free
    exact ⟨free, rfl⟩
  · next other => exact ⟨proper.closed id other, proper.lapsed id other⟩

theorem Turns.proper (turns : c.Turns c') (proper : c.Proper)
    (inside : ∀ here, c'.active = some here → here < c'.session.arena.timelines.size)
    (recorded : c'.session.Recorded fun node => node.replay?.isSome) : c'.Proper := by
  have later {first : Queued} {rest : List Queued} (next : c.queue = first :: rest) (queued : Queued)
      (listed : queued ∈ rest) : queued ∈ c.queue :=
    next ▸ List.mem_cons_of_mem _ listed
  cases turns with
  | rests next quiet active same rest =>
    refine ⟨inside, recorded, ?_, ?_, ?_⟩
    · rw [active, same]
      exact proper.closed
    · rw [active, same]
      exact proper.lapsed
    · rw [active, rest]
      exact fun queued listed => proper.replays queued (later next queued listed)
  | @steers node here rest again q next apart seat active steers changed rest' =>
    have others (id : TimelineId) (other : c'.active ≠ some id) :
        c.active ≠ some id ∧ c'.session.arena.repeats id = c.session.arena.repeats id := by
      have distinct : id ≠ here := fun same => other (same ▸ active)
      refine ⟨fun same => ?_, by rw [changed, Function.update_of_ne distinct]⟩
      rcases seat with seat | ⟨seat, -⟩
      · exact distinct (Option.some.inj (same.symm.trans seat))
      · exact nomatch seat.symm.trans same
    refine ⟨inside, recorded, fun id other => ?_, fun id other => ?_, ?_⟩
    · obtain ⟨other, same⟩ := others id other
      exact same ▸ proper.closed id other
    · obtain ⟨other, same⟩ := others id other
      exact same ▸ proper.lapsed id other
    · rw [rest', active]
      intro queued listed repeated
      rcases List.mem_append.mp listed with new | old
      · obtain ⟨played, member, rfl⟩ := List.mem_map.mp new
        exact ⟨steers.plain proper.captured played member, Option.some_ne_none here⟩
      · exact ⟨(proper.replays queued (later next queued old) repeated).1, Option.some_ne_none here⟩
  | @channel offset id resume here rest next closed active lapsed rest' =>
    refine ⟨inside, recorded, fun id _ => (proper.declared closed lapsed id).1,
      fun id _ => (proper.declared closed lapsed id).2, ?_⟩
    rw [rest', active]
    intro queued listed repeated
    exact ⟨(proper.replays queued (later next queued listed) repeated).1, Option.some_ne_none here⟩

/-- The next node comes from the score. -/
def fresh (c : Config) : Bool := c.queue.head?.any (!·.again)

/-- The next node is a close from the score, and it finds a first ending. -/
def FindsPrima (c : Config) : Prop :=
  ∃ offset count rest, c.queue = ⟨.repeatClose offset count, false⟩ :: rest ∧
    c.own.captured.any Node.isPrimaVolta = true

theorem findsPrima_iff {rest : List Queued} (next : c.queue = ⟨node, false⟩ :: rest) :
    c.FindsPrima ↔ c.own.finds node = true := by
  unfold FindsPrima
  rw [next]
  cases node with
  | repeatClose offset count =>
    constructor
    · rintro ⟨_, _, _, -, found⟩
      exact found
    · intro found
      exact ⟨offset, count, rest, rfl, found⟩
  | _ =>
    constructor
    · rintro ⟨_, _, _, other, -⟩
      exact nomatch other
    · intro found
      exact nomatch found

theorem own_eq (active : c'.active = c.active)
    (same : c'.session.arena.repeats = c.session.arena.repeats) : c'.own = c.own := by
  rw [own, own, active, same]

/-- What is played again changes no repeats. -/
theorem Turns.replays (turns : c.Turns c') (again : c.fresh = false) :
    c'.active = c.active ∧ c'.session.arena.repeats = c.session.arena.repeats := by
  cases turns with
  | rests next quiet active same => exact ⟨active, same⟩
  | steers next | channel next =>
    rw [fresh, next] at again
    exact nomatch again

/-- A second ending may follow a close that finds a first one, and nothing else from the score. -/
theorem Turns.seconda (turns : c.Turns c') (proper : c.Proper) (first : c.fresh = true) :
    c'.own.secondaAllowed = true ↔ c.FindsPrima := by
  cases turns with
  | @rests queued rest next quiet active same =>
    rw [fresh, next] at first
    obtain ⟨node, again⟩ := queued
    cases again with
    | true => exact nomatch first
    | false =>
      obtain ⟨seat, other⟩ := quiet.resolve_left Bool.false_ne_true
      rw [findsPrima_iff next, own_eq active same, own, seat]
      cases node with
      | «global» | define | declareEmoji => rfl
      | _ => exact nomatch other
  | @steers node here rest again q next apart seat active steers changed =>
    have own' : c'.own = q := by
      rw [own, active]
      dsimp only
      rw [changed, Function.update_self]
    rw [findsPrima_iff next, own', steers.secondaAllowed]
  | @channel offset id resume here rest next closed active lapsed =>
    have own' : c'.own = c'.session.arena.repeats here := by rw [own, active]
    rw [findsPrima_iff next, own', (proper.declared closed lapsed here).2]
    rfl

/-- A node is performed with success if it comes next from the score. -/
def Accepts (c : Config) (node : Node) : Prop :=
  ∃ next t, (step c.active ⟨node, false⟩).run c.session = .ok next t

/-- A mark is accepted if the repeats of the active timeline can be steered by it. -/
theorem accepts_iff (proper : c.Proper) (left : 1 < c.session.gas.remaining) (mark : node.isMark) :
    c.Accepts node ↔
      ∃ again q, (node.steer (c.session.gas.remaining - 1)).run c.own = .ok again q := by
  have seated {here : TimelineId} {s : Session} (inside : here < s.arena.timelines.size)
      (left : 1 < s.gas.remaining) :
      (∃ next t, (step (some here) ⟨node, false⟩).run s = .ok next t) ↔
        ∃ again q, (node.steer (s.gas.remaining - 1)).run (s.arena.repeats here) = .ok again q := by
    constructor
    · rintro ⟨next, t, done⟩
      rw [step_mark mark inside left] at done
      split at done
      · next again q steered => exact ⟨again, q, steered⟩
      · exact nomatch done
    · rintro ⟨again, q, steered⟩
      exact ⟨_, _, step_mark_ok mark inside left steered⟩
  obtain ⟨active, queue, s⟩ := c
  cases active with
  | some here => exact seated (proper.inside here rfl) left
  | none =>
    have activates : node.activates := by cases node <;> first | rfl | exact nomatch mark
    have apart (offset id : Nat) (resume : Bool) : node ≠ .channel offset id resume := by
      rintro rfl
      exact nomatch mark
    have within : s.arena.timelines.size < s.begun.arena.timelines.size :=
      Nat.lt_of_lt_of_eq (Nat.lt_succ_self _) (Array.size_push _).symm
    have begins := seated within left
    rw [repeats_begun, repeats_out (Nat.le_refl _), ← step_begins activates apart left] at begins
    exact begins

end Config

theorem Rounds.recorded {c : Config} (rounds : Rounds (.start gas score) c) :
    c.session.Recorded fun node => node.replay?.isSome := by
  have succession : Succession (fun _ _ => True) (fun _ => True)
      fun _ node => node.replay?.isSome = true := {
    step := fun _ _ _ => trivial
    lasts := fun _ _ _ known => known
    settles := fun _ _ _ played _ => by
      rw [Node.replay?_replay? played]
      rfl }
  exact (succession.rounds rounds (.start trivial fun _ _ => trivial)).recorded

theorem Rounds.proper {c : Config} (rounds : Rounds (.start gas score) c) : c.Proper := by
  induction rounds with
  | refl =>
    refine ⟨nofun, Rounds.recorded .refl, fun _ _ => rfl, fun _ _ => rfl, fun queued listed => ?_⟩
    obtain ⟨node, -, rfl⟩ := List.mem_map.mp listed
    exact nofun
  | tail rounds round ih =>
    have rounds := rounds.tail round
    have held := (handover_held lasts_true).rounds rounds (held_start trivial gas score)
    exact (round.turns ih).proper ih held.inside (Rounds.recorded rounds)

/-- A second ending may follow if the last node from the score is a close that finds a first one. -/
theorem Route.seconda {c : Config} {passed : List Config} (route : Route (.start gas score) passed c) :
    c.own.secondaAllowed = true ↔
      ∃ last, (passed.filter Config.fresh).getLast? = some last ∧ last.FindsPrima := by
  induction route with
  | refl =>
    constructor
    · exact nofun
    · rintro ⟨_, none, -⟩
      exact nomatch none
  | @round c' c'' passed route round ih =>
    have proper := Rounds.proper route.rounds
    have turns := round.turns proper
    rw [List.filter_append]
    cases first : c'.fresh with
    | true =>
      rw [turns.seconda proper first]
      simp only [List.filter_cons_of_pos first, List.filter_nil, List.getLast?_concat,
        Option.some.injEq, exists_eq_left']
    | false =>
      obtain ⟨active, same⟩ := turns.replays first
      rw [Config.own_eq active same, ih]
      have skipped : ¬ c'.fresh = true := by rw [first]; exact Bool.false_ne_true
      simp only [List.filter_cons_of_neg skipped, List.filter_nil, List.append_nil]

/-- A run that has ended leaves no repeat open. -/
theorem Plays.closed (plays : Plays score gas t) (id : TimelineId) :
    (t.arena.repeats id).capture = none := by
  obtain ⟨last, rounds, closed⟩ := drain_ok plays
  by_cases seat : last = some id
  · rw [seat] at closed
    exact capture_of_closed closed
  · exact (Rounds.proper rounds).closed id seat

theorem Config.Proper.accepts {c : Config} (proper : c.Proper)
    (left : 1 < c.session.gas.remaining) (offset : Nat) :
    (c.Accepts (.repeatOpen offset) ↔ c.own.capture = none) ∧
    (c.Accepts (.volta offset .prima) ↔
      ∃ capture, c.own.capture = some capture ∧ capture.nodes.any Node.isPrimaVolta = false) ∧
    (c.Accepts (.volta offset .seconda) ↔ c.own.secondaAllowed = true) :=
  ⟨(accepts_iff proper left rfl).trans Repeats.steers_open,
    (accepts_iff proper left rfl).trans Repeats.steers_prima,
    (accepts_iff proper left rfl).trans Repeats.steers_seconda⟩

/-- Wherever a run gets to: which marks would be accepted next, as long as there is gas for them; that a
channel is declared only where no timeline has an open repeat; and that only what does not steer is played
again, and changes none of this. At its end, no repeat is open either. -/
theorem repeats_protocol (gas : Nat) (score : List Node) :
    (∀ passed c, Route (.start gas score) passed c →
      (1 < c.session.gas.remaining → ∀ offset,
        (c.Accepts (.volta offset .seconda) ↔
          ∃ last, (passed.filter Config.fresh).getLast? = some last ∧ last.FindsPrima) ∧
        (c.Accepts (.volta offset .prima) ↔
          ∃ capture, c.own.capture = some capture ∧ capture.nodes.any Node.isPrimaVolta = false) ∧
        (c.Accepts (.repeatOpen offset) ↔ c.own.capture = none)) ∧
      (∀ c' again offset channel resume rest,
        c.queue = ⟨.channel offset channel resume, again⟩ :: rest → Round c c' →
          ∀ id, (c'.session.arena.repeats id).capture = none) ∧
      (∀ queued ∈ c.queue, queued.again = true → queued.node.isPlain) ∧
      ∀ c', Round c c' → c.fresh = false →
        c'.active = c.active ∧ c'.session.arena.repeats = c.session.arena.repeats ∧
        (1 < c'.session.gas.remaining → ∀ offset,
          ∀ mark ∈ [.repeatOpen offset, .volta offset .prima, .volta offset .seconda],
            (c'.Accepts mark ↔ c.Accepts mark))) ∧
    ∀ t, Plays score gas t → ∀ id, (t.arena.repeats id).capture = none := by
  refine ⟨fun passed c route => ?_, fun t plays => plays.closed⟩
  have proper := Rounds.proper route.rounds
  refine ⟨fun left offset => ?_, ?_, fun queued listed again => (proper.replays queued listed again).1, ?_⟩
  · obtain ⟨opens, prima, seconda⟩ := proper.accepts left offset
    exact ⟨seconda.trans route.seconda, prima, opens⟩
  · intro c' again offset channel resume rest next round
    cases round.turns proper with
    | @rests queued rest next' quiet =>
      cases next.symm.trans next'
      rcases quiet with again | ⟨-, other⟩
      · exact nomatch (proper.replays _ (next ▸ List.mem_cons_self) again).1
      · exact nomatch other
    | steers next' apart =>
      cases next.symm.trans next'
      exact absurd rfl (apart offset channel resume)
    | channel next' closed active lapsed =>
      exact fun id => (proper.declared closed lapsed id).1
  · intro c' round again
    have proper' := Rounds.proper (route.rounds.tail round)
    obtain ⟨active, same⟩ := (round.turns proper).replays again
    refine ⟨active, same, fun left offset => ?_⟩
    have own := Config.own_eq active same
    have before : 1 < c.session.gas.remaining := by
      obtain ⟨done⟩ := round
      have burnt := step_burns done
      dsimp only at left ⊢
      omega
    obtain ⟨opens, prima, seconda⟩ := proper.accepts before offset
    obtain ⟨opens', prima', seconda'⟩ := proper'.accepts left offset
    rw [own] at opens' prima' seconda'
    rw [List.forall_mem_cons, List.forall_mem_cons, List.forall_mem_singleton]
    exact ⟨opens'.trans opens.symm, prima'.trans prima.symm, seconda'.trans seconda.symm⟩

/-- A rest with a first ending, once it has been played again, and a channel after its second ending. -/
theorem second_ending_follows : ∃ (score : List Node) (passed : List Config) (c : Config) (t : Session),
    Route (.start 40 score) passed c ∧ passed.length = 5 ∧ 1 < c.session.gas.remaining ∧
    c.queue.map Queued.again = [false, false] ∧ c.Accepts (.volta 4 .seconda) ∧
    (∃ last, (passed.filter Config.fresh).getLast? = some last ∧ last.FindsPrima) ∧
    Plays score 40 t ∧ ∀ id, (t.arena.repeats id).capture = none := by
  let rest : Node := .item (.rest 1)
  let prima : Node := .volta 2 .prima
  let close : Node := .repeatClose 3 none
  let last : List Node := [.volta 4 .seconda, .channel 5 2 false]
  let score : List Node := [.repeatOpen 0, rest, prima, close] ++ last
  let session (gas ticks : Nat) (unit : LastUnit) (r : Repeats) : Session :=
    { gas := ⟨gas⟩
      arena := ⟨#[{ channel := 1, rests := ticks, position := ticks, last := unit, repeats := r }]⟩
      channels := #[0] }
  let opened : Repeats := ⟨#[], some ⟨0, #[]⟩, false⟩
  let rested : Repeats := ⟨#[rest], some ⟨0, #[rest]⟩, false⟩
  let ended : Repeats := ⟨#[rest, prima], some ⟨0, #[rest, prima]⟩, false⟩
  let closed : Repeats := ⟨#[], none, true⟩
  have none : #[rest].any Node.isPrimaVolta = false := by decide +kernel
  have some : #[rest, prima].any Node.isPrimaVolta = true := by decide +kernel
  have starts : (step .none ⟨.repeatOpen 0, false⟩).run { gas := ⟨40⟩ } =
      .ok (.some 0, []) (session 39 0 .nothing opened) := rfl
  have rests : (step (.some 0) ⟨rest, false⟩).run (session 39 0 .nothing opened) =
      .ok (.some 0, []) (session 38 32 .rest rested) := rfl
  have ends : (step (.some 0) ⟨prima, false⟩).run (session 38 32 .rest rested) =
      .ok (.some 0, []) (session 37 32 .rest ended) := by
    have steered : (prima.steer 37).run rested = .ok [] ended :=
      @Repeats.steer_prima rested 2 ⟨0, #[rest]⟩ rfl none 37
    exact step_mark_ok rfl Nat.zero_lt_one (by decide) steered
  have closes : (step (.some 0) ⟨close, false⟩).run (session 37 32 .rest ended) =
      .ok (.some 0, [rest]) (session 36 32 .rest closed) := by
    have steered : (close.steer 36).run ended = .ok [rest] closed :=
      @Repeats.steer_repeatClose_volta ended 3 .none #[rest, prima] rfl some rfl 36
    exact step_mark_ok rfl Nat.zero_lt_one (by decide) steered
  have again : (step (.some 0) ⟨rest, true⟩).run (session 36 32 .rest closed) =
      .ok (.some 0, []) (session 35 64 .rest closed) := rfl
  have route : Route (.start 40 score) _ ⟨.some 0, last.map (⟨·, false⟩), session 35 64 .rest closed⟩ :=
    (((((Route.refl _).round (.node starts)).round (.node rests)).round (.node ends)).round
      (.node closes)).round (.node again)
  have played : (run score).run' { gas := ⟨40⟩ } = .some () := by decide +kernel
  obtain ⟨t, plays⟩ := Step.exists_of_run' played
  obtain ⟨protocol, free⟩ := repeats_protocol 40 score
  obtain ⟨accepts, -⟩ := protocol _ _ route
  have left : 1 < 35 := by decide
  obtain ⟨seconda, -⟩ := accepts left 4
  have accepted := seconda.mpr ⟨_, rfl, 3, .none, _, rfl, some⟩
  exact ⟨score, _, _, t, route, rfl, left, rfl, accepted, seconda.mp accepted, plays, free t plays⟩

end TextScore.Session
