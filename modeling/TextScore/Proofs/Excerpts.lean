import Mathlib
import TextScore.Proofs.Echoes
import TextScore.Proofs.Sections

/-! Channels do not interfere. What a channel plays in a score it plays, too, in the excerpt of its own
nodes, after the same prelude and for the same gas. -/
namespace TextScore.Session
variable {d : Definitions} {f : Binary64} {active active' : Option TimelineId} {here : TimelineId}
  {s s' t u : Session} {started : List (Nat × Nat)} {turn : Option Nat} {k : Nat}
  {again rest nodes : List Node} {queued : Queued}

/-- A run of a score and the run of the excerpt of its channel `k`. Before the channel starts the
second run waits; after that it has the channel for itself. -/
inductive Beside (k : Nat) (d : Definitions) (f : Binary64) (playing : Option TimelineId)
    (s : Session) : Option TimelineId → Session → Prop
  | before {s' : Session} (few : s.channels.size ≤ k) (rested : s'.Rested none) (blank : s'.Blank)
    (calm : s'.Calm d f) (gas : s.gas.remaining ≤ s'.gas.remaining) : Beside k d f playing s none s'
  | after {here : TimelineId} {s' : Session} (seat : s.channels[k]? = some here)
    (echo : Echo here 0 s s')
    (closed : playing ≠ some here → (s.arena.repeats here).capture = none)
    (channels : s'.channels = #[0]) : Beside k d f playing s (some 0) s'

namespace Beside

theorem weaken (beside : Beside k d f none s active' s') (playing : Option TimelineId) :
    Beside k d f playing s active' s' := by
  cases beside with
  | before few rested blank calm gas => exact .before few rested blank calm gas
  | after seat echo closed channels => exact .after seat echo (fun _ => closed nofun) channels

/-- The channel is active: both runs play the node. -/
theorem own (course : Course d f started (some k) (some here) s)
    (beside : Beside k d f (some here) s active' s') {queued : Queued} (known : queued.node.Local)
    {again : List Node} (done : (stepLocal here queued).run s = .ok again t) :
    ∃ t', (step active' queued).run s' = .ok (some 0, again) t' ∧
      Beside k d f (some here) t (some 0) t' := by
  obtain @⟨_, _, seat⟩ := course.active
  cases beside with
  | before few => exact absurd (Array.getElem?_eq_some_iff.mp seat).1 (Nat.not_lt_of_le few)
  | @after other s' seat' echo closed channels =>
    obtain rfl : here = other := Option.some.inj (seat.symm.trans seat')
    obtain ⟨t', done', echo⟩ := (Echo.follows_stepLocal queued).ok echo done
    refine ⟨t', ?_, .after ?_ echo (fun other => absurd rfl other)
      (keeps_channels #[0] channels done')⟩
    · rw [step_local known, EStateM.run_bind, done']
      rfl
    · rw [keeps_channels s.channels rfl done]
      exact seat

/-- Another channel is active: the second run does nothing. -/
theorem other (course : Course d f started turn (some here) s) (different : turn ≠ some k)
    (beside : Beside k d f (some here) s active' s') (sparse : d.Ungrouped) {queued : Queued}
    (known : queued.node.Local) {again : List Node}
    (done : (stepLocal here queued).run s = .ok again t) :
    Beside k d f (some here) t active' s' := by
  have stepped : (step (some here) queued).run s = .ok (some here, again) t := by
    rw [step_local known, EStateM.run_bind, done]
    rfl
  have gas := Nat.le_of_lt (step_burns stepped)
  have channels := keeps_channels s.channels rfl done
  cases beside with
  | before few rested blank calm less =>
    exact .before (channels ▸ few) rested blank calm (Nat.le_trans gas less)
  | @after own s' seat echo closed channels' =>
    obtain @⟨i, _, seated⟩ := course.active
    have others : here ≠ own := fun same =>
      different (congrArg some (course.apart seated (same ▸ seat)))
    obtain ⟨F, family, member, spares, echoes⟩ :=
      echo.family course.calm course.rested.tended.sound.forest (root_of_seat seat)
    have aside : s.Aside d f F here s := ⟨course.rested, course.calm, rfl,
      spares here (root_of_seat seated) others, family, fun _ known => ⟨family.inside known, rfl⟩⟩
    have aside := Aside.keeps sparse known aside done
    have measuring : t.measuring = s.measuring :=
      aside.rested.tended.measuring.trans course.rested.tended.measuring.symm
    refine .after (channels ▸ seat) (echoes aside.calm measuring gas aside.still) (fun _ => ?_) channels'
    rw [Arena.repeats, (aside.still member).2]
    exact closed fun same => others (Option.some.inj same)

theorem spend (course : Course d f started turn active s)
    (beside : Beside k d f active s active' s') (gas : Gas)
    (less : gas.remaining ≤ s.gas.remaining) :
    Beside k d f active { s with gas := gas } active' s' := by
  cases beside with
  | before few rested blank calm more =>
    exact .before few rested blank calm (Nat.le_trans less more)
  | after seat echo closed channels =>
    obtain ⟨F, family, -, -, echoes⟩ :=
      echo.family course.calm course.rested.tended.sound.forest (root_of_seat seat)
    exact .after seat (echoes (course.spend gas less).calm rfl less
      fun _ known => ⟨family.inside known, rfl⟩) closed channels

/-- The active channel is left with no repeat open, and a second ending cannot follow any more. -/
theorem expire (course : Course d f started turn (some here) s)
    (beside : Beside k d f (some here) s active' s')
    (closed : (s.arena.repeats here).capture = none) :
    Beside k d f none (s.setRepeats here (s.arena.repeats here).expire) active' s' := by
  cases beside with
  | before few rested blank calm gas => exact .before few rested blank calm gas
  | @after own s' seat echo closed' channels =>
    by_cases same : here = own
    · subst same
      refine .after seat (echo.sink echo.repeats.expired) (fun _ => ?_) channels
      rw [repeats_setRepeats, if_pos ⟨rfl, echo.inside.1⟩]
      exact closed
    · obtain @⟨i, _, seated⟩ := course.active
      obtain ⟨F, family, -, spares, echoes⟩ :=
        echo.family course.calm course.rested.tended.sound.forest (root_of_seat seat)
      refine .after seat (echoes course.expire.calm rfl (Nat.le_refl _)
        (family.adjust (spares here (root_of_seat seated) same) _)) (fun _ => ?_) channels
      rw [repeats_setRepeats, if_neg fun both => same both.1.symm]
      exact closed' fun other => same (Option.some.inj other)

theorem leave (course : Course d f started turn active s)
    (beside : Beside k d f active s active' s') {offset : Nat}
    (done : (leave active offset).run s = .ok () u) :
    Course d f started turn active u ∧ u.channels = s.channels ∧
      u.gas.remaining = s.gas.remaining - 1 ∧ s.gas.remaining - 1 ≠ 0 ∧
      Beside k d f none u active' s' := by
  obtain ⟨_, v, burnt, rest⟩ := Step.bind_ok done
  obtain ⟨_, w, expired, closing⟩ := Step.bind_ok rest
  obtain rfl := ensureRepeatClosed_ok closing
  have left : s.gas.remaining - 1 ≠ 0 := fun none => by
    rw [burn_run, if_pos none] at burnt
    exact nomatch burnt
  obtain rfl := burn_ok burnt
  have spent := course.spend ⟨s.gas.remaining - 1⟩ (Nat.sub_le ..)
  have beside := beside.spend course ⟨s.gas.remaining - 1⟩ (Nat.sub_le ..)
  cases active with
  | none =>
    cases expired
    exact ⟨spent, rfl, rfl, left, beside⟩
  | some here =>
    rw [adjustRepeats_run] at expired
    cases expired
    refine ⟨spent.expire, rfl, rfl, left, beside.expire spent ?_⟩
    have closed := capture_of_closed closing
    obtain @⟨i, _, seated⟩ := course.active
    rw [repeats_setRepeats, if_pos ⟨rfl, course.inside seated⟩] at closed
    exact closed

/-- Another channel starts. -/
theorem begin (course : Course d f started turn active s) (later : started.length ≠ k)
    (beside : Beside k d f none s active' s') (id : Nat) (playing : Option TimelineId) :
    Beside k d f playing { s with
      arena := (s.arena.create id).2
      channels := s.channels.push s.arena.timelines.size } active' s' := by
  rw [course.length] at later
  cases beside with
  | before few rested blank calm gas =>
    refine .before ?_ rested blank calm gas
    rw [Array.size_push]
    exact Nat.lt_of_le_of_ne few later
  | @after own s' seat echo closed channels =>
    obtain ⟨F, family, member, -, echoes⟩ :=
      echo.family course.calm course.rested.tended.sound.forest (root_of_seat seat)
    have still := family.create id
    refine .after ?_ (echoes (course.start id).calm rfl (Nat.le_refl _) still) (fun _ => ?_) channels
    · have inside : k < s.channels.size := (Array.getElem?_eq_some_iff.mp seat).1
      rw [Array.getElem?_push_lt inside, ← Array.getElem?_eq_getElem inside]
      exact seat
    · rw [Arena.repeats, (still member).2]
      exact closed (by simp)

/-- The channel starts, in both runs. -/
theorem own_start (course : Course d f started turn active u) (now : started.length = k)
    (beside : Beside k d f active s active' s') (channels : u.channels = s.channels)
    (gas : u.gas.remaining = s.gas.remaining - 1) (left : s.gas.remaining - 1 ≠ 0) {id : Nat}
    (valid : ¬ (id = 0 ∨ 16 < id)) (offset : Nat) :
    ∃ t', (step active' ⟨.channel offset id false, false⟩).run s' = .ok (some 0, []) t' ∧
      Beside k d f (some u.arena.timelines.size) { u with
        arena := (u.arena.create id).2
        channels := u.channels.push u.arena.timelines.size } (some 0) t' := by
  rw [course.length, channels] at now
  cases beside with
  | after seat => exact absurd (Array.getElem?_eq_some_iff.mp seat).1 (by omega)
  | @before s' few rested blank calm more =>
    let v : Session := { s' with gas := ⟨s'.gas.remaining - 1⟩ }
    let t' : Session := { v with
      arena := (s'.arena.create id).2
      channels := s'.channels.push s'.arena.timelines.size }
    have first : s'.arena.timelines.size = 0 := congrArg (·.timelines.size) blank.arena
    have left' : (Session.leave none offset).run s' = .ok () v := by
      have burnt : (burn offset).run s' = .ok () v := by
        rw [burn_run, if_neg (by omega)]
      rw [Session.leave, EStateM.run_bind, burnt]
      rfl
    have started' : (declareChannel offset id false).run v = .ok s'.arena.timelines.size t' := by
      rw [declareChannel_run, if_neg valid, if_neg Bool.false_ne_true]
      rfl
    have calm' : v.Calm d f := ⟨{ calm.shares with }, calm.graces⟩
    have echo := Echo.start course.calm calm'
      (course.rested.tended.measuring.trans rested.tended.measuring.symm)
      (by rw [gas]; exact Nat.sub_le_sub_right more 1) id
      (u.channels.push u.arena.timelines.size) (s'.channels.push s'.arena.timelines.size)
    rw [first] at started'
    refine ⟨t', ?_, .after ?_ (first ▸ echo) (fun other => absurd rfl other) ?_⟩
    · rw [step_channel, EStateM.run_bind, left']
      dsimp only
      rw [EStateM.run_bind, started']
      dsimp only
      rw [EStateM.run_bind, record_channel]
      rfl
    · rw [← now, ← channels, Array.getElem?_push_size]
    · have channels' : t'.channels = s'.channels.push s'.arena.timelines.size := rfl
      rw [channels', blank.channels, first]
      rfl

end Beside

/-- A run in its body, and the run of an excerpt. What a repeat plays again comes before what is
written. -/
inductive Alongside (k : Nat) (d : Definitions) (f : Binary64) : Config → Config → Prop
  | mk {started : List (Nat × Nat)} {turn : Option Nat} {again rest : List Node}
    {active active' : Option TimelineId} {s s' : Session} (course : Course d f started turn active s)
    (beside : Beside k d f active s active' s') (replayed : ∀ node ∈ again, node.Local)
    (written : ∀ node ∈ rest, node.Sectional)
    (begun : turn = none → again = [] ∧ ∃ offset id more, rest = .channel offset id false :: more) :
    Alongside k d f ⟨active, again.map (⟨·, true⟩) ++ rest.map (⟨·, false⟩), s⟩
      ⟨active', (if turn = some k then again.map (⟨·, true⟩) else []) ++
        (excerpt k started turn rest).map (⟨·, false⟩), s'⟩

namespace Alongside

/-- No repeat has anything left to play again. -/
theorem unplayed : ∀ node ∈ ([] : List Node), node.Local := nofun

/-- A node that concerns the active timeline only is in the excerpt if the channel is active. -/
theorem play (course : Course d f started turn (some here) s)
    (beside : Beside k d f (some here) s active' s') (sparse : d.Ungrouped)
    (known : queued.node.Local) (replayed : ∀ node ∈ again, node.Local)
    (written : ∀ node ∈ rest, node.Sectional)
    (done : (stepLocal here queued).run s = .ok nodes t) :
    ∃ e, Rounds ⟨active', (if turn = some k then queued :: again.map (⟨·, true⟩) else []) ++
        (excerpt k started turn rest).map (⟨·, false⟩), s'⟩ e ∧
      Alongside k d f ⟨some here, nodes.map (⟨·, true⟩) ++ (again.map (⟨·, true⟩) ++
        rest.map (⟨·, false⟩)), t⟩ e := by
  obtain ⟨after, -, answers⟩ := course.play sparse known done
  have replayed' : ∀ node ∈ nodes ++ again, node.Local := fun node listed =>
    (List.mem_append.mp listed).elim (answers node) (replayed node)
  have begun (none : turn = none) : nodes ++ again = [] ∧
      ∃ offset id more, rest = .channel offset id false :: more := by
    subst none
    exact nomatch course.active
  rw [← List.append_assoc, ← List.map_append]
  by_cases own : turn = some k
  · obtain ⟨t', done', beside⟩ := beside.own (own ▸ course) known done
    refine ⟨_, .single ?_, .mk after beside replayed' written begun⟩
    rw [if_pos own, if_pos own, List.map_append, List.append_assoc]
    exact .node done'
  · have beside := beside.other course own sparse known done
    refine ⟨_, .refl, ?_⟩
    have alongside := mk after beside replayed' written begun
    rwa [if_neg own] at alongside ⊢

/-- A channel goes on. -/
theorem resume (course : Course d f started turn active s)
    (beside : Beside k d f active s active' s') (written : ∀ node ∈ rest, node.Sectional)
    {offset id : Nat} {next : Option TimelineId × List Node}
    (done : (step active ⟨.channel offset id true, false⟩).run s = .ok next t) :
    Alongside k d f ⟨next.1, next.2.map (⟨·, true⟩) ++ rest.map (⟨·, false⟩), t⟩
      ⟨active', (excerpt k started turn (.channel offset id true :: rest)).map (⟨·, false⟩), s'⟩ := by
  obtain ⟨u, here, left, declared, rfl⟩ := step_channel_ok done
  obtain ⟨course, -, -, -, beside⟩ := beside.leave course left
  rw [declareChannel_run] at declared
  split at declared
  · exact nomatch declared
  rw [if_pos rfl] at declared
  split at declared
  · next found =>
    cases declared
    obtain ⟨i, listed, seat, course⟩ := course.resume found
    have alongside := mk course (beside.weaken (some here)) unplayed written nofun
    have same : excerpt k started turn (.channel offset id true :: rest) =
        excerpt k started (some i) rest := by
      rw [← listed]
      rfl
    rw [same]
    simpa only [List.map_nil, ite_self, List.nil_append] using alongside
  · exact nomatch declared

/-- A channel starts. -/
theorem start (course : Course d f started turn active s)
    (beside : Beside k d f active s active' s') (written : ∀ node ∈ rest, node.Sectional)
    {offset id : Nat} {next : Option TimelineId × List Node}
    (done : (step active ⟨.channel offset id false, false⟩).run s = .ok next t) :
    ∃ e, Rounds ⟨active', (excerpt k started turn (.channel offset id false :: rest)).map
        (⟨·, false⟩), s'⟩ e ∧
      Alongside k d f ⟨next.1, next.2.map (⟨·, true⟩) ++ rest.map (⟨·, false⟩), t⟩ e := by
  obtain ⟨u, here, left, declared, rfl⟩ := step_channel_ok done
  obtain ⟨course, channels, gas, enough, beside'⟩ := beside.leave course left
  rw [declareChannel_run] at declared
  split at declared
  · exact nomatch declared
  next valid =>
  rw [if_neg Bool.false_ne_true] at declared
  cases declared
  have same : excerpt k started turn (.channel offset id false :: rest) =
      if started.length = k then .channel offset id false ::
        excerpt k ((started.length, id) :: started) (some started.length) rest
      else excerpt k ((started.length, id) :: started) (some started.length) rest := rfl
  rw [same]
  by_cases now : started.length = k
  · obtain ⟨t', done', beside⟩ := beside.own_start course now channels gas enough valid offset
    have alongside := mk (course.start id) beside unplayed written nofun
    simp only [List.map_nil, ite_self, List.nil_append] at alongside
    refine ⟨_, .single ?_, alongside⟩
    rw [if_pos now]
    exact .node done'
  · have alongside := mk (course.start id) (beside'.begin course now id _) unplayed written nofun
    simp only [List.map_nil, ite_self, List.nil_append] at alongside
    refine ⟨_, ?_, alongside⟩
    rw [if_neg now]

/-- One round of the run is one of the excerpt, or none. -/
theorem round (sparse : d.Ungrouped) {c c' e : Config} (alongside : Alongside k d f c c')
    (round : Round c e) : ∃ e', Rounds c' e' ∧ Alongside k d f e e' := by
  obtain @⟨started, turn, again, rest, active, active', s, s', course, beside, replayed, written,
    begun⟩ := alongside
  have split (queued : Queued) {here : TimelineId} {t : Session}
      {next : Option TimelineId × List Node} (known : queued.node.Local) (done : (step (some here) queued).run s = .ok next t) :
      ∃ nodes, (stepLocal here queued).run s = .ok nodes t ∧ next = (some here, nodes) := by
    rw [step_local known] at done
    obtain ⟨nodes, u, played, done⟩ := Step.bind_ok done
    cases done
    exact ⟨nodes, played, rfl⟩
  cases again with
  | cons node again =>
    cases turn with
    | none => exact nomatch (begun rfl).1
    | some i =>
      obtain @⟨_, here, seat⟩ := course.active
      rw [List.map_cons, List.cons_append] at round
      obtain ⟨done⟩ := round
      have known : (⟨node, true⟩ : Queued).node.Local := replayed node List.mem_cons_self
      obtain ⟨nodes, played, same⟩ := split ⟨node, true⟩ known done
      cases same
      exact play course beside sparse known
        (fun other listed => replayed other (List.mem_cons_of_mem node listed)) written played
  | nil =>
    cases rest with
    | nil => exact nomatch round
    | cons node rest =>
      have written' : ∀ node ∈ rest, node.Sectional :=
        fun other listed => written other (List.mem_cons_of_mem node listed)
      rw [List.map_nil, List.nil_append, List.map_cons] at round
      rw [List.map_nil, ite_self, List.nil_append]
      obtain ⟨done⟩ := round
      rcases written node List.mem_cons_self with known | ⟨offset, id, resumes, rfl⟩
      · cases turn with
        | none =>
          obtain ⟨-, offset, id, more, same⟩ := begun rfl
          cases same
          exact known.elim
        | some i =>
          obtain @⟨_, here, seat⟩ := course.active
          obtain ⟨nodes, played, same⟩ := split ⟨node, false⟩ known done
          cases same
          have known' : (⟨node, false⟩ : Queued).node.Local := known
          have alongside := play course beside sparse known' unplayed written' played
          rw [excerpt_local known]
          by_cases own : some i = some k
          · rw [if_pos own] at alongside ⊢
            exact alongside
          · rw [if_neg own] at alongside ⊢
            exact alongside
      · cases resumes with
        | true => exact ⟨_, .refl, resume course beside written' done⟩
        | false => exact start course beside written' done

/-- Runs stay alongside to the end. -/
theorem rounds (sparse : d.Ungrouped) {c c' e : Config} (alongside : Alongside k d f c c')
    (path : Rounds c e) : ∃ e', Rounds c' e' ∧ Alongside k d f e e' := by
  induction path with
  | refl => exact ⟨c', .refl, alongside⟩
  | tail _ round ih =>
    obtain ⟨e', path', alongside⟩ := ih
    obtain ⟨e'', further, alongside⟩ := alongside.round sparse round
    exact ⟨e'', path'.trans further, alongside⟩

/-- Where the run ends so does that of the excerpt. -/
theorem ends {last : Option TimelineId} {c : Config} (alongside : Alongside k d f ⟨last, [], s⟩ c)
    (closed : (ensureRepeatClosed last).run s = .ok () s) {here : TimelineId}
    (seat : s.channels[k]? = some here) :
    c.queue = [] ∧ (ensureRepeatClosed c.active).run c.session = .ok () c.session ∧
      c.session.channels = #[0] ∧ Echo here 0 s c.session := by
  generalize started : (⟨last, [], s⟩ : Config) = c₀ at alongside
  obtain @⟨_, turn, again, rest, active, active', _, s', course, beside, -, -, -⟩ := alongside
  obtain ⟨rfl, queue, rfl⟩ := Config.mk.inj started
  obtain ⟨replays, written⟩ := List.append_eq_nil_iff.mp queue.symm
  obtain rfl := List.map_eq_nil_iff.mp replays
  obtain rfl := List.map_eq_nil_iff.mp written
  refine ⟨by simp only [List.map_nil, ite_self, List.nil_append, excerpt], ?_⟩
  cases beside with
  | before few => exact absurd (Array.getElem?_eq_some_iff.mp seat).1 (Nat.not_lt_of_le few)
  | @after other s' seat' echo open' channels =>
    obtain rfl : here = other := Option.some.inj (seat.symm.trans seat')
    refine ⟨?_, channels, echo⟩
    have capture : (s.arena.repeats here).capture = none := by
      by_cases same : last = some here
      · subst same
        exact capture_of_closed closed
      · exact open' same
    rw [ensureRepeatClosed_run]
    dsimp only
    rw [echo.repeats.capture, capture]

end Alongside

/-- Before the first channel starts nothing is known of channels. -/
theorem Blank.course (blank : s.Blank) (rested : s.Rested none) :
    Course s.definitions s.fermata [] none none s where
  rested := rested
  calm := blank.calm
  recorded id node records := by
    rw [Arena.repeats, blank.arena] at records
    rcases records with performed | ⟨c, opened, -⟩
    · exact absurd performed (Array.not_mem_empty node)
    · cases opened
  seats := by
    rw [blank.channels]
    exact .nil
  active := .none

/-- Channels do not interfere. In a score without groups each channel plays what it plays alone: after
the same prelude, with its own start and the nodes that come while it is active, and for the same gas. -/
theorem channels_apart {prelude body : List Node} {gas : Nat} {t : Session}
    (preliminary : ∀ node ∈ prelude, node.Preliminary)
    (begins : ∃ offset id rest, body = .channel offset id false :: rest)
    (sectional : ∀ node ∈ body, node.Sectional) (plays : Plays (prelude ++ body) gas t) :
    ∀ k here, t.channels[k]? = some here → ∃ t',
      Plays (prelude ++ excerpt k [] none body) gas t' ∧ t'.channels = #[0] ∧
        t.arena.Echoes here t'.arena 0 ∧
        ∀ depth, Track.ofTree t.arena depth here = Track.ofTree t'.arena depth 0 := by
  intro k here seat
  have start (rest : List Node) : Config.start gas (prelude ++ rest) =
      ⟨none, prelude.map (⟨·, false⟩) ++ rest.map (⟨·, false⟩), { gas := ⟨gas⟩ }⟩ := by
    rw [Config.start, List.map_append]
  have ends := plays_iff.mp plays
  rw [start] at ends
  have fresh : Blank { gas := ⟨gas⟩ } := ⟨rfl, rfl, rfl, rfl, rfl, nofun⟩
  obtain ⟨s, rested, blank, ⟨last, path, closed⟩, prelude'⟩ :=
    ends.prelude preliminary (rested_start gas []) fresh
  have few : s.channels.size ≤ k := by
    rw [blank.channels]
    exact Nat.zero_le k
  have alongside := Alongside.mk (blank.course rested)
    (.before few rested blank blank.calm (Nat.le_refl _)) Alongside.unplayed sectional fun _ => ⟨rfl, begins⟩
  simp only [List.map_nil, ite_self, List.nil_append] at alongside
  obtain ⟨⟨last', queue, t'⟩, path', alongside⟩ := alongside.rounds blank.definitions path
  obtain ⟨rfl, closed', channels, echo⟩ := alongside.ends closed seat
  have ends' : (Config.start gas (prelude ++ excerpt k [] none body)).Ends t' := by
    rw [start]
    exact ⟨last', (prelude' _).trans path', closed'⟩
  exact ⟨t', plays_iff.mpr ends', channels, echo.echoes, echo.echoes.tracks⟩

/-- A channel goes on after another one has played, and repeats what it has played before. -/
theorem channels_apart_resumed :
    let key (offset pitchClass : Nat) : Item := .key ⟨offset, .pitchClass pitchClass, 0, 0⟩
    let prelude : List Node := [.define 0 "a" [.key ⟨8, .placeholder, 0, 0⟩]]
    let body : List Node := [.channel 12 1 false, .item (.range 15 (.userRange "a") [key 21 0]),
      .channel 24 2 false, .item (key 27 2), .channel 30 1 true, .repeatClose 33 none,
      .item (key 36 4)]
    let own : List Node := [.channel 12 1 false, .item (.range 15 (.userRange "a") [key 21 0]),
      .repeatClose 33 none, .item (key 36 4)]
    (∀ node ∈ prelude, node.Preliminary) ∧ (∀ node ∈ body, node.Sectional) ∧
      ∃ t t', Plays (prelude ++ body) 40 t ∧ t.channels[0]? = some 0 ∧
        Plays (prelude ++ own) 40 t' ∧ t.arena.Echoes 0 t'.arena 0 := by
  intro key prelude body own
  have plain (offset pitchClass : Nat) : (key offset pitchClass).Ungrouped :=
    Item.throughout_iff.mpr ⟨trivial, nofun⟩
  have range : (Item.range 15 (.userRange "a") [key 21 0]).Ungrouped :=
    Item.throughout_iff.mpr ⟨trivial, List.forall_mem_singleton.mpr (plain 21 0)⟩
  have preliminary : ∀ node ∈ prelude, node.Preliminary :=
    List.forall_mem_singleton.mpr <| List.forall_mem_singleton.mpr <|
      Item.throughout_iff.mpr ⟨trivial, nofun⟩
  have sectional : ∀ node ∈ body, node.Sectional := by
    simp only [body, List.forall_mem_cons]
    exact ⟨.inr ⟨12, 1, false, rfl⟩, .inl range, .inr ⟨24, 2, false, rfl⟩, .inl (plain 27 2),
      .inr ⟨30, 1, true, rfl⟩, .inl trivial, .inl (plain 36 4), nofun⟩
  have played : ((do run (prelude ++ body); return (← get).channels : Play _).run'
      { gas := ⟨40⟩ }) = some #[0, 1] := by decide +kernel
  obtain ⟨t, played⟩ := Step.exists_of_run' played
  obtain ⟨_, u, plays, read⟩ := Step.bind_ok played
  obtain ⟨channels, rfl⟩ := EStateM.Result.ok.inj read
  have seat : u.channels[0]? = some 0 := by
    rw [channels]
    rfl
  obtain ⟨t', plays', -, echoes, -⟩ :=
    channels_apart preliminary ⟨_, _, _, rfl⟩ sectional plays 0 0 seat
  exact ⟨preliminary, sectional, u, t', plays, seat, plays', echoes⟩

/-- A group that the definition of a range declares is known to all channels from its first use on: the
second of these channels does not play without the first. -/
theorem channels_meet_in_groups :
    let key (offset : Nat) : Item := .key ⟨offset, .pitchClass 0, 0, 0⟩
    let prelude : List Node := [.define 0 "a" [.group 8 1 [.key ⟨11, .placeholder, 0, 0⟩]],
      .define 16 "b" [.groupRef 24 1]]
    let body : List Node := [.channel 31 1 false, .item (.range 34 (.userRange "a") [key 40]),
      .channel 43 2 false, .item (.range 46 (.userRange "b") [key 52])]
    (∀ node ∈ body, node.Sectional) ∧
      (∃ t, Plays (prelude ++ body) 100 t ∧ t.channels = #[0, 1]) ∧
      ¬ ∃ t', Plays (prelude ++ excerpt 1 [] none body) 100 t' := by
  intro key prelude body
  have ungrouped (offset : Nat) (kind : RangeKind) (inner : Nat) :
      (Item.range offset kind [key inner]).Ungrouped :=
    Item.throughout_iff.mpr ⟨trivial,
      List.forall_mem_singleton.mpr <| Item.throughout_iff.mpr ⟨trivial, List.forall_mem_nil _⟩⟩
  have sectional : ∀ node ∈ body, node.Sectional := by
    simp only [body, List.forall_mem_cons]
    exact ⟨.inr ⟨31, 1, false, rfl⟩, .inl (ungrouped 34 _ 40), .inr ⟨43, 2, false, rfl⟩,
      .inl (ungrouped 46 _ 52), List.forall_mem_nil _⟩
  have played : ((do run (prelude ++ body); return (← get).channels : Play _).run'
      { gas := ⟨100⟩ }) = some #[0, 1] := by decide +kernel
  have fails : (run (prelude ++ excerpt 1 [] none body)).run' { gas := ⟨100⟩ } = none := by
    decide +kernel
  obtain ⟨t, played⟩ := Step.exists_of_run' played
  obtain ⟨_, u, plays, read⟩ := Step.bind_ok played
  obtain ⟨channels, rfl⟩ := EStateM.Result.ok.inj read
  refine ⟨sectional, ⟨u, plays, channels⟩, fun ⟨t', plays'⟩ => ?_⟩
  have ended : (run (prelude ++ excerpt 1 [] none body)).run { gas := ⟨100⟩ } = .ok () t' := plays'
  rw [EStateM.run', ended] at fails
  cases fails

end TextScore.Session
