import TextScore.Proofs.Bystanders

/-! Scores in sections. After a prelude that plays nothing, channels start and go on in turns; which
one is active, and which timelines belong to them, can be told from the nodes. -/
namespace TextScore

/-- The start of one channel and the nodes that come while it is active. Channels are counted in the
order of their starts, and those that have started are listed with their numbers, latest first. -/
def excerpt (k : Nat) : (started : List (Nat × Nat)) → (active : Option Nat) → List Node → List Node
  | _, _, [] => []
  | started, active, node :: rest => match node with
    | .channel _ id true =>
      excerpt k started ((started.find? fun start => start.2 = id).map Prod.fst) rest
    | .channel _ id false =>
      let rest := excerpt k ((started.length, id) :: started) (some started.length) rest
      if started.length = k then node :: rest else rest
    | _ =>
      let rest := excerpt k started active rest
      if active = some k then node :: rest else rest

/-- What may come before the first channel. -/
def Node.Preliminary : Node → Prop
  | .define _ _ template => ∀ i ∈ template, i.Ungrouped
  | .declareEmoji .. | .global .. => True
  | _ => False

/-- What a body of sections consists of. -/
def Node.Sectional (node : Node) : Prop :=
  node.Local ∨ ∃ offset id resume, node = .channel offset id resume

theorem excerpt_local {k : Nat} {started : List (Nat × Nat)} {active : Option Nat} {node : Node}
    (known : node.Local) (rest : List Node) : excerpt k started active (node :: rest) =
      if active = some k then node :: excerpt k started active rest
      else excerpt k started active rest := by
  cases node with
  | channel => exact known.elim
  | _ => rfl

namespace Session
variable {d : Definitions} {f : Binary64} {active : Option TimelineId} {here : TimelineId}
  {s s' t u : Session}

section Prelude

/-- Nothing has been played yet. -/
structure Blank (s : Session) : Prop where
  arena : s.arena = {}
  channels : s.channels = #[]
  modifiers : s.modifiers = []
  graces : s.graces = none
  definitions : s.definitions.Ungrouped

theorem Blank.calm (blank : s.Blank) : s.Calm s.definitions s.fermata :=
  ⟨⟨blank.modifiers, rfl, rfl⟩, blank.graces⟩

theorem Blank.keeps_definitions {step : Step Definitions Unit}
    (keeps : ∀ {d d' : Definitions}, d.Ungrouped → step.run d = .ok () d' → d'.Ungrouped) :
    Keeps Blank (onDefinitions step) fun _ => Blank := by
  intro s a t blank done
  have unfolded : (onDefinitions step).run s = _ := Step.within_run ..
  rw [unfolded] at done
  split at done
  · next ran =>
    cases done
    exact { blank with definitions := keeps blank.definitions ran }
  · exact nomatch done

theorem Blank.keeps_globalSetting (offset : Nat) (key value : String) :
    Keeps Blank (globalSetting none offset key value) fun _ => Blank := by
  have conducts (event : Conductor → Conductor) :
      Keeps Blank (conduct none offset event) fun _ => Blank := by
    intro s a t blank done
    obtain ⟨_, u, ran, done⟩ := Step.bind_ok
      (p := onConductor (Conductor.moveTo offset 0)) (f := fun _ => modify _) done
    have unfolded : (onConductor (Conductor.moveTo offset 0)).run s = _ := Step.within_run ..
    rw [unfolded] at ran
    split at ran
    · cases ran
      cases done
      exact { blank with }
    · exact nomatch ran
  simp only [globalSetting]
  split
  · split
    · exact conducts _
    · exact .failAt ..
  · split
    · exact conducts _
    · exact .failAt ..
  · split
    · intro s a t blank done
      cases done
      exact { blank with }
    · exact .failAt ..
  · exact .failAt ..

theorem Blank.keeps_step {node : Node} (known : node.Preliminary) :
    Keeps Blank (step none ⟨node, false⟩) fun next s => next = (none, []) ∧ s.Blank := by
  have burnt : Keeps Blank (burn node.offset) fun _ => Blank := fun s a t blank done => by
    rw [burn_ok done]
    exact { blank with }
  have idle (change : Repeats → Repeats) :
      Keeps Blank (adjustRepeats none change) fun _ => Blank := fun s a t blank done => by
    cases done
    exact blank
  have performed : Keeps Blank (performNode none node)
      fun next s => next = (none, []) ∧ s.Blank := by
    cases node with
    | «global» offset key value =>
      exact (Blank.keeps_globalSetting offset key value).bind fun _ => .pure fun blank => ⟨rfl, blank⟩
    | define offset name template =>
      refine (Blank.keeps_definitions fun {d d'} sparse done => ?_).bind fun _ =>
        .pure fun blank => ⟨rfl, blank⟩
      obtain ⟨_, _, read, done⟩ := Step.bind_ok done
      cases read
      cases (Step.unless_ok done).2
      refine ⟨sparse.groups, fun found => ?_⟩
      rcases lookup_cons found with ⟨-, rfl⟩ | old
      · exact known
      · exact sparse.templates old
    | declareEmoji offset symbol setting =>
      refine (Blank.keeps_definitions fun {d d'} sparse done => ?_).bind fun _ =>
        .pure fun blank => ⟨rfl, blank⟩
      obtain ⟨_, _, read, done⟩ := Step.bind_ok done
      cases read
      cases (Step.unless_ok done).2
      exact ⟨sparse.groups, sparse.templates⟩
    | _ => exact known.elim
  unfold step
  refine Keeps.when burnt (Keeps.when (idle _) (performed.bind fun next => ?_))
  refine Keeps.when (fun s a t before done => ?_) (.pure id)
  obtain ⟨rfl, blank⟩ := before
  exact ⟨rfl, idle _ blank done⟩

/-- The prelude is over before the first channel starts, whatever follows it. -/
theorem Config.Ends.prelude {prelude : List Node} (known : ∀ node ∈ prelude, node.Preliminary)
    {rest : List Queued} (rested : s.Rested none) (blank : s.Blank)
    (ends : Config.Ends ⟨none, prelude.map (⟨·, false⟩) ++ rest, s⟩ u) :
    ∃ t, t.Rested none ∧ t.Blank ∧ Config.Ends ⟨none, rest, t⟩ u ∧
      ∀ rest, Rounds ⟨none, prelude.map (⟨·, false⟩) ++ rest, s⟩ ⟨none, rest, t⟩ := by
  induction prelude generalizing s with
  | nil => exact ⟨s, rested, blank, ends, fun _ => .refl⟩
  | cons node prelude ih =>
    obtain ⟨active, again, t, done, ends⟩ := ends.next
    obtain ⟨same, blank⟩ := Blank.keeps_step (known node List.mem_cons_self) blank done
    cases same
    have rested := handover_rested.step ⟨node, false⟩ rested done
    obtain ⟨v, rested, blank, ends, path⟩ :=
      ih (fun other listed => known other (List.mem_cons_of_mem node listed)) rested blank ends
    exact ⟨v, rested, blank, ends, fun rest => .head (.node done) (path rest)⟩

end Prelude

section Course
variable {started : List (Nat × Nat)} {turn : Option Nat}

/-- What is known of a run between two nodes of its body. Which channel is active, and which timelines
channels have, can be told from the nodes so far. -/
structure Course (d : Definitions) (f : Binary64) (started : List (Nat × Nat)) (turn : Option Nat)
    (active : Option TimelineId) (s : Session) : Prop where
  rested : s.Rested active
  calm : s.Calm d f
  recorded : s.Recorded Node.Local
  seats : List.Forall₂ (fun start here => s.channels[start.1]? = some here ∧
    (s.arena.timeline here).channel = start.2) started s.channels.toList.reverse
  active : Option.Rel (fun i here => s.channels[i]? = some here) turn active

/-- Timelines keep their channels. -/
theorem lasts_channel (past : Arena) : Lasts fun arena =>
    past.timelines.size ≤ arena.timelines.size ∧
      ∀ id < past.timelines.size, (arena.timeline id).channel = (past.timeline id).channel where
  strides path known := by
    have grows := path.grows
    refine ⟨Nat.le_trans known.1 grows.size, fun id inside => ?_⟩
    exact (grows.timeline id (Nat.lt_of_lt_of_le inside known.1)).channel.trans (known.2 id inside)
  create {arena} channel known := by
    have size : (arena.create channel).2.timelines.size = arena.timelines.size + 1 :=
      Array.size_push _
    refine ⟨Nat.le_trans known.1 (size ▸ Nat.le_succ _), fun id inside => ?_⟩
    rw [Arena.timeline_create, if_neg (Nat.ne_of_lt (Nat.lt_of_lt_of_le inside known.1))]
    exact known.2 id inside

theorem root_of_seat {i : Nat} (seat : s.channels[i]? = some here) : here ∈ s.channels.toList :=
  Array.mem_toList_iff.mpr (Array.mem_of_getElem? seat)

namespace Course

theorem length (course : Course d f started turn active s) : started.length = s.channels.size := by
  rw [course.seats.length_eq, List.length_reverse, Array.length_toList]

theorem inside (course : Course d f started turn active s) {i : Nat}
    (seat : s.channels[i]? = some here) : here < s.arena.timelines.size :=
  course.rested.tended.sound.inside (List.mem_append_left _ (root_of_seat seat))

/-- No timeline is started by two channels. -/
theorem apart (course : Course d f started turn active s) {i j : Nat}
    (seat : s.channels[i]? = some here) (seat' : s.channels[j]? = some here) : i = j := by
  have forest := course.rested.tended.sound.forest
  have once : s.channels.toList.Nodup :=
    (List.nodup_append.mp (List.nodup_append.mp forest.nodup).1).1
  rw [← Array.getElem?_toList] at seat seat'
  exact (List.getElem?_inj (List.getElem?_eq_some_iff.mp seat).1 once).mp (seat.trans seat'.symm)

/-- Those who are seated stay where they are. -/
theorem stay (course : Course d f started turn active s)
    (channels : ∀ {i : Nat} {here : TimelineId}, s.channels[i]? = some here →
      t.channels[i]? = some here)
    (named : ∀ id < s.arena.timelines.size,
      (t.arena.timeline id).channel = (s.arena.timeline id).channel) :
    List.Forall₂ (fun start here => t.channels[start.1]? = some here ∧
      (t.arena.timeline here).channel = start.2) started s.channels.toList.reverse :=
  course.seats.imp fun _ _ ⟨seat, channel⟩ =>
    ⟨channels seat, (named _ (course.inside seat)).trans channel⟩

/-- A node that concerns the active timeline only. -/
theorem play (course : Course d f started turn (some here) s) (sparse : d.Ungrouped)
    {queued : Queued} (known : queued.node.Local) {again : List Node}
    (done : (stepLocal here queued).run s = .ok again t) :
    Course d f started turn (some here) t ∧ t.channels = s.channels ∧
      ∀ node ∈ again, node.Local := by
  have stepped : (step (some here) queued).run s = .ok (some here, again) t := by
    rw [step_local known, EStateM.run_bind, done]
    rfl
  have aside : s.Aside d f (fun _ => False) here s :=
    ⟨course.rested, course.calm, rfl, id, Arena.family_none .., nofun⟩
  have aside := Aside.keeps sparse known aside done
  obtain ⟨recorded, answers⟩ := recorded_step queued course.recorded stepped
  have named := ((handover_held (lasts_channel s.arena)).step queued
    ⟨course.rested.tended, Nat.le_refl _, fun _ _ => rfl⟩ stepped).holds.2
  refine ⟨⟨aside.rested, aside.calm, fun id node records => ?_, ?_, ?_⟩, aside.channels, answers⟩
  · exact (recorded id node records).elim (fun old => old) fun played => known.replay played.2
  · have seats := course.stay (t := t) (fun seat => aside.channels ▸ seat) named
    rwa [← aside.channels] at seats
  · rw [aside.channels]
    exact course.active

theorem expire (course : Course d f started turn (some here) s) :
    Course d f started turn (some here)
      (s.setRepeats here (s.arena.repeats here).expire) where
  rested := handover_rested.repeats (fun _ => _) course.rested
  calm := ⟨{ course.calm.shares with }, course.calm.graces⟩
  recorded := recorded_setRepeats course.recorded (course.recorded here)
  seats := course.stay id fun id _ => by
    rw [setRepeats, Arena.timeline_adjust_or]
    split
    · next both => exact both.1 ▸ rfl
    · rfl
  active := course.active

theorem spend (course : Course d f started turn active s) (gas : Gas)
    (less : gas.remaining ≤ s.gas.remaining) :
    Course d f started turn active { s with gas := gas } where
  rested := handover_rested.aside course.rested rfl rfl rfl less
  calm := ⟨{ course.calm.shares with }, course.calm.graces⟩
  recorded := course.recorded
  seats := course.seats
  active := course.active

/-- The latest start of a channel can be told from the nodes so far. -/
theorem latest (course : Course d f started turn active s) {id : Nat}
    (found : s.latest? id = some here) : ∃ start, started.find? (fun start => start.2 = id) =
      some start ∧ s.channels[start.1]? = some here := by
  have both {l : List (Nat × Nat)} {l' : List TimelineId}
      (seats : List.Forall₂ (fun start here => s.channels[start.1]? = some here ∧
        (s.arena.timeline here).channel = start.2) l l')
      (found : l'.find? (fun here => (s.arena.timeline here).channel = id) = some here) :
      ∃ start, l.find? (fun start => start.2 = id) = some start ∧
        s.channels[start.1]? = some here := by
    induction seats with
    | nil => exact nomatch found
    | @cons start other l l' seated _ ih =>
      rw [List.find?_cons] at found ⊢
      rw [seated.2] at found
      by_cases same : start.2 = id
      · simp only [same, decide_true] at found ⊢
        exact ⟨start, rfl, Option.some.inj found ▸ seated.1⟩
      · simp only [same, decide_false] at found ⊢
        exact ih found
  exact both course.seats found

theorem resume (course : Course d f started turn active s) {id : Nat}
    (found : s.latest? id = some here) :
    ∃ i, (started.find? fun start => start.2 = id).map Prod.fst = some i ∧
      s.channels[i]? = some here ∧ Course d f started (some i) (some here) s := by
  obtain ⟨start, listed, seat⟩ := course.latest found
  refine ⟨start.1, congrArg (Option.map Prod.fst) listed, seat, ?_⟩
  exact ⟨handover_rested.resume course.rested (root_of_seat seat), course.calm, course.recorded, course.seats,
    .some seat⟩

theorem start (course : Course d f started turn active s) (id : Nat) :
    Course d f ((started.length, id) :: started) (some started.length)
      (some s.arena.timelines.size) { s with
        arena := (s.arena.create id).2
        channels := s.channels.push s.arena.timelines.size } := by
  have seat : (s.channels.push s.arena.timelines.size)[started.length]? =
      some s.arena.timelines.size := by
    rw [course.length, Array.getElem?_push_size]
  refine ⟨handover_rested.start id course.rested, ⟨{ course.calm.shares with }, course.calm.graces⟩,
    course.recorded.of_repeats ((Arena.blind_create id).repeats _), ?_, .some seat⟩
  rw [Array.toList_push, List.reverse_append]
  refine .cons ⟨seat, ?_⟩ (course.stay (fun {i here} known => ?_) fun other inside => ?_)
  · dsimp only
    rw [Arena.timeline_create, if_pos rfl]
  · have inside : i < s.channels.size := (Array.getElem?_eq_some_iff.mp known).1
    rwa [Array.getElem?_push_lt inside, ← Array.getElem?_eq_getElem inside]
  · dsimp only
    rw [Arena.timeline_create, if_neg (Nat.ne_of_lt inside)]

end Course

/-- What a channel node does to the active timeline, before another one becomes active. -/
def leave (active : Option TimelineId) (offset : Nat) : Play Unit := do
  burn offset
  adjustRepeats active Repeats.expire
  ensureRepeatClosed active

theorem setRepeats_self (here : TimelineId) (s : Session) :
    s.setRepeats here (s.arena.repeats here) = s := by
  have same : s.arena.adjust here (Timeline.setRepeats (s.arena.repeats here)) =
      s.arena.adjust here id := Arena.adjust_congr rfl
  have idle : s.arena.adjust here id = s.arena :=
    congrArg Arena.mk (Array.ext Array.size_modify fun i _ _ => by
      simp only [Array.getElem_modify, id, ite_self])
  rw [setRepeats, same, idle]

theorem step_channel (active : Option TimelineId) (offset id : Nat) (resume : Bool) :
    step active ⟨.channel offset id resume, false⟩ = do
      leave active offset
      let here ← declareChannel offset id resume
      adjustRepeats (some here) (Repeats.record (.channel offset id resume))
      return (some here, []) := by
  simp only [step, leave, performNode, Node.isItem, Node.isSecondaVolta, Node.offset,
    Bool.not_false, Bool.and_self, reduceIte, bind_assoc, pure_bind]

theorem record_channel (here : TimelineId) (offset id : Nat) (resume : Bool) (s : Session) :
    (adjustRepeats (some here) (Repeats.record (.channel offset id resume))).run s = .ok () s := by
  have idle : (s.arena.repeats here).record (.channel offset id resume) = s.arena.repeats here := rfl
  rw [adjustRepeats_run, idle, setRepeats_self]

theorem step_channel_ok {offset id : Nat} {resume : Bool} {next : Option TimelineId × List Node}
    (done : (step active ⟨.channel offset id resume, false⟩).run s = .ok next t) :
    ∃ u here, (leave active offset).run s = .ok () u ∧
      (declareChannel offset id resume).run u = .ok here t ∧ next = (some here, []) := by
  rw [step_channel] at done
  obtain ⟨_, u, left, done⟩ := Step.bind_ok done
  obtain ⟨here, v, declared, done⟩ := Step.bind_ok done
  obtain ⟨_, w, recorded, done⟩ := Step.bind_ok done
  rw [record_channel] at recorded
  cases recorded
  cases done
  exact ⟨u, here, left, declared, rfl⟩

theorem capture_of_closed (done : (ensureRepeatClosed (some here)).run s = .ok () t) :
    (s.arena.repeats here).capture = none := by
  rw [ensureRepeatClosed_run] at done
  dsimp only at done
  split at done
  · next closed => exact closed
  · exact nomatch done

end Course
end Session
end TextScore
