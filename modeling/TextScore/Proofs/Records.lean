import TextScore.Proofs.TwinRuns

/-! What repeats play again. It has been recorded, and recorded is what has been performed, so what
holds of nodes that come from the score and survives performing them holds of all nodes of a run. -/
namespace TextScore

/-- Only a group is not played again as what it is. -/
theorem Node.replay_cases {node again : Node} (played : node.replay? = some again) : node = again ∨
    ∃ offset id body, node = .item (.group offset id body) ∧ again = .item (.groupRef offset id) := by
  cases node with
  | item i =>
    cases i with
    | group offset id body => exact .inr ⟨offset, id, body, rfl, (Option.some.inj played).symm⟩
    | _ => exact .inl (Option.some.inj played)
  | volta offset ending =>
    cases ending with
    | prima => exact .inl (Option.some.inj played)
    | seconda => exact nomatch played
  | «global» => exact .inl (Option.some.inj played)
  | _ => exact nomatch played

namespace Repeats
variable {r : Repeats} {node : Node}

def Records (r : Repeats) (node : Node) : Prop :=
  node ∈ r.performed ∨ ∃ c, r.capture = some c ∧ node ∈ c.nodes

theorem records_of_captured (member : node ∈ r.captured) : r.Records node := by
  unfold captured at member
  cases opened : r.capture with
  | none =>
    rw [opened] at member
    exact .inl member
  | some c =>
    rw [opened] at member
    exact .inr ⟨c, opened, member⟩

theorem records_record {played : Node} (records : (r.record played).Records node) :
    r.Records node ∨ played.replay? = some node := by
  unfold record at records
  cases again : played.replay? with
  | none =>
    rw [again] at records
    exact .inl records
  | some other =>
    rw [again] at records
    rcases records with performed | ⟨c, opened, member⟩
    · rcases Array.mem_push.mp performed with before | rfl
      · exact .inl (.inl before)
      · exact .inr rfl
    · obtain ⟨c, before, rfl⟩ := Option.map_eq_some_iff.mp opened
      rcases Array.mem_push.mp member with listed | rfl
      · exact .inl (.inr ⟨c, before, listed⟩)
      · exact .inr rfl

theorem not_records_closed {offset budget : Nat} {count : Option Nat} {again : List Node}
    {r' : Repeats} (done : (close offset count budget).run r = .ok again r') : ¬ r'.Records node := by
  have emptied : r'.performed = #[] ∧ r'.capture = none := by
    rw [close_run] at done
    split at done
    · exact nomatch done
    split at done
    · split at done
      · exact nomatch done
      · cases done
        exact ⟨rfl, rfl⟩
    · split at done
      · exact nomatch done
      · cases done
        exact ⟨rfl, rfl⟩
  rintro (performed | ⟨c, opened, -⟩)
  · rw [emptied.1] at performed
    exact Array.not_mem_empty node performed
  · exact nomatch opened.symm.trans emptied.2

theorem records_volta {offset : Nat} {ending : Volta} {r' : Repeats}
    (done : (volta offset ending).run r = .ok () r') (records : r'.Records node) :
    r.Records node := by
  have performed : r'.performed = r.performed := by
    rw [volta_run] at done
    split at done
    · split at done
      · exact nomatch done
      · split at done
        · exact nomatch done
        · cases done
          rfl
    · split at done
      · cases done
        rfl
      · exact nomatch done
  rw [Records, performed, volta_capture done] at records
  exact records

theorem records_start {offset : Nat} {r' : Repeats} (done : (start offset).run r = .ok () r')
    (records : r'.Records node) : r.Records node := by
  rw [start_run] at done
  split at done
  · exact nomatch done
  · cases done
    rcases records with performed | ⟨c, opened, member⟩
    · exact .inl performed
    · cases opened
      exact absurd member (Array.not_mem_empty node)

end Repeats

namespace Session
variable {active : Option TimelineId} {here : TimelineId} {s t : Session} {α : Type}
  {G : Node → Prop}

/-- All that the timelines have recorded is of one kind. -/
def Recorded (G : Node → Prop) (s : Session) : Prop :=
  ∀ id node, (s.arena.repeats id).Records node → G node

theorem Recorded.of_repeats (recorded : s.Recorded G) (same : t.arena.repeats = s.arena.repeats) :
    t.Recorded G := by
  unfold Recorded
  rw [same]
  exact recorded

theorem recorded_setRepeats {r : Repeats} (recorded : s.Recorded G)
    (each : ∀ node, r.Records node → G node) : (s.setRepeats here r).Recorded G := by
  intro id node records
  rw [repeats_setRepeats] at records
  split at records
  · exact each node records
  · exact recorded id node records

/-- Performing items leaves repeats alone. -/
theorem perform_repeats {depth references ticks : Nat} {item : Item}
    (done : (perform depth here references item).run s = .ok ticks t) :
    t.arena.repeats = s.arena.repeats := by
  have follows : Step.Follows Excused (paired 0 0 s.arena.repeats s.arena.repeats)
      (perform depth here references item) (perform depth here references item) _ :=
    follows_item (Nat.le_refl depth) here references item
  have agree := follows.both s s ⟨.mk (.refl s.arena), rfl, rfl, Nat.zero_le _⟩
  rw [done] at agree
  exact agree.2.2.1

theorem passing_recorded : Passing fun _ => Recorded G where
  aside recorded arena _ _ _ := recorded.of_repeats (congrArg Arena.repeats arena)
  start channel recorded := recorded.of_repeats ((Arena.blind_create channel).repeats _)
  resume recorded _ := recorded

theorem recorded_adjustRepeats {f : Repeats → Repeats}
    (each : ∀ r : Repeats, (∀ node, r.Records node → G node) →
      ∀ node, (f r).Records node → G node) :
    Keeps (Recorded G) (adjustRepeats active f) fun _ => Recorded G := by
  intro s a t recorded done
  cases active with
  | none =>
    cases done
    exact recorded
  | some here =>
    rw [adjustRepeats_run] at done
    cases done
    exact recorded_setRepeats recorded (each _ (recorded here))

theorem recorded_onRepeats {step : Step Repeats α} {Q : α → Prop}
    (each : ∀ {r r' : Repeats} {a}, (∀ node, r.Records node → G node) → step.run r = .ok a r' →
      (∀ node, r'.Records node → G node) ∧ Q a) :
    Keeps (Recorded G) (onRepeats here step) fun a t => Recorded G t ∧ Q a := by
  intro s a t recorded done
  rw [onRepeats_run] at done
  split at done
  · next ran =>
    cases done
    obtain ⟨records, answer⟩ := each (recorded here) ran
    exact ⟨recorded_setRepeats recorded records, answer⟩
  · exact nomatch done

/-- A node only hands back what has been recorded. -/
theorem recorded_performNode (node : Node) :
    Keeps (Recorded G) (performNode active node) fun next t =>
      Recorded G t ∧ ∀ again ∈ next.2, G again := by
  have none {active : Option TimelineId} : Keeps (Recorded G) (pure (active, []) : Play _)
      fun next t => Recorded G t ∧ ∀ again ∈ next.2, G again :=
    .pure fun recorded => ⟨recorded, nofun⟩
  have pass := passing_recorded (G := G)
  have activated : Keeps (Recorded G) (activate active) fun _ => Recorded G := pass.activate
  cases node with
  | item item =>
    refine activated.bind fun here => Keeps.read fun _ => ?_
    exact Keeps.bind (Q := fun _ => Recorded G)
      (fun s ticks t recorded done => recorded.of_repeats (perform_repeats done)) fun _ => none
  | channel offset id resume =>
    refine Keeps.bind (Q := fun _ => Recorded G) (fun s a t recorded done => ?_) fun _ =>
      Keeps.bind (@Passing.declareChannel _ active pass offset id resume) fun _ => none
    exact ensureRepeatClosed_ok done ▸ recorded
  | «global» offset key value =>
    exact Keeps.bind (pass.globalSetting offset key value) fun _ => none
  | define offset name template =>
    exact Keeps.bind (@Passing.definitions _ active _ pass _) fun _ => none
  | declareEmoji offset symbol setting =>
    exact Keeps.bind (@Passing.definitions _ active _ pass _) fun _ => none
  | repeatOpen offset =>
    refine activated.bind fun here =>
      (recorded_onRepeats (Q := fun _ => True) fun records done =>
        ⟨fun node now => records node (Repeats.records_start done now), trivial⟩).bind fun _ => ?_
    exact .pure fun done => ⟨done.1, nofun⟩
  | repeatClose offset count =>
    refine activated.bind fun here => Keeps.read fun u => ?_
    refine Keeps.bind (Q := fun again t => Recorded G t ∧ ∀ node ∈ again, G node)
      (recorded_onRepeats fun records done => ⟨fun node now => ?_, fun node listed => ?_⟩)
      fun again => .pure id
    · exact absurd now (Repeats.not_records_closed done)
    · exact records node (Repeats.records_of_captured (Repeats.mem_close done node listed))
  | volta offset ending =>
    refine activated.bind fun here =>
      (recorded_onRepeats (Q := fun _ => True) fun records done =>
        ⟨fun node now => records node (Repeats.records_volta done now), trivial⟩).bind fun _ => ?_
    exact .pure fun done => ⟨done.1, nofun⟩

/-- What a node leaves recorded was recorded before it, or is what playing it again means. -/
theorem recorded_step (queued : Queued) {again : List Node} {active' : Option TimelineId}
    (recorded : s.Recorded G) (done : (step active queued).run s = .ok (active', again) t) :
    t.Recorded (fun node => G node ∨ queued.again = false ∧ queued.node.replay? = some node) ∧
      ∀ node ∈ again, G node := by
  let G' (node : Node) : Prop := G node ∨ queued.again = false ∧ queued.node.replay? = some node
  have record {active : Option TimelineId} (first : queued.again = false) :
      Keeps (Recorded G') (adjustRepeats active (Repeats.record queued.node)) fun _ => Recorded G' :=
    recorded_adjustRepeats fun r records node now =>
      (Repeats.records_record now).elim (records node) fun played => .inr ⟨first, played⟩
  have kept : Keeps (Recorded G) (step active queued) fun next t =>
      t.Recorded G' ∧ ∀ node ∈ next.2, G node := by
    unfold step
    refine Keeps.when (@Passing.burn _ active passing_recorded _) ?_
    refine Keeps.when (recorded_adjustRepeats fun r records node now => records node now) ?_
    refine (recorded_performNode queued.node).bind fun next u a v before done => ?_
    obtain ⟨recorded, answers⟩ := before
    have recorded : u.Recorded G' := fun id node records => .inl (recorded id node records)
    cases first : queued.again with
    | true =>
      rw [first] at done
      cases done
      exact ⟨recorded, answers⟩
    | false =>
      rw [first] at done
      obtain ⟨_, w, played, done⟩ := Step.bind_ok done
      cases done
      exact ⟨record first recorded played, answers⟩
  exact kept recorded done

/-- What nodes of a score keep as they are performed: an invariant of sessions, and what is known of
nodes that are played again. -/
structure Succession (J : (active : Option TimelineId) → Session → Prop) (O : Node → Prop)
    (G : Session → Node → Prop) : Prop where
  step : ∀ {active active' queued again} {s t : Session}, J active s →
    (if queued.again then G s queued.node else O queued.node) →
    (step active queued).run s = .ok (active', again) t → J active' t
  lasts : ∀ {active active' queued again node} {s t : Session}, J active s →
    (if queued.again then G s queued.node else O queued.node) →
    (Session.step active queued).run s = .ok (active', again) t → G s node → G t node
  settles : ∀ {active active' queued again node} {s t : Session}, J active s → O queued.node →
    queued.again = false → queued.node.replay? = some node →
    (Session.step active queued).run s = .ok (active', again) t → G t node

/-- What is known of a configuration. -/
structure Config.Meets (J : (active : Option TimelineId) → Session → Prop) (O : Node → Prop)
    (G : Session → Node → Prop) (c : Config) : Prop where
  session : J c.active c.session
  queue : ∀ queued ∈ c.queue, if queued.again then G c.session queued.node else O queued.node
  recorded : c.session.Recorded (G c.session)

variable {J : (active : Option TimelineId) → Session → Prop} {O : Node → Prop}
  {H : Session → Node → Prop}

theorem Succession.rounds (succession : Succession J O H) {c c' : Config} (rounds : Rounds c c')
    (meets : c.Meets J O H) : c'.Meets J O H := by
  induction rounds with
  | refl => exact meets
  | tail _ round ih =>
    obtain @⟨active, active', queued, rest, again, s, t, done⟩ := round
    have known := ih.queue queued List.mem_cons_self
    have lasts {node : Node} : H s node → H t node := succession.lasts ih.session known done
    obtain ⟨recorded, answers⟩ := recorded_step queued ih.recorded done
    refine ⟨succession.step ih.session known done, fun other listed => ?_, fun id node records => ?_⟩
    · rcases List.mem_append.mp listed with new | old
      · obtain ⟨node, handed, rfl⟩ := List.mem_map.mp new
        exact lasts (answers node handed)
      · have before := ih.queue other (List.mem_cons_of_mem queued old)
        cases second : other.again with
        | true =>
          rw [second] at before
          exact lasts before
        | false =>
          rw [second] at before
          exact before
    · rcases recorded id node records with before | ⟨first, played⟩
      · exact lasts before
      · rw [first] at known
        exact succession.settles ih.session known first played done

/-- A run starts with nodes that have not been performed yet, and with nothing recorded. -/
theorem Config.Meets.start {gas : Nat} {score : List Node} (begins : J none { gas := ⟨gas⟩ })
    (nodes : ∀ node ∈ score, O node) : (Config.start gas score).Meets J O H where
  session := begins
  queue queued listed := by
    obtain ⟨node, found, rfl⟩ := List.mem_map.mp listed
    exact nodes node found
  recorded id node records := by
    rcases records with performed | ⟨c, opened, -⟩
    · exact absurd performed (Array.not_mem_empty node)
    · exact nomatch opened

end Session
end TextScore
