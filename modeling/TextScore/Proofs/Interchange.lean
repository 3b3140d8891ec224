import TextScore.Proofs.Unrolling

/-! Scores that may stand for each other, whatever comes before and after the part in which they
differ: a repeat and the same notes written out, with two endings or without. -/
namespace TextScore
variable {r r' : Repeats} {nodes : List Node}

theorem Repeats.alike_closed {exact : Prop} (closed : r.capture = none) (closed' : r'.capture = none)
    (lapsed : r.secondaAllowed = false) (lapsed' : r'.secondaAllowed = false)
    (performed : exact → r'.performed = r.performed) : r.Alike exact r' where
  capture := closed'.trans closed.symm
  seconda := lapsed'.trans lapsed.symm
  performed := performed
  replayed _ opened := nomatch closed.symm.trans opened

theorem Repeats.closed_passed (plain : ∀ node ∈ nodes, node.isPlain) (closed : r.capture = none) :
    (r.passed nodes).capture = none := by
  rw [capture_passed plain, closed, Option.map_none]

/-- Nodes that stand on a timeline, or begin one. -/
def Node.activates : Node → Bool
  | .global .. | .define .. | .declareEmoji .. => false
  | _ => true

/-- What does the same only as long as nothing but an open repeat is closed does so both ways. -/
theorem Repeats.Alike.flip (alike : r.Alike False r') : r'.Alike False r where
  capture := alike.capture.symm
  seconda := alike.seconda.symm
  performed none := none.elim
  replayed c opened := alike.replayed c (alike.capture.symm.trans opened)

/-- Repeats that agree in all are the same. -/
theorem Repeats.Alike.eq (alike : r.Alike True r') : r' = r := by
  obtain ⟨performed, capture, seconda⟩ := r
  obtain ⟨performed', capture', seconda'⟩ := r'
  cases alike.capture
  cases alike.seconda
  cases alike.performed trivial
  rfl

namespace Session
variable {k k' gas : Nat} {s s' : Session} {here : TimelineId} {pre post part part' : List Node}

theorem closesMatched_plain (plain : ∀ node ∈ nodes, node.isPlain) (opened : Nat)
    (rest : List Node) : ClosesMatched opened (nodes ++ rest) ↔ ClosesMatched opened rest := by
  apply closesMatched_replayed
  intro node listed
  rw [Node.replay?_plain (plain node listed)]
  rfl

/-- Where no repeat is open, one part gets a run to where another does. The second run has `k` more
gas before it and `k'` more after it. What both leave of the repeats does the same as long as only
an open repeat is closed. -/
def Swaps (k k' : Nat) (part part' : List Node) : Prop :=
  ∀ ⦃n : Nat⦄ ⦃r : TimelineId → Repeats⦄ ⦃here : TimelineId⦄ ⦃q : Repeats⦄,
    here < n → q.capture = none → ∃ q₁ q₁', q₁.Alike False q₁' ∧
      Passes here (fresh part) (fresh part') (Abreast k n r here q q) (Abreast k' n r here q₁ q₁')

/-- Nodes after which a channel is active, with any gas. -/
def LeavesActive (nodes : List Node) : Prop :=
  ∀ gas active s, Rounds (.start gas nodes) ⟨active, [], s⟩ → active ≠ none

theorem handover_active : Handover fun active _ => active ≠ none where
  aside held _ _ _ _ := held
  start _ _ := Option.some_ne_none _
  resume _ _ := Option.some_ne_none _
  repeats _ _ := Option.some_ne_none _
  item _ _ := Option.some_ne_none _

theorem performNode_activates {active : Option TimelineId} {node : Node}
    (activates : node.activates) :
    Keeps (fun _ => True) (performNode active node) fun next _ => next.1 ≠ none := by
  have any {α : Type} (p : Play α) : Keeps (fun _ => True) p fun _ _ => True :=
    fun _ _ _ _ _ => trivial
  have seated (here : TimelineId) (again : List Node) : Keeps (fun _ => True)
      (return (some here, again) : Play (Option TimelineId × List Node))
      fun next _ => next.1 ≠ none := .pure fun _ => Option.some_ne_none here
  cases node with
  | item =>
    exact (any _).bind fun here => Keeps.read fun _ => (any _).bind fun _ => seated here _
  | channel => exact (any _).bind fun _ => (any _).bind fun here => seated here _
  | repeatOpen => exact (any _).bind fun here => (any _).bind fun _ => seated here _
  | repeatClose =>
    exact (any _).bind fun here => Keeps.read fun _ => (any _).bind fun again => seated here again
  | volta => exact (any _).bind fun here => (any _).bind fun _ => seated here _
  | _ => exact nomatch activates

theorem step_activates {active : Option TimelineId} {queued : Queued}
    (activates : queued.node.activates) :
    Keeps (fun _ => True) (step active queued) fun next _ => next.1 ≠ none := by
  unfold step
  refine Keeps.when (fun _ _ _ _ _ => trivial) (Keeps.when (fun _ _ _ _ _ => trivial) ?_)
  refine (performNode_activates activates).bind fun next => ?_
  refine Keeps.when (fun _ _ _ active _ => active) (.pure id)

/-- A timeline is active, or a node to come makes one so. -/
def Config.Seated (c : Config) : Prop :=
  c.active ≠ none ∨ ∃ queued ∈ c.queue, queued.node.activates = true

theorem Config.Seated.rounds {c c' : Config} (seated : c.Seated) (rounds : Rounds c c') :
    c'.Seated := by
  induction rounds with
  | refl => exact seated
  | tail _ round ih =>
    obtain @⟨_, _, queued, rest, again, _, _, done⟩ := round
    rcases ih with active | ⟨next, member, activates⟩
    · exact .inl (handover_active.step queued active done)
    · rcases List.mem_cons.mp member with rfl | member
      · exact .inl (step_activates activates trivial done)
      · exact .inr ⟨next, List.mem_append_right _ member, activates⟩

/-- A node that stands on a timeline leaves one active, and no node takes it away. -/
theorem leavesActive_of_mem {node : Node} (listed : node ∈ nodes) (activates : node.activates) :
    LeavesActive nodes := by
  intro gas last t rounds
  have start : (Config.start gas nodes).Seated :=
    .inr ⟨_, List.mem_map_of_mem listed, activates⟩
  rcases start.rounds rounds with active | ⟨_, member, -⟩
  · exact active
  · exact nomatch member

/-- A repeat that is open before nodes that do not close it keeps a run from ending, so none is. -/
theorem closed_of_ends {queue : List Queued} {u : Session}
    (ends : Config.Ends ⟨some here, queue, s⟩ u) (held : Held (fun _ => True) (some here) s)
    (coupled : Mates k 0 True (some here) false s s')
    (matched : ClosesMatched 0 (queue.map Queued.node)) : (s.arena.repeats here).capture = none := by
  cases opened : (s.arena.repeats here).capture with
  | none => rfl
  | some c =>
    have yes : (s.arena.repeats here).capture.isSome := by
      rw [opened]
      rfl
    have mates : Mates k 0 True (some here) true s s' :=
      ⟨coupled.twin, coupled.size, coupled.alike, fun _ => ⟨here, rfl, yes⟩⟩
    exact (not_ends_of_opened ends held mates matched).elim

/-- What agrees on all timelines but one, and there as long as only an open repeat is closed. -/
theorem Mates.of_abreast {n : Nat} {r : TimelineId → Repeats} {q q' : Repeats}
    (coupled : Mates k 0 True (some here) false s s') (same : r = s.arena.repeats)
    (alike : q.Alike False q') {t t' : Session} (abreast : Abreast k' n r here q q' t t') :
    Mates k' 0 False (some here) false t t' := by
  obtain ⟨twin, left, right, -⟩ := abreast
  refine ⟨twin, Nat.zero_le _, fun id => ?_, fun none => nomatch none⟩
  rw [left, right, Function.update_apply, Function.update_apply, same]
  split
  · exact alike
  · exact ⟨rfl, rfl, fun _ => rfl, (coupled.alike id).replayed⟩

theorem Swaps.plays (swaps : Swaps k k' part part') (active : LeavesActive pre)
    (unmatched : ClosesMatched 0 (part ++ post)) (matched : ClosesMatched 0 post)
    (plays : Plays (pre ++ part ++ post) gas s) :
    ∃ s', Plays (pre ++ part' ++ post) (gas + k) s' ∧ s.Twin k' s' := by
  have start (gas : Nat) (part : List Node) : Config.start gas (pre ++ part ++ post) =
      ⟨none, fresh pre ++ (fresh part ++ fresh post), { gas := ⟨gas⟩ }⟩ := by
    simp only [Config.start, fresh, List.map_append, List.append_assoc]
  have nodes (part : List Node) : (fresh part).map Queued.node = part := by
    simp only [fresh, List.map_map, Function.comp_def, List.map_id']
  have ends := plays_iff.mp plays
  obtain ⟨last, path, -⟩ := plays_iff.mp plays
  -- Before the part the two runs differ in gas only.
  obtain ⟨active', capturing, t, t', first, second, held, coupled, -⟩ :=
    Mates.rounds path rfl (start gas part) (held_start trivial gas [])
      (twin_start gas k []) (.inl trivial)
  have reached : Rounds (.start gas pre) ⟨active', [], t⟩ := by
    have reached := first []
    rwa [List.append_nil] at reached
  obtain ⟨here, rfl⟩ := Option.ne_none_iff_exists'.mp (active gas active' t reached)
  have coupled : Mates k 0 True (some here) false t t' :=
    ⟨coupled.twin, coupled.size, coupled.alike, fun none => absurd none Bool.false_ne_true⟩
  rw [start] at ends
  have ends := ends.through (first _)
  have closed : (t.arena.repeats here).capture = none := by
    apply closed_of_ends ends held coupled
    rwa [List.map_append, nodes, nodes]
  have same : t'.arena.repeats = t.arena.repeats := funext fun id => (coupled.alike id).eq
  have abreast : Abreast k t.arena.timelines.size t.arena.repeats here (t.arena.repeats here)
      (t.arena.repeats here) t t' := by
    unfold Abreast
    rw [Function.update_eq_self]
    exact ⟨coupled.twin, rfl, same, Nat.le_refl _⟩
  obtain ⟨q₁, q₁', alike, passes⟩ := swaps (held.inside here rfl) closed
  obtain ⟨v, v', through, through', abreast⟩ := passes abreast ends
  -- After it what is left of the repeats does not tell them apart.
  have held : Held (fun _ => True) (some here) v := (handover_held lasts_true).rounds through held
  obtain ⟨s', ends', twin⟩ := (ends.through through).mates held
    (coupled.of_abreast rfl alike abreast) (.inr (by rwa [nodes]))
  refine ⟨s', plays_iff.mpr ?_, twin⟩
  rw [start]
  exact (ends'.after (through' _)).after (second _)

/-- One score plays to its end with enough gas if and only if the other does, and then they sound
the same and highlight the same. -/
structure Interchangeable (score score' : List Node) : Prop where
  plays : (∃ gas s, Plays score gas s) ↔ ∃ gas s, Plays score' gas s
  same : ∀ gas s gas' s', Plays score gas s → Plays score' gas' s' →
    Track.ofSession s = Track.ofSession s' ∧
    Highlight.ofArena s.arena s.conductor = Highlight.ofArena s'.arena s'.conductor

/-- Two scores that both play with some gas. -/
theorem Interchangeable.sounds {score score' : List Node} (alike : Interchangeable score score')
    (first : (run score).run' { gas := ⟨gas⟩ } = some ())
    (second : (run score').run' { gas := ⟨gas⟩ } = some ()) :
    ∃ s s', Plays score gas s ∧ Plays score' gas s' ∧ Track.ofSession s = Track.ofSession s' := by
  obtain ⟨s, plays⟩ := Step.exists_of_run' first
  obtain ⟨s', plays'⟩ := Step.exists_of_run' second
  exact ⟨s, s', plays, plays', (alike.same gas s gas s' plays plays').1⟩

theorem interchangeable_of_twins {score score' : List Node} {more more' : Nat}
    (there : ∀ gas s, Plays score gas s → ∃ s', Plays score' (gas + more) s' ∧ s.Twin k s')
    (back : ∀ gas s, Plays score' gas s → ∃ s', Plays score (gas + more') s' ∧ s.Twin k' s') :
    Interchangeable score score' := by
  constructor
  · constructor
    · rintro ⟨gas, s, plays⟩
      obtain ⟨s', plays', -⟩ := there gas s plays
      exact ⟨_, s', plays'⟩
    · rintro ⟨gas, s, plays⟩
      obtain ⟨s', plays', -⟩ := back gas s plays
      exact ⟨_, s', plays'⟩
  · intro gas s gas' s' plays plays'
    obtain ⟨t, beside, twin⟩ := there gas s plays
    -- The same gas for both runs of the second score.
    obtain ⟨u, richer, above⟩ := beside.richer gas'
    obtain ⟨u', richer', above'⟩ := plays'.richer (gas + more)
    rw [Nat.add_comm] at richer'
    have one : u' = u := by
      have both := richer'.symm.trans richer
      cases both
      rfl
    subst one
    constructor
    · rw [← twin.tracks, ← above.tracks, above'.tracks]
    · rw [← twin.highlights, ← above.highlights, above'.highlights]

section Parts
variable {opening ending closing further : Nat} {count : Option Nat}
  {first prima second : List Node}

theorem swaps_repeated (nonempty : part ≠ []) (plain : ∀ node ∈ part, node.isPlain)
    (often : 1 ≤ count.getD 2) :
    Swaps 0 2 (.repeatOpen opening :: part ++ [.repeatClose closing count])
      (part ++ Repeats.copies (count.getD 2 - 1) (part.map Node.refer)) := by
  intro n r here q inside closed
  have copied := Repeats.plain_copies (Repeats.plain_refer plain) (count.getD 2 - 1)
  have lapsed := Repeats.secondaAllowed_passed (r := q) (.inl nonempty)
  refine ⟨_, _, ?_, passes_repeated plain inside closed (Nat.ne_of_gt often)⟩
  exact Repeats.alike_closed rfl
    (Repeats.closed_passed copied (Repeats.closed_passed plain closed)) rfl
    (Repeats.secondaAllowed_passed (.inr lapsed)) fun none => none.elim

theorem swaps_written (nonempty : part ≠ []) (plain : ∀ node ∈ part, node.isPlain)
    (often : 1 ≤ count.getD 2) (enough : (count.getD 2 - 1) * part.length < k) :
    Swaps (k + 2) k (part ++ Repeats.copies (count.getD 2 - 1) (part.map Node.refer))
      (.repeatOpen opening :: part ++ [.repeatClose closing count]) := by
  intro n r here q inside closed
  have copied := Repeats.plain_copies (Repeats.plain_refer plain) (count.getD 2 - 1)
  have lapsed := Repeats.secondaAllowed_passed (r := q) (.inl nonempty)
  refine ⟨_, _, ?_, passes_written plain inside closed (Nat.ne_of_gt often)
    (Nat.lt_of_le_of_lt (Nat.zero_le _) enough) enough⟩
  exact Repeats.alike_closed (Repeats.closed_passed copied (Repeats.closed_passed plain closed))
    rfl (Repeats.secondaAllowed_passed (.inr lapsed)) rfl fun none => none.elim

/-- What both parts leave where the first one has had two endings. -/
theorem alike_endings (nonempty : first ≠ []) (plainFirst : ∀ node ∈ first, node.isPlain)
    (plainPrima : ∀ node ∈ prima, node.isPlain) (plainSecond : ∀ node ∈ second, node.isPlain)
    {q : Repeats} (closed : q.capture = none) :
    (Repeats.passed second ⟨#[], none, false⟩).Alike False
      ((((q.passed first).passed prima).passed (first.map Node.refer)).passed second) := by
  have referred := Repeats.plain_refer plainFirst
  have still := Repeats.closed_passed plainSecond (Repeats.closed_passed referred
    (Repeats.closed_passed plainPrima (Repeats.closed_passed plainFirst closed)))
  have lapses {r : Repeats} (lapsed : r.secondaAllowed = false) (nodes : List Node) :
      (r.passed nodes).secondaAllowed = false := Repeats.secondaAllowed_passed (.inr lapsed)
  have lapsed : (q.passed first).secondaAllowed = false := Repeats.secondaAllowed_passed (.inl nonempty)
  exact Repeats.alike_closed (Repeats.closed_passed plainSecond rfl) still (lapses rfl second)
    (lapses (lapses (lapses lapsed prima) (first.map Node.refer)) second) fun none => none.elim

theorem swaps_endings (nonempty : first ≠ []) (plainFirst : ∀ node ∈ first, node.isPlain)
    (plainPrima : ∀ node ∈ prima, node.isPlain) (plainSecond : ∀ node ∈ second, node.isPlain)
    (twice : count.getD 2 = 2) :
    Swaps 0 4 (.repeatOpen opening :: first ++ .volta ending .prima :: prima ++
        .repeatClose closing count :: .volta further .seconda :: second)
      (first ++ prima ++ first.map Node.refer ++ second) := by
  intro n r here q inside closed
  obtain ⟨q₁, q₂, steered⟩ :=
    exists_steered plainFirst plainPrima closed twice opening ending closing further
  exact ⟨_, _, alike_endings nonempty plainFirst plainPrima plainSecond closed,
    passes_endings plainFirst plainPrima plainSecond inside steered⟩

theorem swaps_written_endings (nonempty : first ≠ []) (plainFirst : ∀ node ∈ first, node.isPlain)
    (plainPrima : ∀ node ∈ prima, node.isPlain) (plainSecond : ∀ node ∈ second, node.isPlain)
    (twice : count.getD 2 = 2) :
    Swaps 5 1 (first ++ prima ++ first.map Node.refer ++ second)
      (.repeatOpen opening :: first ++ .volta ending .prima :: prima ++
        .repeatClose closing count :: .volta further .seconda :: second) := by
  intro n r here q inside closed
  obtain ⟨q₁, q₂, steered⟩ :=
    exists_steered plainFirst plainPrima closed twice opening ending closing further
  exact ⟨_, _, (alike_endings nonempty plainFirst plainPrima plainSecond closed).flip,
    passes_written_endings plainFirst plainPrima plainSecond inside steered (Nat.le_refl 1)⟩

theorem closesMatched_repeated (plain : ∀ node ∈ part, node.isPlain)
    (matched : ClosesMatched 0 post) :
    ClosesMatched 0 (.repeatOpen opening :: part ++ [.repeatClose closing count] ++ post) := by
  rw [List.append_assoc, List.cons_append, List.singleton_append]
  exact (closesMatched_plain plain 1 _).mpr matched

theorem closesMatched_endings (plainFirst : ∀ node ∈ first, node.isPlain)
    (plainPrima : ∀ node ∈ prima, node.isPlain) (plainSecond : ∀ node ∈ second, node.isPlain)
    (matched : ClosesMatched 0 post) :
    ClosesMatched 0 (.repeatOpen opening :: first ++ .volta ending .prima :: prima ++
      .repeatClose closing count :: .volta further .seconda :: second ++ post) := by
  simp only [List.append_assoc, List.cons_append]
  apply (closesMatched_plain plainFirst 1 _).mpr
  apply (closesMatched_plain plainPrima 1 _).mpr
  exact (closesMatched_plain plainSecond 0 _).mpr matched

theorem interchangeable_repeated (active : LeavesActive pre) (matched : ClosesMatched 0 post)
    (nonempty : part ≠ []) (plain : ∀ node ∈ part, node.isPlain) (often : 1 ≤ count.getD 2) :
    Interchangeable (pre ++ (.repeatOpen opening :: part ++ [.repeatClose closing count]) ++ post)
      (pre ++ (part ++ Repeats.copies (count.getD 2 - 1) (part.map Node.refer)) ++ post) := by
  have copied := Repeats.plain_copies (Repeats.plain_refer plain) (count.getD 2 - 1)
  have written : ClosesMatched 0
      (part ++ Repeats.copies (count.getD 2 - 1) (part.map Node.refer) ++ post) := by
    rw [List.append_assoc]
    exact (closesMatched_plain plain 0 _).mpr ((closesMatched_plain copied 0 _).mpr matched)
  apply interchangeable_of_twins
  · intro gas s plays
    exact (swaps_repeated nonempty plain often).plays active (closesMatched_repeated plain matched)
      matched plays
  · intro gas s plays
    exact (swaps_written nonempty plain often (Nat.lt_succ_self _)).plays active written matched plays

theorem interchangeable_endings (active : LeavesActive pre) (matched : ClosesMatched 0 post)
    (nonempty : first ≠ []) (plainFirst : ∀ node ∈ first, node.isPlain)
    (plainPrima : ∀ node ∈ prima, node.isPlain) (plainSecond : ∀ node ∈ second, node.isPlain)
    (twice : count.getD 2 = 2) :
    Interchangeable
      (pre ++ (.repeatOpen opening :: first ++ .volta ending .prima :: prima ++
        .repeatClose closing count :: .volta further .seconda :: second) ++ post)
      (pre ++ (first ++ prima ++ first.map Node.refer ++ second) ++ post) := by
  have written : ClosesMatched 0 (first ++ prima ++ first.map Node.refer ++ second ++ post) := by
    simp only [List.append_assoc]
    apply (closesMatched_plain plainFirst 0 _).mpr
    apply (closesMatched_plain plainPrima 0 _).mpr
    apply (closesMatched_plain (Repeats.plain_refer plainFirst) 0 _).mpr
    exact (closesMatched_plain plainSecond 0 _).mpr matched
  apply interchangeable_of_twins
  · intro gas s plays
    exact (swaps_endings nonempty plainFirst plainPrima plainSecond twice).plays active
      (closesMatched_endings plainFirst plainPrima plainSecond matched) matched plays
  · intro gas s plays
    exact (swaps_written_endings nonempty plainFirst plainPrima plainSecond twice).plays active
      written matched plays

end Parts

/-- Repeats equal their unrolling. Groups that the repeated part declares are referred to in the
passes after the first; of a part with two endings, the first is left out of the second pass. -/
theorem repeats_unrolled (active : LeavesActive pre) (matched : ClosesMatched 0 post) :
    (∀ part opening closing count, part ≠ [] → (∀ node ∈ part, node.isPlain) → 1 ≤ count.getD 2 →
      Interchangeable (pre ++ (.repeatOpen opening :: part ++ [.repeatClose closing count]) ++ post)
        (pre ++ (part ++ (List.replicate (count.getD 2 - 1) (part.map Node.refer)).flatten) ++
          post)) ∧
    (∀ first prima second opening ending closing further count, first ≠ [] →
      (∀ node ∈ first ++ prima ++ second, node.isPlain) → count.getD 2 = 2 →
      Interchangeable
        (pre ++ (.repeatOpen opening :: first ++ .volta ending .prima :: prima ++
          .repeatClose closing count :: .volta further .seconda :: second) ++ post)
        (pre ++ (first ++ prima ++ first.map Node.refer ++ second) ++ post)) := by
  constructor
  · intro part opening closing count nonempty plain often
    rw [← Repeats.copies_eq]
    exact interchangeable_repeated active matched nonempty plain often
  · intro first prima second opening ending closing further count nonempty plain twice
    simp only [List.forall_mem_append] at plain
    obtain ⟨⟨plainFirst, plainPrima⟩, plainSecond⟩ := plain
    exact interchangeable_endings active matched nonempty plainFirst plainPrima plainSecond twice

/-- A group and a tempo, three times and written out; a key with two endings and written out. -/
theorem repeats_unrolled_of_group : (∃ s s',
    Plays [.channel 0 1 false, .repeatOpen 3, .item (.group 5 1 [.key ⟨6, .pitchClass 0, 0, 0⟩]),
      .global 9 "bpm" "90", .repeatClose 17 (some 3), .item (.rest 19)] 30 s ∧
    Plays [.channel 0 1 false, .item (.group 5 1 [.key ⟨6, .pitchClass 0, 0, 0⟩]),
      .global 9 "bpm" "90", .item (.groupRef 5 1), .global 9 "bpm" "90", .item (.groupRef 5 1),
      .global 9 "bpm" "90", .item (.rest 19)] 30 s' ∧
    Track.ofSession s = Track.ofSession s') ∧ ∃ s s',
    Plays [.channel 0 1 false, .repeatOpen 3, .item (.key ⟨5, .pitchClass 0, 0, 0⟩),
      .volta 6 .prima, .item (.rest 8), .repeatClose 9 none, .volta 11 .seconda,
      .item (.tie 13), .item (.rest 14)] 30 s ∧
    Plays [.channel 0 1 false, .item (.key ⟨5, .pitchClass 0, 0, 0⟩), .item (.rest 8),
      .item (.key ⟨5, .pitchClass 0, 0, 0⟩), .item (.tie 13), .item (.rest 14)] 30 s' ∧
    Track.ofSession s = Track.ofSession s' := by
  have active : LeavesActive [.channel 0 1 false] := leavesActive_of_mem List.mem_cons_self rfl
  have matched (offset : Nat) : ClosesMatched 0 [.item (.rest offset)] := trivial
  constructor
  · exact ((repeats_unrolled active (matched 19)).1
      [.item (.group 5 1 [.key ⟨6, .pitchClass 0, 0, 0⟩]), .global 9 "bpm" "90"] 3 17 (some 3)
      (by simp) (by simp [Node.isPlain]) (by decide)).sounds (by decide +kernel) (by decide +kernel)
  · exact ((repeats_unrolled active (matched 14)).2
      [.item (.key ⟨5, .pitchClass 0, 0, 0⟩)] [.item (.rest 8)] [.item (.tie 13)] 3 6 9 11 none
      (by simp) (by simp [Node.isPlain]) rfl).sounds (by decide +kernel) (by decide +kernel)

end Session
end TextScore
