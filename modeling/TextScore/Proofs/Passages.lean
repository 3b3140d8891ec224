import TextScore.Proofs.Branches
import TextScore.Proofs.Domains

/-! Parallel passages. The children of a passage begin where its timeline stood when it was claimed,
and with its playing state; the first branch, played meanwhile, gets to none of them. Each of the other
branches touches its own child and what is below it, so all branches are in step in the end, and
nothing outside the passage has moved. -/
namespace TextScore

namespace Session
open Arena (Forest Domain Confined)
open Step (Follows)
open Scene
variable {here child : TimelineId} {s t u : Session} {γ : Fence} {ticks depth references : Nat}
  {roots : List TimelineId} {children : List TimelineId} {entry : Timeline}

/-- Performing items moves the cursor of their timeline by the ticks that are answered. -/
theorem cursor_all (forest : ∃ roots, Forest roots s.arena) (inside : here < s.arena.timelines.size)
    {items : List Item}
    (done : (performAll (perform depth) here references items).run s = .ok ticks t) :
    (t.arena.timeline here).position = (s.arena.timeline here).position + ticks := by
  let γ : Watch := ⟨(s.arena.timeline here).position, fun id => (s.arena.timeline id).position,
    s.arena.timelines.size⟩
  have watched : s.Watched here γ := ⟨forest, inside, rfl, fun _ _ => rfl, Nat.le_refl _⟩
  have follows : Follows Eq (watching here here γ) _ _ _ :=
    Ensemble.follows_all (duet_watching.follows_perform depth) references items
  obtain ⟨_, -, -, rfl, after⟩ := follows.ok ⟨rfl, rfl, watched⟩ done
  exact after.cursor

/-- The children of a passage have been claimed for it, and none of its branches has begun. -/
structure Assembled (here : TimelineId) (γ : Fence) (count : Nat) (entry : Timeline)
    (children : List TimelineId) (s : Session) : Prop where
  presides : s.Presides here γ (γ.floor here + count) children
  own : (s.arena.timeline here).Alike entry
  slots : ∀ {j child}, children[j]? = some child →
    (s.arena.timeline here).children[γ.floor here + j]? = some child
  ready : ∀ child ∈ children, (s.arena.timeline child).Alike entry

namespace Assembled
variable {count : Nat}

theorem claim {offset : Nat} (assembled : s.Assembled here γ count entry children)
    (done : (onArena (Arena.childAt here offset (.branch (γ.floor here + children.length)))).run s =
      .ok child t) : t.Assembled here γ count entry (children ++ [child]) := by
  have presides := assembled.presides.claim (Nat.le_add_right ..) done
  obtain ⟨arena, ran, rfl⟩ := onArena_ok done
  obtain ⟨roots, forest⟩ := assembled.presides.forest
  have inside := assembled.presides.inside
  obtain ⟨confined, found⟩ := Confined.claim forest inside
    (show γ.floor here ≤ _ from Nat.le_add_right ..) ran
  obtain ⟨-, younger, present, -⟩ := Arena.claimed_branch forest inside ran
  obtain ⟨new, others⟩ := Arena.alike_claimed inside present ran
  refine ⟨presides, (others here (Nat.ne_of_lt younger)).trans assembled.own, fun {j id} listed => ?_,
    fun id listed => ?_⟩
  · rw [List.getElem?_append] at listed
    split at listed
    · exact confined.children (assembled.slots listed)
    · next beyond =>
      obtain ⟨low, last⟩ := List.getElem?_eq_some_iff.mp listed
      have first : j = children.length := by
        simp only [List.length_singleton] at low
        omega
      subst first
      simp only [Nat.sub_self, List.getElem_singleton] at last
      exact last ▸ found
  · by_cases again : id = child
    · exact again ▸ new.trans assembled.own
    · have listed := (List.mem_append.mp listed).resolve_right (mt List.mem_singleton.mp again)
      exact (others id again).trans (assembled.ready id listed)

theorem claims {offset left : Nat} {ids : List TimelineId}
    (assembled : s.Assembled here γ count entry children)
    (done : ((List.range' children.length left).mapM fun i =>
      onArena (Arena.childAt here offset (.branch (γ.floor here + i)))).run s = .ok ids t) :
    t.Assembled here γ count entry (children ++ ids) ∧ ids.length = left := by
  induction left generalizing s children ids with
  | zero =>
    cases done
    exact ⟨(List.append_nil children).symm ▸ assembled, rfl⟩
  | succ left ih =>
    rw [List.range'_succ, List.mapM_cons] at done
    obtain ⟨child, middle, one, done⟩ := Step.bind_ok done
    obtain ⟨rest, last, done, ended⟩ := Step.bind_ok done
    cases ended
    have next := assembled.claim one
    rw [← List.length_singleton (a := child), ← List.length_append] at done
    obtain ⟨after, all⟩ := ih next done
    rw [List.append_assoc] at after
    exact ⟨after, congrArg (· + 1) all⟩

theorem nodup (assembled : s.Assembled here γ count entry children) : children.Nodup := by
  obtain ⟨roots, forest⟩ := assembled.presides.forest
  rw [List.nodup_iff_getElem?_ne_getElem?]
  intro i j less last same
  have found : children[j]? = some children[j] := List.getElem?_eq_getElem last
  have places := (forest.parent_unique (assembled.slots found) (assembled.slots (same.trans found))).2
  omega

/-- What is played while the children wait does not get to them. -/
theorem apart (assembled : s.Assembled here γ count entry children) (few : children.length = count)
    (member : child ∈ children) :
    child < s.arena.timelines.size ∧
      ¬ s.arena.Domain (γ.raised here count s.arena).floor here child := by
  obtain ⟨roots, forest⟩ := assembled.presides.forest
  obtain ⟨j, listed⟩ := List.mem_iff_getElem?.mp member
  have found := assembled.slots listed
  have owned := Array.mem_of_getElem? found
  refine ⟨forest.lt_size (List.mem_append_left _ (List.mem_append_right roots (Arena.child_listed owned))),
    fun domain => ?_⟩
  rcases domain.through_parent forest found with own | ⟨-, active⟩
  · exact Nat.ne_of_lt (forest.younger here child (.inl owned)) own
  · have low := (List.getElem?_eq_some_iff.mp listed).1
    simp only [Fence.raised, reduceIte] at active
    omega

end Assembled

/-- The definitions and the length of fermatas, which branches but the first one keep to themselves. -/
def branchScope (s : Session) : Definitions × Binary64 := (s.definitions, s.fermata)

/-- A passage reserves slots and claims its children. -/
theorem claimBranches_ok {offset count base : Nat} (fenced : s.Fenced here γ)
    (done : (claimBranches here offset count).run s = .ok (base, children) t) :
    base = γ.floor here ∧ children.length = count ∧
      t.Assembled here γ count (s.arena.timeline here) children := by
  obtain ⟨_, u, reserved, done⟩ := Step.bind_ok done
  obtain ⟨_, v, mapped, ended⟩ := Step.bind_ok done
  cases ended
  obtain ⟨rfl, presides, rfl⟩ := fenced.reserve reserved
  have assembled : Assembled here γ count (s.arena.timeline here) []
      { s with arena := s.arena.adjust here fun t => (t.reserve count).2 } := by
    refine ⟨presides, ?_, nofun, nofun⟩
    rw [Arena.timeline_adjust_self _ _ _ fenced.inside]
    exact ⟨rfl, rfl, rfl⟩
  rw [List.range_eq_range'] at mapped
  obtain ⟨claimed, few⟩ := assembled.claims mapped
  exact ⟨rfl, few, claimed⟩

/-- The first branch leaves the children where they are, and its timeline with its slots. -/
theorem Assembled.lead {count : Nat} (assembled : s.Assembled here γ count entry children)
    (few : children.length = count) {body : List Item}
    (done : (performAll (perform depth) here references body).run s = .ok ticks t) :
    t.Presides here γ (γ.floor here + count) children ∧
      (t.arena.timeline here).position = entry.position + ticks ∧
      ∀ child ∈ children, t.arena.timeline child = s.arena.timeline child := by
  have presides := assembled.presides
  have fenced := fenced_all presides.raise done
  refine ⟨presides.first fenced, ?_, fun child member => ?_⟩
  · rw [cursor_all presides.forest presides.inside done, assembled.own.position]
  · obtain ⟨present, outside⟩ := assembled.apart few member
    exact fenced.confined.still child present outside

/-- What is performed on a child leaves its parent and its siblings alone. -/
theorem Presides.siblings (presides : s.Presides here γ (γ.floor here) children)
    (member : child ∈ children) (fenced : t.Fenced child { γ with past := s.arena }) :
    t.arena.timeline here = s.arena.timeline here ∧
      ∀ other ∈ children, other ≠ child → t.arena.timeline other = s.arena.timeline other := by
  obtain ⟨roots, forest⟩ := presides.forest
  obtain ⟨i, -, found⟩ := presides.held child member
  have younger := forest.younger here child (.inl (Array.mem_of_getElem? found))
  refine ⟨fenced.confined.still here presides.inside fun domain => ?_, fun other listed different => ?_⟩
  · exact Nat.not_le_of_lt younger (domain.older forest)
  · obtain ⟨j, -, held⟩ := presides.held other listed
    have present := forest.lt_size (List.mem_append_left _ (List.mem_append_right roots
      (Arena.child_listed (Array.mem_of_getElem? held))))
    refine fenced.confined.still other present fun domain => ?_
    rcases domain.through_parent forest held with own | ⟨back, -⟩
    · exact different own.symm
    · exact Nat.not_le_of_lt younger (back.older forest)

/-- A branch was played on a child of a passage, from where the child began, and lasted so long. -/
structure Branched (depth references ticks : Nat) (begun ended : Arena) (registry : Definitions × Binary64)
    (branch : TimelineId × List Item) (s t : Session) : Prop where
  performed : (performAll (perform depth) branch.1 references branch.2).run s = .ok ticks t
  begins : s.arena.timeline branch.1 = begun.timeline branch.1
  registry : s.branchScope = registry
  cursor : (t.arena.timeline branch.1).position = (s.arena.timeline branch.1).position + ticks
  ends : ended.timeline branch.1 = t.arena.timeline branch.1

/-- The other branches are played one after the other. -/
theorem Presides.others {offset expected : Nat} {branches : List (TimelineId × List Item)}
    (presides : s.Presides here γ (γ.floor here) children)
    (members : ∀ branch ∈ branches, branch.1 ∈ children) (nodup : (branches.map Prod.fst).Nodup)
    (done : (branches.forM (performBranch (perform depth) references offset expected)).run s =
      .ok ⟨⟩ t) :
    t.Presides here γ (γ.floor here) children ∧ t.branchScope = s.branchScope ∧
      t.arena.timeline here = s.arena.timeline here ∧
      (∀ child ∈ children, child ∉ branches.map Prod.fst →
        t.arena.timeline child = s.arena.timeline child) ∧
      ∀ branch ∈ branches, ∃ u v,
        Branched depth references expected s.arena t.arena s.branchScope branch u v := by
  induction branches generalizing s with
  | nil =>
    cases done
    exact ⟨presides, rfl, rfl, fun _ _ _ => rfl, nofun⟩
  | cons branch branches ih =>
    obtain ⟨⟨⟩, middle, one, done⟩ := Step.bind_ok done
    obtain ⟨_, _, read, one⟩ := Step.bind_ok one
    cases read
    obtain ⟨answered, v, performed, one⟩ := Step.bind_ok one
    obtain ⟨_, _, restored, one⟩ := Step.bind_ok one
    cases restored
    obtain ⟨same, one⟩ := Step.unless_ok one
    cases one
    obtain rfl := Decidable.not_not.mp same
    obtain ⟨member, members⟩ := List.forall_mem_cons.mp members
    obtain ⟨once, nodup⟩ := List.nodup_cons.mp nodup
    have entered := presides.enter member
    have cursor := cursor_all entered.forest entered.inside performed
    have fenced : Fenced branch.1 { γ with past := s.arena }
        { v with definitions := s.definitions, fermata := s.fermata } :=
      (fenced_all entered performed).silent rfl
    obtain ⟨own, siblings⟩ := presides.siblings member fenced
    obtain ⟨after, registry, kept, untouched, played⟩ :=
      ih (presides.other member fenced) members nodup done
    refine ⟨after, registry, kept.trans own, fun child listed others => ?_,
      List.forall_mem_cons.mpr ⟨⟨s, v, performed, rfl, rfl, cursor, untouched _ member once⟩, fun b listed => ?_⟩⟩
    · obtain ⟨different, others⟩ := not_or.mp (mt List.mem_cons.mpr others)
      exact (untouched child listed others).trans (siblings child listed different)
    · obtain ⟨u, w, branched⟩ := played b listed
      have other : b.1 ≠ branch.1 := fun same => once (same ▸ List.mem_map_of_mem listed)
      exact ⟨u, w, branched.performed,
        branched.begins.trans (siblings _ (members b listed) other), branched.registry, branched.cursor,
        branched.ends⟩

/-- A passage was played: where its children had been claimed, where its first branch ended, and where
it ended itself. -/
structure Paralleled (depth : Nat) (here : TimelineId) (references offset : Nat) (branch : List Item)
    (branches : List (List Item)) (ticks : Nat) (s assembled led t : Session)
    (children : List TimelineId) : Prop where
  claimed : (claimBranches here offset branches.length).run s =
    .ok ((s.arena.timeline here).branchBase, children) assembled
  all : children.length = branches.length
  /-- The children begin with the cursor, the playing state and the tuplet that the timeline had. -/
  begun : ∀ child ∈ children, (assembled.arena.timeline child).Alike (s.arena.timeline here)
  lead : (performAll (perform depth) here references branch).run assembled = .ok ticks led
  /-- Every other branch takes as long, and begins with what its child had and what the first branch
  left defined. -/
  others : ∀ branch ∈ children.zip branches, ∃ u v,
    Branched depth references ticks assembled.arena t.arena led.branchScope branch u v
  cursors : ∀ id ∈ here :: children,
    (t.arena.timeline id).position = (s.arena.timeline here).position + ticks
  registry : t.branchScope = led.branchScope
  own : t.arena.timeline here =
    { led.arena.timeline here with branchBase := (s.arena.timeline here).branchBase }
  outside : ∀ id < s.arena.timelines.size, ¬ s.arena.Subtree here id →
    t.arena.timeline id = s.arena.timeline id

theorem paralleled (forest : ∃ roots, Forest roots s.arena) (inside : here < s.arena.timelines.size)
    {offset : Nat} {branch : List Item} {branches : List (List Item)}
    (done : (performParallel (perform depth) here references offset (branch :: branches)).run s =
      .ok ticks t) : ∃ children assembled led,
        Paralleled depth here references offset branch branches ticks s assembled led t children := by
  let γ : Fence := ⟨fun id => (s.arena.timeline id).branchBase, s.arena⟩
  have fenced : s.Fenced here γ := ⟨forest, inside, .refl .., fun _ => rfl⟩
  obtain ⟨base, u, reserved, done⟩ := Step.bind_ok done
  obtain ⟨children, assembled, mapped, done⟩ := Step.bind_ok done
  have claimed : (claimBranches here offset branches.length).run s = .ok (base, children) assembled := by
    simp only [claimBranches, EStateM.run_bind, reserved, mapped]
    rfl
  obtain ⟨rfl, few, ready⟩ := claimBranches_ok fenced claimed
  obtain ⟨expected, led, lead, done⟩ := Step.bind_ok done
  obtain ⟨after, cursor, waited⟩ := ready.lead few lead
  obtain ⟨⟨⟩, released, release, done⟩ := Step.bind_ok done
  cases release
  obtain ⟨⟨⟩, last, others, ended⟩ := Step.bind_ok done
  cases ended
  have presides := after.settle (f := Timeline.release (γ.floor here)) (fun _ => ⟨rfl, rfl⟩) rfl
  have zipped : (children.zip branches).map Prod.fst = children := List.map_fst_zip (Nat.le_of_eq few)
  obtain ⟨final, registry, own, -, played⟩ := presides.others
    (fun _ listed => (List.of_mem_zip listed).1) (zipped.symm ▸ ready.nodup) others
  have younger (child : TimelineId) (member : child ∈ children) : here ≠ child := by
    obtain ⟨i, -, found⟩ := after.held child member
    obtain ⟨roots, forest⟩ := after.forest
    exact Nat.ne_of_lt (forest.younger here child (.inl (Array.mem_of_getElem? found)))
  have waiting (child : TimelineId) (member : child ∈ children) :
      (led.arena.adjust here (Timeline.release (γ.floor here))).timeline child =
        assembled.arena.timeline child :=
    (Arena.timeline_adjust_ne _ _ (younger child member)).trans (waited child member)
  have own := own.trans (Arena.timeline_adjust_self here _ _ after.inside)
  refine ⟨children, assembled, led, claimed, few, ready.ready, lead, fun branch listed => ?_, fun id listed => ?_,
    registry, own, fun id present outside => final.confined.still id present (mt Domain.subtree outside)⟩
  · obtain ⟨u, v, branched⟩ := played branch listed
    exact ⟨u, v, branched.performed,
      branched.begins.trans (waiting _ (List.of_mem_zip listed).1), branched.registry, branched.cursor,
      branched.ends⟩
  · rcases List.mem_cons.mp listed with rfl | member
    · rw [own]
      exact cursor
    · obtain ⟨branch, paired, rfl⟩ := List.mem_map.mp (zipped.symm ▸ member)
      obtain ⟨u, v, branched⟩ := played branch paired
      rw [branched.ends, branched.cursor, branched.begins]
      exact congrArg (· + ticks) ((congrArg Timeline.position (waiting _ member)).trans
        (ready.ready _ member).position)

/-- Whichever session a run comes through, and whichever of its timelines one goes on with: the branches
of a passage that is played there all last equally long, the children begin as the timeline stood, what
later branches define stays inside them, and nothing changes that is not below the timeline. -/
theorem passage_in_step {gas : Nat} {score : List Node} (visits : Visits gas score s)
    (inside : here < s.arena.timelines.size) {offset : Nat} {passage : List (List Item)}
    (done : (performParallel (perform depth) here references offset passage).run s = .ok ticks t) :
    passage = [] ∧ ticks = 0 ∧ t = s ∨ ∃ branch branches, passage = branch :: branches ∧
      ∃ children assembled led,
        Paralleled depth here references offset branch branches ticks s assembled led t children := by
  obtain ⟨m, live, tended⟩ := visits.tended
  cases passage with
  | nil =>
    cases done
    exact .inl ⟨rfl, rfl, rfl⟩
  | cons branch branches =>
    exact .inr ⟨branch, branches, rfl, paralleled ⟨_, tended.sound.forest⟩ inside done⟩

/-- A passage after a rest. Its first branch goes up and holds a passage of its own, and the second one
declares a group. -/
theorem passage_in_step_nested : ∃ (score : List Node) (s t : Session) (passage : List (List Item)),
    Visits 40 score s ∧ (s.arena.timeline 0).position = 32 ∧
      (performParallel (perform 38) 0 0 1 passage).run s = .ok 64 t ∧ passage ≠ [] ∧
      ∃ branch branches children assembled led,
        Paralleled 38 0 0 1 branch branches 64 s assembled led t children := by
  let key : Item := .key ⟨4, .pitchClass 0, 0, 0⟩
  let passage : List (List Item) :=
    [[.setting ⟨2, "o", "6"⟩, key, .parallel 5 [[key], [.rest 6]]], [.group 7 1 [key], .rest 8]]
  let item : Item := .parallel 1 passage
  let repeats : Repeats := { performed := #[.item (.rest 0)] }
  let rested : Timeline :=
    { channel := 1, rests := 32, position := 32, last := .rest, repeats := repeats }
  let call : Call := ⟨0, 0, item, { gas := ⟨39⟩, arena := ⟨#[rested]⟩, channels := #[0] }⟩
  have round : Round (.start 40 [.item (.rest 0), .item item])
      ⟨some 0, [⟨.item item, false⟩], call.session⟩ :=
    @Round.node none (some 0) ⟨.item (.rest 0), false⟩ _ [] _ _ rfl
  have reached : Reaches 40 [.item (.rest 0), .item item] 40 call :=
    Reaches.node (t := call.session) (.single round) rfl
  have performed : (performParallel (perform 38) 0 0 1 passage).run' call.session = some 64 := by
    decide +kernel
  obtain ⟨t, done⟩ := Step.exists_of_run' performed
  have inside : 0 < call.session.arena.timelines.size := Nat.zero_lt_one
  rcases passage_in_step (.before reached) inside done with ⟨none, -⟩ | ⟨branch, branches, -, played⟩
  · exact nomatch none
  · exact ⟨_, call.session, t, passage, .before reached, rfl, done, nofun, branch, branches, played⟩

end Session
end TextScore
