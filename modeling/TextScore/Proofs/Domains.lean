import Mathlib.Logic.Relation
import TextScore.Proofs.Advances

/-! Whose timelines a performance may touch. What is performed on a timeline stays within its domain:
the timeline itself, its voices, those of its children that no passage in progress uses, and so on
with these. Timelines are born there, too, so everything outside is as it was. -/
namespace TextScore

namespace Timeline.Alike
variable {t t' t'' : Timeline}

theorem refl (t : Timeline) : t.Alike t := ⟨rfl, rfl, rfl⟩

theorem trans (first : t.Alike t') (second : t'.Alike t'') : t.Alike t'' :=
  ⟨first.position.trans second.position, first.state.trans second.state,
    first.tuplet.trans second.tuplet⟩

/-- A child that follows has the cursor, the playing state and the tuplet of its parent. -/
theorem follow {parent child : Timeline} (behind : child.position ≤ parent.position) :
    (parent.follow child).Alike parent := by
  refine ⟨(Arena.Level.position_follow behind).1, ?_, ?_⟩
  all_goals
    unfold Timeline.follow pad
    split <;> rfl

end Timeline.Alike

namespace Arena
variable {arena : Arena} {here id : TimelineId}

/-- Adding children changes nothing that a performance reads. -/
theorem alike_withChild (inside : here < arena.timelines.size) (slot : Slot) (id : TimelineId) :
    ((arena.withChild here slot).timeline id).Alike (arena.timeline id) := by
  have added {arena : Arena} (inside : here < arena.timelines.size) :
      ((arena.addChild here slot).timeline id).Alike (arena.timeline id) := by
    rw [timeline_addChild inside]
    split
    · next same => cases slot <;> exact same ▸ ⟨rfl, rfl, rfl⟩
    · split
      · next last =>
        rw [timeline_out (Nat.le_of_eq last.symm)]
        exact ⟨rfl, rfl, rfl⟩
      · exact .refl _
  exact withChild_rule inside slot (.refl _) fun inside alike => (added inside).trans alike

/-- A branch that is claimed is like its parent; everything else is as it was. -/
theorem alike_claimed (inside : here < arena.timelines.size) {arena' : Arena} {offset index : Nat}
    {child : TimelineId} (present : child < arena'.timelines.size)
    (done : (childAt here offset (.branch index)).run arena = .ok child arena') :
    (arena'.timeline child).Alike (arena.timeline here) ∧
      ∀ id ≠ child, (arena'.timeline id).Alike (arena.timeline id) := by
  obtain ⟨-, behind, rfl⟩ := childAt_ok done
  have same := alike_withChild inside (.branch index)
  rw [size_adjust] at present
  refine ⟨?_, fun id other => ?_⟩
  · rw [timeline_adjust_self _ _ _ present]
    exact (Timeline.Alike.follow behind).trans (same here)
  · rw [timeline_adjust_ne _ _ (Ne.symm other)]
    exact same id

end Arena

namespace Arena
open Relation (ReflTransGen)
variable {roots : List TimelineId} {arena before middle after : Arena}
  {floor floor' : TimelineId → Nat} {here id child : TimelineId} {ticks : Nat}

/-- The timelines that performing on a timeline may get to. -/
def Domain (floor : TimelineId → Nat) (here id : TimelineId) (arena : Arena) : Prop :=
  ReflTransGen (fun parent child => arena.Owns floor parent child) here id

/-- A timeline, its children and its voices, theirs, and so on. -/
def Subtree (here id : TimelineId) (arena : Arena) : Prop :=
  ReflTransGen (fun parent child => child ∈ (arena.timeline parent).children ∨
    child ∈ (arena.timeline parent).voices) here id

theorem Domain.subtree (domain : arena.Domain floor here id) : arena.Subtree here id :=
  ReflTransGen.mono (fun _ _ (owned : arena.Owns floor _ _) => Or.symm (owned.imp_right
    fun ⟨_, _, found⟩ => Array.mem_of_getElem? found)) _ _ domain

theorem Domain.closed (domain : arena.Domain floor' here id) (lower : ∀ id, floor id ≤ floor' id) :
    arena.Domain floor here id :=
  ReflTransGen.mono (fun _ _ (owned : arena.Owns floor' _ _) => owned.closed (lower _)) _ _ domain

theorem Owns.inside (owned : arena.Owns floor here child) : here < arena.timelines.size := by
  rcases owned with voice | ⟨i, -, found⟩
  · exact inside_of_mem rfl voice
  · exact inside_of_mem rfl (Array.mem_of_getElem? found)

theorem Owns.younger (owned : arena.Owns floor here child) (forest : Forest roots arena) :
    here < child := by
  rcases owned with voice | ⟨i, -, found⟩
  · exact forest.younger here child (.inr voice)
  · exact forest.younger here child (.inl (Array.mem_of_getElem? found))

/-- No timeline is in the domain of a younger one. -/
theorem Domain.older (domain : arena.Domain floor here id) (forest : Forest roots arena) :
    here ≤ id := by
  induction domain with
  | refl => exact Nat.le_refl _
  | tail _ owned ih => exact Nat.le_trans ih (Nat.le_of_lt (owned.younger forest))

/-- A child is in the domain of those only that are its parent or have its parent in theirs. -/
theorem Domain.through_parent {parent : TimelineId} {i : Nat} (domain : arena.Domain floor here child)
    (forest : Forest roots arena) (found : (arena.timeline parent).children[i]? = some child) :
    here = child ∨ arena.Domain floor here parent ∧ floor parent ≤ i := by
  rcases domain.cases_tail with rfl | ⟨owner, domain, owned⟩
  · exact .inl rfl
  · obtain ⟨rfl, active⟩ := owned.slot forest found
    exact .inr ⟨domain, active⟩

/-- Between two arenas something was performed on a timeline. -/
structure Confined (floor : TimelineId → Nat) (here : TimelineId) (before after : Arena) : Prop where
  size : before.timelines.size ≤ after.timelines.size
  children : ∀ {parent child : TimelineId} {i : Nat},
    (before.timeline parent).children[i]? = some child →
    (after.timeline parent).children[i]? = some child
  born : ∀ {floor' : TimelineId → Nat} {parent child : TimelineId}, after.Owns floor' parent child →
    before.Owns floor' parent child ∨ before.timelines.size ≤ child
  still : ∀ id < before.timelines.size, ¬ before.Domain floor here id →
    after.timeline id = before.timeline id

namespace Confined

theorem refl (floor : TimelineId → Nat) (here : TimelineId) (arena : Arena) :
    Confined floor here arena arena := ⟨Nat.le_refl _, id, .inl, fun _ _ _ => rfl⟩

/-- Whoever has an old timeline in its domain is old, and had it there before. -/
theorem old (confined : Confined floor' here before after) {outer inner : TimelineId}
    (domain : after.Domain floor outer inner) (present : inner < before.timelines.size) :
    outer < before.timelines.size ∧ before.Domain floor outer inner := by
  induction domain using ReflTransGen.head_induction_on with
  | refl => exact ⟨present, .refl⟩
  | head owned _ ih =>
    obtain ⟨inside, domain⟩ := ih
    rcases confined.born owned with kept | fresh
    · exact ⟨kept.inside, .head kept domain⟩
    · exact absurd inside (Nat.not_lt_of_le fresh)

/-- What is performed inside the domain, with more children in use, is performed there. -/
theorem trans {there : TimelineId} (first : Confined floor here before middle)
    (second : Confined floor' there middle after) (lower : ∀ id, floor id ≤ floor' id)
    (within : middle.Domain floor here there) : Confined floor here before after where
  size := Nat.le_trans first.size second.size
  children found := second.children (first.children found)
  born owned := by
    rcases second.born owned with kept | fresh
    · exact first.born kept
    · exact .inr (Nat.le_trans first.size fresh)
  still id present outside := by
    refine (second.still id (Nat.lt_of_lt_of_le present first.size) fun domain => ?_).trans
      (first.still id present outside)
    exact outside (first.old (within.trans (domain.closed lower)) present).2

theorem chain (first : Confined floor here before middle) (second : Confined floor here middle after) :
    Confined floor here before after := first.trans second (fun _ => Nat.le_refl _) .refl

/-- Playing on a timeline touches the timeline itself and its voices. -/
theorem of_frame (frame : Frame here ticks before after) : Confined floor here before after where
  size := frame.size
  children found := by rwa [frame.children]
  born {floor' parent child} owned := by
    rcases owned with voice | ⟨i, active, found⟩
    · exact (frame.fresh parent child voice).imp_left .inl
    · rw [frame.children] at found
      exact .inl (.inr ⟨i, active, found⟩)
  still id present outside := frame.rest id present (fun own => outside (own ▸ .refl))
    fun voice => outside (.single (.inl voice))

/-- One timeline of the domain goes on with the family it had. -/
theorem adjust {f : Timeline → Timeline} (within : before.Domain floor here id)
    (family : (f (before.timeline id)).children = (before.timeline id).children ∧
      (f (before.timeline id)).voices = (before.timeline id).voices) :
    Confined floor here before (before.adjust id f) := by
  have each (other : TimelineId) :
      ((before.adjust id f).timeline other).children = (before.timeline other).children ∧
      ((before.adjust id f).timeline other).voices = (before.timeline other).voices := by
    rw [timeline_adjust_or]
    split
    · next both => exact both.1 ▸ family
    · exact ⟨rfl, rfl⟩
  refine ⟨Nat.le_of_eq (size_adjust ..).symm, fun found => ?_, fun owned => ?_,
    fun other _ outside => timeline_adjust_ne f before fun own => outside (own ▸ within)⟩
  · rwa [(each _).1]
  · rw [Owns, (each _).1, (each _).2] at owned
    exact .inl owned

theorem addBranch (inside : here < before.timelines.size) (index : Nat) :
    Confined floor here before (before.addChild here (.branch index)) := by
  have each (id : TimelineId) := timeline_addChild inside (.branch index) id
  refine ⟨(size_addChild ..).symm ▸ Nat.le_succ _, fun {parent child i} found => ?_,
    fun {floor' parent child} owned => ?_, fun id present outside => ?_⟩
  · rw [each]
    split
    · next same =>
      subst same
      have there := (Array.getElem?_eq_some_iff.mp found).1
      exact (Array.getElem?_push_lt there).trans (Array.getElem?_eq_getElem there ▸ found)
    · split
      · next last =>
        rw [timeline_out (Nat.le_of_eq last.symm)] at found
        cases found
      · exact found
  · rw [Owns, each] at owned
    split at owned
    · next same =>
      subst same
      rcases owned with voice | ⟨i, active, found⟩
      · exact .inl (.inl voice)
      · have found := Array.getElem?_push.symm.trans found
        split at found
        · exact .inr (Nat.le_of_eq (Option.some.inj found))
        · exact .inl (.inr ⟨i, active, found⟩)
    · split at owned
      · rcases owned with voice | ⟨i, -, found⟩
        · exact absurd voice (Array.not_mem_empty _)
        · cases found
      · exact .inl owned
  · have other : id ≠ here := by
      rintro rfl
      exact outside .refl
    rw [each, if_neg other, if_neg (Nat.ne_of_lt present)]

theorem withChild (inside : here < before.timelines.size) (index : Nat) :
    Confined floor here before (before.withChild here (.branch index)) :=
  withChild_rule inside _ (.refl ..) fun inside confined => confined.chain (.addBranch inside index)

/-- A child in a slot that no passage uses is claimed. It takes over the playing state and the tuplet,
and catches up with the cursor. -/
theorem claim (forest : Forest roots before) (inside : here < before.timelines.size) {offset index : Nat}
    (free : floor here ≤ index)
    (done : (childAt here offset (.branch index)).run before = .ok child after) :
    Confined floor here before after ∧ (after.timeline here).children[index]? = some child := by
  obtain ⟨taken, -, rfl⟩ := childAt_ok done
  have grown : Confined floor here before (before.withChild here (.branch index)) := withChild inside index
  have found := Level.slot_claimed inside (.branch index) taken
  have forest := (Arena.withChild_strides inside (.branch index)).forest forest
  generalize before.withChild here (.branch index) = full at *
  have onward := Timeline.Onward.follow (full.timeline here) (full.timeline child)
  have followed : Confined floor here full (full.adjust child (full.timeline here).follow) :=
    adjust (.single (.inr ⟨index, free, found⟩)) ⟨onward.children, onward.voices⟩
  exact ⟨grown.chain followed, followed.children found⟩

end Confined
end Arena

namespace Session
open Arena (Forest Domain Confined)
open Step (Follows)
open Scene
variable {here child : TimelineId} {s t u : Session} {ticks : Nat} {α : Type} {a : α}
  {roots : List TimelineId}

/-- Which children are in use while something is performed on a timeline, and the arena in which that
began. -/
structure Fence where
  floor : TimelineId → Nat
  past : Arena

instance : Scene Fence where
  after _ γ := γ
  under _ γ := γ
  copied γ := γ
  graced γ := γ
  mixed _ := False
  after_zero _ := rfl
  after_add _ _ _ := rfl

structure Fenced (here : TimelineId) (γ : Fence) (s : Session) : Prop where
  forest : ∃ roots, Forest roots s.arena
  inside : here < s.arena.timelines.size
  confined : Confined γ.floor here γ.past s.arena
  floors : ∀ id, (s.arena.timeline id).branchBase = γ.floor id

variable {γ : Fence}

namespace Fenced

theorem moves (fenced : s.Fenced here γ) (moves : s.Moves here ticks t) : t.Fenced here γ := by
  obtain ⟨roots, forest⟩ := fenced.forest
  exact ⟨⟨roots, moves.forest forest⟩, Nat.lt_of_lt_of_le fenced.inside moves.frame.size,
    fenced.confined.chain (.of_frame moves.frame),
    fun id => (moves.frame.branchBase id).trans (fenced.floors id)⟩

theorem silent (fenced : s.Fenced here γ) (same : t.arena = s.arena) : t.Fenced here γ :=
  fenced.moves (.silent same)

end Fenced

/-- The run is on a timeline, and has kept within its domain. -/
def fencing (here here' : TimelineId) (γ : Fence) : Coupling Session :=
  along (Fenced here γ) (here = here')

theorem follows_fencing {here' : TimelineId} {p : TimelineId → Play α}
    (kept : ∀ {s t a}, Fenced here γ s → (p here).run s = .ok a t → Fenced here γ t) :
    Follows Eq (fencing here here' γ) (p here) (p here') fun _ => fencing here here' γ := by
  refine .provided fun same => ?_
  subst same
  exact (follows_kept True fun _ s t a fenced done =>
    (⟨rfl, kept fenced done⟩ : here = here ∧ Fenced here γ t)).mono
      ⟨fun coupled => ⟨trivial, coupled⟩, False.elim⟩ fun _ => .refl _

/-- A passage has reserved slots of its timeline from `γ.floor here` up to `top`, and holds the children
in some of them. -/
structure Presides (here : TimelineId) (γ : Fence) (top : Nat) (children : List TimelineId)
    (s : Session) : Prop where
  forest : ∃ roots, Forest roots s.arena
  inside : here < s.arena.timelines.size
  confined : Confined γ.floor here γ.past s.arena
  own : (s.arena.timeline here).branchBase = top
  floors : ∀ id, id ≠ here → (s.arena.timeline id).branchBase = γ.floor id
  held : ∀ child ∈ children, ∃ i, γ.floor here ≤ i ∧
    (s.arena.timeline here).children[i]? = some child

/-- Its slots are released. -/
theorem Presides.fenced {children : List TimelineId}
    (presides : s.Presides here γ (γ.floor here) children) : s.Fenced here γ where
  forest := presides.forest
  inside := presides.inside
  confined := presides.confined
  floors id := by
    by_cases own : id = here
    · exact own ▸ presides.own
    · exact presides.floors id own

/-- Which slots of the timeline are reserved changes. -/
theorem Presides.settle {top base : Nat} {children : List TimelineId}
    (presides : s.Presides here γ top children) {f : Timeline → Timeline}
    (kept : ∀ t : Timeline, (f t).children = t.children ∧ (f t).voices = t.voices)
    (own : (f (s.arena.timeline here)).branchBase = base) :
    Presides here γ base children { s with arena := s.arena.adjust here f } := by
  obtain ⟨roots, forest⟩ := presides.forest
  refine ⟨⟨roots, forest.adjust (kept _).1 (kept _).2⟩, (Arena.size_adjust ..).symm ▸ presides.inside,
    presides.confined.chain (.adjust .refl (kept _)), ?_, fun id other => ?_, ?_⟩
  · rw [Arena.timeline_adjust_self _ _ _ presides.inside]
    exact own
  · rw [Arena.timeline_adjust_ne _ _ (Ne.symm other)]
    exact presides.floors id other
  · rw [Arena.timeline_adjust_self _ _ _ presides.inside, (kept _).1]
    exact presides.held

/-- Slots are reserved for a passage. -/
theorem Fenced.reserve {count base : Nat} (fenced : s.Fenced here γ)
    (done : (update here (Timeline.reserve count)).run s = .ok base t) :
    base = γ.floor here ∧ t.Presides here γ (γ.floor here + count) [] ∧
      t = { s with arena := s.arena.adjust here fun t => (t.reserve count).2 } := by
  obtain ⟨arena, ran, rfl⟩ := onArena_ok done
  rw [Arena.update_run] at ran
  cases ran
  have presides : s.Presides here γ (γ.floor here) [] :=
    ⟨fenced.forest, fenced.inside, fenced.confined, fenced.floors here, fun id _ => fenced.floors id,
      nofun⟩
  exact ⟨fenced.floors here, presides.settle (fun _ => ⟨rfl, rfl⟩)
    (congrArg (· + count) (fenced.floors here)), rfl⟩

/-- A child is claimed for the next slot. -/
theorem Presides.claim {top : Nat} {children : List TimelineId} {offset index : Nat}
    (presides : s.Presides here γ top children) (free : γ.floor here ≤ index)
    (done : (onArena (Arena.childAt here offset (.branch index))).run s = .ok child t) :
    t.Presides here γ top (children ++ [child]) := by
  obtain ⟨arena, ran, rfl⟩ := onArena_ok done
  obtain ⟨roots, forest⟩ := presides.forest
  obtain ⟨confined, found⟩ := Confined.claim forest presides.inside free ran
  obtain ⟨forest, -, -, size, -⟩ := Arena.claimed_branch forest presides.inside ran
  have bases := Arena.branchBase_childAt presides.inside ran
  refine ⟨⟨roots, forest⟩, Nat.lt_of_lt_of_le presides.inside size, presides.confined.chain confined,
    (bases here).trans presides.own, fun id other => (bases id).trans (presides.floors id other), ?_⟩
  simp only [List.forall_mem_append, List.forall_mem_singleton]
  exact ⟨fun child listed => (presides.held child listed).imp fun _ => .imp_right confined.children,
    ⟨index, free, found⟩⟩

/-- What is known of the children that a passage has claimed. Both runs have the same ones. -/
abbrev Twinned (here here' : TimelineId) (pairs : List (TimelineId × TimelineId)) : Prop :=
  here = here' ∧ ∀ pair ∈ pairs, pair.1 = pair.2

/-- While the first branch is played the slots of the passage are in use. -/
def Fence.raised (here : TimelineId) (count : Nat) (past : Arena) (γ : Fence) : Fence where
  floor id := if id = here then γ.floor here + count else γ.floor id
  past := past

theorem Presides.raise {count : Nat} {children : List TimelineId}
    (presides : s.Presides here γ (γ.floor here + count) children) :
    s.Fenced here (γ.raised here count s.arena) where
  forest := presides.forest
  inside := presides.inside
  confined := .refl ..
  floors id := by
    dsimp only [Fence.raised]
    split
    · next own => exact own ▸ presides.own
    · next other => exact presides.floors id other

/-- The first branch was played, with the slots in use. -/
theorem Presides.first {count : Nat} {children : List TimelineId}
    (presides : s.Presides here γ (γ.floor here + count) children)
    (fenced : t.Fenced here (γ.raised here count s.arena)) :
    t.Presides here γ (γ.floor here + count) children := by
  have lower (id : TimelineId) : γ.floor id ≤ (γ.raised here count s.arena).floor id := by
    dsimp only [Fence.raised]
    split
    · next own => exact own ▸ Nat.le_add_right ..
    · exact Nat.le_refl _
  refine ⟨fenced.forest, fenced.inside, presides.confined.trans fenced.confined lower .refl,
    (fenced.floors here).trans (if_pos rfl), fun id other => (fenced.floors id).trans (if_neg other),
    fun child listed => ?_⟩
  exact (presides.held child listed).imp fun _ => .imp_right fenced.confined.children

theorem Presides.fewer {top : Nat} {children children' : List TimelineId}
    (presides : s.Presides here γ top children) (fewer : children' ⊆ children) :
    s.Presides here γ top children' :=
  { presides with held := fun child listed => presides.held child (fewer listed) }

section Others
variable {children : List TimelineId} (presides : s.Presides here γ (γ.floor here) children)
  (member : child ∈ children)
include presides member

theorem Presides.enter : s.Fenced child { γ with past := s.arena } := by
  obtain ⟨roots, forest⟩ := presides.forest
  obtain ⟨i, -, found⟩ := presides.held child member
  have listed := Arena.child_listed (Array.mem_of_getElem? found)
  exact ⟨presides.forest, forest.lt_size (List.mem_append_left _ (List.mem_append_right roots listed)),
    .refl .., presides.fenced.floors⟩

/-- A child is played on, which is in the domain of its parent. -/
theorem Presides.other (fenced : t.Fenced child { γ with past := s.arena }) :
    t.Presides here γ (γ.floor here) children := by
  obtain ⟨i, active, found⟩ := presides.held child member
  refine ⟨fenced.forest, Nat.lt_of_lt_of_le presides.inside fenced.confined.size,
    presides.confined.trans fenced.confined (fun _ => Nat.le_refl _) (.single (.inr ⟨i, active, found⟩)),
    fenced.floors here, fun id _ => fenced.floors id, fun child listed => ?_⟩
  exact (presides.held child listed).imp fun _ => .imp_right fenced.confined.children

end Others

/-- The branches of a passage are played within the domain of its timeline. -/
theorem fork_fencing (here here' : TimelineId) (γ : Fence) (count : Nat) :
    Fork Eq fencing (fencing here here' γ) here here' count
      (fun base pairs => along (Presides here γ (γ.floor here + count) (pairs.map Prod.fst))
        (Twinned here here' pairs ∧ base = γ.floor here))
      (fun _ pairs => along (Presides here γ (γ.floor here) (pairs.map Prod.fst))
        (Twinned here here' pairs))
      fun _ => fencing here here' γ := by
  refine ⟨.provided ?_, ?_, fun {base pairs} _ => ⟨?_, fun left => left.2.elim⟩,
    fun {ticks pair pairs} => ⟨?_, fun left => left.2.elim⟩, ?_, fun left => left.2.elim⟩
  · rintro rfl
    have reserves : Follows Eq (along (Fenced here γ) True) (update here (Timeline.reserve count))
        (update here (Timeline.reserve count))
        fun base => along (Presides here γ (γ.floor here + count) [])
          (Twinned here here [] ∧ base = γ.floor here) := by
      refine follows_kept True fun _ s t base fenced done => ?_
      obtain ⟨free, presides, -⟩ := fenced.reserve done
      exact ⟨⟨⟨rfl, nofun⟩, free⟩, presides⟩
    exact reserves.mono ⟨fun coupled => ⟨trivial, coupled⟩, False.elim⟩ fun _ => .refl _
  · rintro α base pairs offset f g R - rest
    refine .provided ?_
    rintro ⟨⟨rfl, twinned⟩, rfl⟩
    have claims : Follows Eq
        (along (Presides here γ (γ.floor here + count) (pairs.map Prod.fst)) True)
        (onArena (Arena.childAt here offset (.branch (γ.floor here + pairs.length))))
        (onArena (Arena.childAt here offset (.branch (γ.floor here + pairs.length))))
        fun child => along
          (Presides here γ (γ.floor here + count) ((pairs ++ [(child, child)]).map Prod.fst))
          (Twinned here here (pairs ++ [(child, child)]) ∧ γ.floor here = γ.floor here) := by
      refine follows_kept True fun _ s t child presides done => ?_
      refine ⟨⟨⟨rfl, ?_⟩, rfl⟩, ?_⟩
      · simp only [List.forall_mem_append, List.forall_mem_singleton]
        exact ⟨twinned, trivial⟩
      · rw [List.map_append]
        exact presides.claim (Nat.le_add_right ..) done
    exact (claims.bind fun child => rest child child).mono
      ⟨fun coupled => ⟨trivial, coupled⟩, False.elim⟩ fun _ => .refl _
  · rintro s _ ⟨⟨⟨rfl, twinned⟩, rfl⟩, rfl, presides⟩
    refine ⟨γ.raised here count s.arena, fun _ => ?_, rfl, rfl, presides.raise⟩
    refine follows_kept _ fun _ u v _ fenced done => ?_
    cases done
    exact ⟨⟨rfl, twinned⟩, (presides.first fenced).settle (fun _ => ⟨rfl, rfl⟩) rfl⟩
  · rintro s _ ⟨⟨rfl, twinned⟩, rfl, presides⟩
    obtain ⟨own, twinned⟩ := List.forall_mem_cons.mp twinned
    refine ⟨{ γ with past := s.arena }, ⟨fun coupled => ?_, fun left => left.2.elim⟩, own, rfl,
      presides.enter List.mem_cons_self⟩
    obtain ⟨-, rfl, fenced⟩ := coupled
    exact ⟨⟨rfl, twinned⟩, rfl,
      (presides.other List.mem_cons_self fenced).fewer (List.subset_cons_self ..)⟩
  · rintro s _ ⟨⟨same, -⟩, rfl, presides⟩
    exact ⟨same, rfl, presides.fenced⟩

theorem duet_fencing : Duet Eq fencing where
  fails _ := rfl
  loose left := left.2.elim
  lone left := left.2.elim
  consonant := by
    rintro here _ γ s _ ⟨rfl, rfl, -⟩
    exact ⟨⟨rfl, rfl, rfl⟩, rfl, rfl, rfl, rfl⟩
  measuring _ coupled := congrArg Session.measuring coupled.2.1
  gesture gesture :=
    follows_fencing fun fenced done => fenced.moves (moves_gesture gesture fenced.inside done)
  sound sounding := follows_fencing fun {s t ticks} fenced done => by
    obtain ⟨roots, forest⟩ := fenced.forest
    exact fenced.moves (moves_sound sounding forest fenced.inside done)
  push m := follows_fencing (p := fun _ => pushModifier m) fun fenced done => by
    cases done
    exact fenced.silent rfl
  pop := follows_fencing (p := fun _ => popModifier) fun fenced done => by
    cases done
    exact fenced.silent rfl
  prepare waiting := follows_fencing
    (p := fun _ => modify fun s => { s with graces := some waiting }) fun fenced done => by
      cases done
      exact fenced.silent rfl
  graceful := .refl _
  clear := follows_fencing (p := fun _ => modify fun s => { s with graces := none })
    fun fenced done => by
      cases done
      exact fenced.silent rfl
  copy _ coupled := ⟨coupled.1, congrArg measured coupled.2.1, coupled.2.2.silent rfl⟩
  copyAlone _ _ left := left.2.elim
  onsets coupled := congrArg Session.onsets coupled.2.1
  solo mixed := mixed.elim
  fork here here' γ count := ⟨_, _, fork_fencing here here' γ count⟩

/-- Performing items on a timeline keeps within its domain, and leaves no child in use. -/
theorem fenced_all (fenced : s.Fenced here γ) {depth references : Nat} {items : List Item}
    (done : (performAll (perform depth) here references items).run s = .ok ticks t) :
    t.Fenced here γ := by
  have follows : Follows Eq (fencing here here γ) _ _ _ :=
    Ensemble.follows_all (duet_fencing.follows_perform depth) references items
  obtain ⟨_, -, -, rfl, after⟩ := follows.ok ⟨rfl, rfl, fenced⟩ done
  exact after

end Session
end TextScore
