import TextScore.Proofs.Frames

/-! Timelines that wait while others are played on. A parallel passage holds the children that it has
claimed, and while one of its branches is played the timelines of the other ones; what is played
moves none of them. All other children stand at or before the cursors of their parents, so another
passage may claim them. -/
namespace TextScore.Arena

/-- What is known while items are performed on a timeline. -/
structure Post where
  /-- The first child of each timeline that no passage in progress uses. -/
  floor : TimelineId → Nat
  /-- Timelines that wait. -/
  held : List TimelineId
  /-- An earlier arena, in which they were as they are. -/
  past : Arena
  /-- The cursor. -/
  clock : Nat

variable {roots roots' idle : List TimelineId} {arena arena' : Arena} {here parent child : TimelineId}
  {post : Post} {ticks : Nat}

/-- Playing on a timeline may move its voices, and those of its children that no passage uses. -/
def Owns (floor : TimelineId → Nat) (parent child : TimelineId) (arena : Arena) : Prop :=
  child ∈ (arena.timeline parent).voices ∨
    ∃ i, floor parent ≤ i ∧ (arena.timeline parent).children[i]? = some child

/-- No timeline that waits can be moved from the one that is played on, and no child that a passage
may claim is ahead. -/
structure Poised (post : Post) (here : TimelineId) (arena : Arena) : Prop where
  level : ∃ limit, arena.Level limit
  cursor : (arena.timeline here).position = post.clock
  free : here ∉ post.held
  still : ∀ id ∈ post.held,
    id < arena.timelines.size ∧ arena.timeline id = post.past.timeline id
  kept : ∀ {parent child : TimelineId} {i : Nat}, (post.past.timeline parent).children[i]? = some child →
    (arena.timeline parent).children[i]? = some child
  behind : ∀ {parent child : TimelineId} {i : Nat}, post.floor parent ≤ i →
    (arena.timeline parent).children[i]? = some child → child ≠ here → child ∉ post.held →
    (arena.timeline child).position ≤ (arena.timeline parent).position
  apart : ∀ {parent child : TimelineId}, parent ∉ post.held → arena.Owns post.floor parent child →
    child ≠ here ∧ child ∉ post.held

/-- So many ticks later. -/
def Post.after (ticks : Nat) (post : Post) : Post := { post with clock := post.clock + ticks }

/-- A passage holds its children while its first branch is played. -/
def Post.opened (here : TimelineId) (children : List TimelineId) (arena : Arena) (post : Post) :
    Post where
  floor id := if id = here then post.floor here + children.length else post.floor id
  held := children ++ post.held
  past := arena
  clock := post.clock

/-- Its timeline and the other children are held while another branch is played on a child. -/
def Post.entered (here : TimelineId) (others : List TimelineId) (start : Nat) (arena : Arena)
    (post : Post) : Post where
  floor := post.floor
  held := here :: others ++ post.held
  past := arena
  clock := start

namespace Poised

/-- What is played on the timeline moves what it owns only. -/
theorem frame (poised : arena.Poised post here) (forest : Forest roots arena)
    (inside : here < arena.timelines.size) (frame : Frame here ticks arena arena')
    (level : ∃ limit, arena'.Level limit) : arena'.Poised (post.after ticks) here where
  level := level
  cursor := frame.cursor.trans (congrArg (· + ticks) poised.cursor)
  free := poised.free
  still id held := by
    obtain ⟨present, same⟩ := poised.still id held
    have unowned : id ∉ (arena.timeline here).voices := fun owned =>
      (poised.apart poised.free (.inl owned)).2 held
    exact ⟨Nat.lt_of_lt_of_le present frame.size,
      (frame.rest id present (fun own => poised.free (own ▸ held)) unowned).trans same⟩
  kept found := by
    rw [frame.children]
    exact poised.kept found
  behind {parent child i} active found other waits := by
    rw [frame.children] at found
    have listed := child_listed (Array.mem_of_getElem? found)
    have unowned : child ∉ (arena.timeline here).voices := fun owned =>
      (forest.child_apart (Array.mem_of_getElem? found)).1 (voice_listed owned)
    have present := forest.lt_size (List.mem_append_left _ (List.mem_append_right roots listed))
    rw [frame.rest child present other unowned]
    exact Nat.le_trans (poised.behind active found other waits) (frame.onward parent)
  apart {parent child} moves owned := by
    have new (fresh : arena.timelines.size ≤ child) : child ≠ here ∧ child ∉ post.held :=
      ⟨fun own => Nat.not_le_of_lt inside (own ▸ fresh),
        fun held => Nat.not_le_of_lt (poised.still child held).1 fresh⟩
    rcases owned with voice | ⟨i, active, found⟩
    · rcases frame.fresh parent child voice with old | fresh
      · exact poised.apart moves (.inl old)
      · exact new fresh
    · rw [frame.children] at found
      exact poised.apart moves (.inr ⟨i, active, found⟩)

/-- Which children are in use is known apart from the arena. -/
theorem settle {f : Timeline → Timeline} (poised : arena.Poised post here)
    (family : ∀ t, (f t).children = t.children ∧ (f t).voices = t.voices)
    (position : ∀ t, (f t).position = t.position) : (arena.adjust here f).Poised post here := by
  have each (id : TimelineId) :
      ((arena.adjust here f).timeline id).children = (arena.timeline id).children ∧
      ((arena.adjust here f).timeline id).voices = (arena.timeline id).voices ∧
      ((arena.adjust here f).timeline id).position = (arena.timeline id).position := by
    rcases Nat.lt_or_ge here arena.timelines.size with inside | out
    · rw [timeline_adjust inside]
      split
      · next same =>
        subst same
        exact ⟨(family _).1, (family _).2, position _⟩
      · exact ⟨rfl, rfl, rfl⟩
    · rw [adjust_out out]
      exact ⟨rfl, rfl, rfl⟩
  obtain ⟨limit, level⟩ := poised.level
  refine ⟨⟨limit, level.still (family _).2 (position _)⟩, (each here).2.2.trans poised.cursor,
    poised.free, fun id held => ?_, fun found => ?_, fun active found other waits => ?_,
    fun moves owned => ?_⟩
  · obtain ⟨present, same⟩ := poised.still id held
    have other : here ≠ id := fun own => poised.free (own ▸ held)
    exact ⟨(size_adjust ..).symm ▸ present, (timeline_adjust_ne f arena other).trans same⟩
  · rw [(each _).1]
    exact poised.kept found
  · rw [(each _).1] at found
    rw [(each _).2.2, (each _).2.2]
    exact poised.behind active found other waits
  · rw [Owns, (each _).1, (each _).2.1] at owned
    exact poised.apart moves owned

/-- A child that is added is behind all others, and nobody waits for it. -/
theorem addBranch (poised : arena.Poised post here) (inside : here < arena.timelines.size)
    (index : Nat) : (arena.addChild here (.branch index)).Poised post here := by
  have each (id : TimelineId) := timeline_addChild inside (.branch index) id
  have position (id : TimelineId) := Level.position_addChild inside (.branch index) id
  have new {id : TimelineId} (last : id = arena.timelines.size) : id ≠ here ∧ id ∉ post.held :=
    ⟨fun own => Nat.ne_of_lt inside (own.symm.trans last),
      fun held => Nat.ne_of_lt (poised.still id held).1 last⟩
  have child {parent child : TimelineId} {i : Nat}
      (found : ((arena.addChild here (.branch index)).timeline parent).children[i]? = some child) :
      (arena.timeline parent).children[i]? = some child ∨ child = arena.timelines.size := by
    rw [each] at found
    split at found
    · next same =>
      subst same
      have found := Array.getElem?_push.symm.trans found
      split at found
      · exact .inr (Option.some.inj found).symm
      · exact .inl found
    · split at found
      · exact nomatch found
      · exact .inl found
  obtain ⟨limit, level⟩ := poised.level
  refine ⟨⟨limit, level.addChild inside _⟩, (position here).trans poised.cursor, poised.free,
    fun id held => ?_, fun {parent id i} found => ?_, fun {parent id i} active found other waits => ?_,
    fun {parent id} moves owned => ?_⟩
  · obtain ⟨present, same⟩ := poised.still id held
    refine ⟨(size_addChild ..).symm ▸ Nat.lt_succ_of_lt present, ?_⟩
    have other : id ≠ here := fun own => poised.free (own ▸ held)
    rw [each, if_neg other, if_neg (Nat.ne_of_lt present), same]
  · have old := poised.kept found
    rw [each]
    split
    · next same =>
      subst same
      have there := (Array.getElem?_eq_some_iff.mp old).1
      exact (Array.getElem?_push_lt there).trans (Array.getElem?_eq_getElem there ▸ old)
    · split
      · next last =>
        rw [timeline_out (Nat.le_of_eq last.symm)] at old
        exact old
      · exact old
  · rw [position, position]
    rcases child found with old | rfl
    · exact poised.behind active old other waits
    · rw [timeline_out (Nat.le_refl _)]
      exact Nat.zero_le _
  · rcases owned with voice | ⟨i, active, found⟩
    · rw [each] at voice
      split at voice
      · next same => exact poised.apart moves (.inl (same ▸ voice))
      · split at voice
        · exact absurd voice (Array.not_mem_empty _)
        · exact poised.apart moves (.inl voice)
    · rcases child found with old | last
      · exact poised.apart moves (.inr ⟨i, active, old⟩)
      · exact new last

/-- A child that may be claimed catches up. -/
theorem follow (poised : arena.Poised post here) (forest : Forest roots arena) {i : Nat}
    (active : post.floor here ≤ i) (found : (arena.timeline here).children[i]? = some child)
    (level : ∃ limit, (arena.adjust child (arena.timeline here).follow).Level limit) :
    (arena.adjust child (arena.timeline here).follow).Poised post here := by
  obtain ⟨other, free⟩ := poised.apart poised.free (.inr ⟨i, active, found⟩)
  have behind := poised.behind active found other free
  obtain ⟨position, -⟩ := Level.position_follow behind
  have onward := Timeline.Onward.follow (arena.timeline here) (arena.timeline child)
  have present := forest.lt_size (List.mem_append_left _ (List.mem_append_right roots
    (child_listed (Array.mem_of_getElem? found))))
  have family (id : TimelineId) :
      ((arena.adjust child (arena.timeline here).follow).timeline id).children =
        (arena.timeline id).children ∧
      ((arena.adjust child (arena.timeline here).follow).timeline id).voices =
        (arena.timeline id).voices := by
    rw [timeline_adjust present]
    split
    · next same =>
      subst same
      exact ⟨onward.children, onward.voices⟩
    · exact ⟨rfl, rfl⟩
  have still {id : TimelineId} (different : id ≠ child) :
      (arena.adjust child (arena.timeline here).follow).timeline id = arena.timeline id :=
    timeline_adjust_ne _ arena (Ne.symm different)
  refine ⟨level, (congrArg _ (still (Ne.symm other))).trans poised.cursor, poised.free,
    fun id held => ?_, fun old => ?_, fun {parent id i} active old different waits => ?_,
    fun moves owned => ?_⟩
  · obtain ⟨there, same⟩ := poised.still id held
    exact ⟨(size_adjust ..).symm ▸ there, (still fun own => free (own ▸ held)).trans same⟩
  · rw [(family _).1]
    exact poised.kept old
  · rw [(family _).1] at old
    have before := poised.behind active old different waits
    by_cases same : id = child
    · subst same
      obtain ⟨rfl, -⟩ := forest.parent_unique found old
      exact Nat.le_of_eq (by
        rw [timeline_adjust_self _ _ arena present, still (Ne.symm other), position])
    · rw [still same, timeline_adjust present]
      split
      · next self => exact Nat.le_trans (self ▸ before) onward.position
      · exact before
  · rw [Owns, (family _).1, (family _).2] at owned
    exact poised.apart moves owned

theorem withChild (poised : arena.Poised post here) (inside : here < arena.timelines.size)
    (index : Nat) : (arena.withChild here (.branch index)).Poised post here :=
  withChild_rule inside _ poised fun inside poised => poised.addBranch inside index

end Poised

/-- Which children are in use does not change as one is claimed. -/
theorem branchBase_childAt (inside : here < arena.timelines.size) {offset : Nat} {slot : Slot}
    (done : (childAt here offset slot).run arena = .ok child arena') (id : TimelineId) :
    (arena'.timeline id).branchBase = (arena.timeline id).branchBase := by
  obtain ⟨-, -, rfl⟩ := childAt_ok done
  have added : ((arena.withChild here slot).timeline id).branchBase = (arena.timeline id).branchBase := by
    refine withChild_rule inside slot rfl fun inside same => ?_
    rw [timeline_addChild inside, ← same]
    split
    · next same =>
      subst same
      cases slot <;> rfl
    · split
      · next last => rw [timeline_out (Nat.le_of_eq last.symm)]
      · rfl
  have kept := (Timeline.Onward.follow ((arena.withChild here slot).timeline here)
    ((arena.withChild here slot).timeline child)).branchBase
  rcases Nat.lt_or_ge child (arena.withChild here slot).timelines.size with present | out
  · rw [timeline_adjust present]
    split
    · next same => exact kept.trans (same ▸ added)
    · exact added
  · rw [adjust_out out]
    exact added

theorem Owns.closed {floor floor' : TimelineId → Nat} (owned : arena.Owns floor' parent child)
    (lower : floor parent ≤ floor' parent) : arena.Owns floor parent child :=
  owned.imp_right fun ⟨i, active, found⟩ => ⟨i, Nat.le_trans lower active, found⟩

theorem Owns.same {floor : TimelineId → Nat} (owned : arena'.Owns floor parent child)
    (same : arena'.timeline parent = arena.timeline parent) : arena.Owns floor parent child := by
  rwa [Owns, same] at owned

/-- Whoever owns a child has it as that child. -/
theorem Owns.slot {floor : TimelineId → Nat} {other : TimelineId} {i : Nat}
    (owned : arena.Owns floor other child) (forest : Forest roots arena)
    (found : (arena.timeline parent).children[i]? = some child) : other = parent ∧ floor parent ≤ i := by
  rcases owned with voice | ⟨j, active, listed⟩
  · exact absurd (voice_listed voice) (forest.child_apart (Array.mem_of_getElem? found)).1
  · obtain ⟨rfl, rfl⟩ := forest.parent_unique found listed
    exact ⟨rfl, active⟩

/-- Children of a passage that is about to begin, in the slots that it has reserved. -/
structure Opening (post : Post) (here : TimelineId) (children : List TimelineId) (arena : Arena) :
    Prop where
  poised : arena.Poised post here
  slots : ∀ {j : Nat} {child : TimelineId}, children[j]? = some child →
    (arena.timeline here).children[post.floor here + j]? = some child
  ready : ∀ child ∈ children, (arena.timeline child).position = post.clock

/-- Children that wait for their branches, at the tick at which the passage began. -/
structure Waits (post : Post) (here : TimelineId) (children : List TimelineId) (start : Nat)
    (arena : Arena) : Prop where
  poised : arena.Poised post here
  nodup : children.Nodup
  slots : ∀ child ∈ children, ∃ i, post.floor here ≤ i ∧
    (arena.timeline here).children[i]? = some child
  ready : ∀ child ∈ children, (arena.timeline child).position = start

namespace Opening
variable {children : List TimelineId}

theorem slot (opening : arena.Opening post here children) (member : child ∈ children) :
    ∃ j, children[j]? = some child ∧
      (arena.timeline here).children[post.floor here + j]? = some child := by
  obtain ⟨j, listed⟩ := List.mem_iff_getElem?.mp member
  exact ⟨j, listed, opening.slots listed⟩

theorem owned (opening : arena.Opening post here children) (member : child ∈ children) :
    arena.Owns post.floor here child := by
  obtain ⟨j, -, found⟩ := opening.slot member
  exact .inr ⟨_, Nat.le_add_right .., found⟩

theorem nodup (opening : arena.Opening post here children) (forest : Forest roots arena) :
    children.Nodup := by
  rw [List.nodup_iff_getElem?_ne_getElem?]
  intro i j less last same
  have found : children[j]? = some children[j] := List.getElem?_eq_getElem last
  have places := (forest.parent_unique (opening.slots found) (opening.slots (same.trans found))).2
  omega

/-- The next child is claimed, and catches up with the cursor. -/
theorem claim (opening : arena.Opening post here children) (sound : Sound roots idle arena)
    (playable : arena.Playable roots here) {offset : Nat}
    (done : (childAt here offset (.branch (post.floor here + children.length))).run arena =
      .ok child arena') :
    arena'.Opening post here (children ++ [child]) ∧
      ∀ id, (arena.timeline id).position ≤ (arena'.timeline id).position := by
  have inside := sound.inside playable
  obtain ⟨limit, level⟩ := opening.poised.level
  have level' := level.childAt_branch sound playable done
  obtain ⟨taken, behind, rfl⟩ := childAt_ok done
  have found := Level.slot_claimed inside (.branch _) taken
  have slots {j : Nat} {other : TimelineId} (listed : children[j]? = some other) :=
    Level.list_withChild inside (.branch (post.floor here + children.length)) (opening.slots listed)
  have grown := opening.poised.withChild inside (post.floor here + children.length)
  have same := Level.position_withChild inside (.branch (post.floor here + children.length))
  have forest := (Arena.withChild_strides inside
    (.branch (post.floor here + children.length))).forest sound.forest
  rw [same, same, opening.poised.cursor] at behind
  generalize arena.withChild here (.branch (post.floor here + children.length)) = full at *
  have poised := grown.follow forest (Nat.le_add_right ..) found ⟨limit, level'⟩
  have other := (grown.apart grown.free (.inr ⟨_, Nat.le_add_right .., found⟩)).1
  have own : (full.adjust child (full.timeline here).follow).timeline here = full.timeline here :=
    timeline_adjust_ne _ full other
  have present := forest.lt_size (List.mem_append_left _ (List.mem_append_right roots
    (child_listed (Array.mem_of_getElem? found))))
  have position : ((full.timeline here).follow (full.timeline child)).position = post.clock := by
    rw [(Level.position_follow _).1, grown.cursor]
    rw [same, grown.cursor]
    exact behind
  refine ⟨⟨poised, fun {j id} listed => ?_, fun id member => ?_⟩, fun id => ?_⟩
  · rw [own]
    rw [List.getElem?_append] at listed
    split at listed
    · exact slots listed
    · next beyond =>
      obtain ⟨low, last⟩ := List.getElem?_eq_some_iff.mp listed
      have first : j = children.length := by
        simp only [List.length_singleton] at low
        omega
      subst first
      simp only [Nat.sub_self, List.getElem_singleton] at last
      exact last ▸ found
  · rw [timeline_adjust present]
    split
    · exact position
    · next different =>
      rcases List.mem_append.mp member with old | new
      · exact (same id).trans (opening.ready id old)
      · exact absurd (List.mem_singleton.mp new) different
  · rw [timeline_adjust present, ← same id]
    split
    · next own =>
      subst own
      rw [position, same]
      exact behind
    · exact Nat.le_refl _

/-- No child is refused. -/
theorem admits (opening : arena.Opening post here children) (inside : here < arena.timelines.size)
    {offset : Nat} {fault : Fault} :
    (childAt here offset (.branch (post.floor here + children.length))).run arena ≠
      .error fault arena' := by
  intro failed
  have ahead := childAt_error failed
  have found := Level.slot_claimed inside (.branch (post.floor here + children.length)) rfl
  have grown := opening.poised.withChild inside (post.floor here + children.length)
  have free := grown.apart grown.free (.inr ⟨_, Nat.le_add_right .., found⟩)
  have behind := grown.behind (Nat.le_add_right ..) found free.1 free.2
  exact Nat.not_le_of_lt ahead behind

/-- Nobody but its timeline owns a child that it has claimed. -/
theorem first (opening : arena.Opening post here children) (forest : Forest roots arena) :
    arena.Poised (post.opened here children arena) here := by
  have lower (parent : TimelineId) :
      post.floor parent ≤ (post.opened here children arena).floor parent := by
    unfold Post.opened
    dsimp only
    split
    · next same => exact same ▸ Nat.le_add_right ..
    · exact Nat.le_refl _
  have poised := opening.poised
  refine ⟨poised.level, poised.cursor, fun held => ?_, fun id held => ?_, id,
    fun active found other waits => ?_, fun {parent child} moves owned => ?_⟩
  · rcases List.mem_append.mp held with mine | old
    · exact (poised.apart poised.free (opening.owned mine)).1 rfl
    · exact poised.free old
  · rcases List.mem_append.mp held with mine | old
    · obtain ⟨j, -, found⟩ := opening.slot mine
      exact ⟨forest.lt_size (List.mem_append_left _ (List.mem_append_right roots
        (child_listed (Array.mem_of_getElem? found)))), rfl⟩
    · exact ⟨(poised.still id old).1, rfl⟩
  · exact poised.behind (Nat.le_trans (lower _) active) found other
      fun held => waits (List.mem_append_right children held)
  · have moves' : parent ∉ post.held := fun held => moves (List.mem_append_right children held)
    obtain ⟨other, free⟩ := poised.apart moves' (owned.closed (lower parent))
    refine ⟨other, fun held => (List.mem_append.mp held).elim (fun mine => ?_) free⟩
    obtain ⟨j, listed, found⟩ := opening.slot mine
    obtain ⟨rfl, active⟩ := owned.slot forest found
    have inside := (List.getElem?_eq_some_iff.mp listed).1
    simp only [Post.opened, if_pos] at active
    omega

/-- When the first branch has been played, its children are still where they were. -/
theorem closes (opening : arena.Opening post here children) (forest : Forest roots arena)
    (forest' : Forest roots' arena')
    (poised : arena'.Poised ((post.opened here children arena).after ticks) here) :
    arena'.Waits (post.after ticks) here children post.clock := by
  have before := opening.poised
  have held {id : TimelineId} (listed : id ∈ children ++ post.held) :
      arena'.timeline id = arena.timeline id := (poised.still id listed).2
  have slot {child : TimelineId} (member : child ∈ children) :
      ∃ i, post.floor here ≤ i ∧ (arena'.timeline here).children[i]? = some child := by
    obtain ⟨j, -, found⟩ := opening.slot member
    exact ⟨_, Nat.le_add_right .., poised.kept found⟩
  -- A child in a slot of the passage is one of the children that it has claimed.
  have claimed {i : Nat} {child : TimelineId} (found : (arena'.timeline here).children[i]? = some child)
      (active : post.floor here ≤ i) (low : i < post.floor here + children.length) :
      child ∈ children := by
    have inside : i - post.floor here < children.length := by omega
    have mine := poised.kept (opening.slots (List.getElem?_eq_getElem inside))
    rw [Nat.add_sub_cancel' active] at mine
    exact Option.some.inj (found.symm.trans mine) ▸ List.getElem_mem inside
  have high {i : Nat} {parent : TimelineId} (active : post.floor parent ≤ i)
      (beyond : parent = here → post.floor here + children.length ≤ i) :
      ((post.opened here children arena).after ticks).floor parent ≤ i := by
    simp only [Post.after, Post.opened]
    split
    · next same => exact beyond same
    · exact active
  refine ⟨⟨poised.level, poised.cursor, before.free, fun id listed => ?_,
    fun found => poised.kept (before.kept found), fun {parent child i} active found other waits => ?_,
    fun {parent child} moves owned => ?_⟩, opening.nodup forest, fun child => slot,
    fun child member => ?_⟩
  · obtain ⟨present, same⟩ := poised.still id (List.mem_append_right children listed)
    exact ⟨present, same.trans (before.still id listed).2⟩
  · by_cases mine : child ∈ children
    · obtain ⟨j, -, place⟩ := slot mine
      obtain ⟨rfl, -⟩ := forest'.parent_unique place found
      rw [held (List.mem_append_left _ mine), opening.ready child mine, poised.cursor]
      exact Nat.le_add_right ..
    · refine poised.behind (high active ?_) found other fun listed =>
        (List.mem_append.mp listed).elim mine waits
      rintro rfl
      exact Nat.le_of_not_lt fun low => mine (claimed found active low)
  · by_cases mine : parent ∈ children
    · exact before.apart moves (owned.same (held (List.mem_append_left _ mine)))
    · have moves' : parent ∉ children ++ post.held := fun listed =>
        (List.mem_append.mp listed).elim mine moves
      rcases owned with voice | ⟨i, active, found⟩
      · obtain ⟨other, free⟩ := poised.apart moves' (.inl voice)
        exact ⟨other, fun held => free (List.mem_append_right children held)⟩
      · by_cases low : parent = here ∧ i < post.floor here + children.length
        · obtain ⟨rfl, low⟩ := low
          exact before.apart before.free (opening.owned (claimed found active low))
        · obtain ⟨other, free⟩ := poised.apart moves' (.inr ⟨i, high active fun same =>
            Nat.le_of_not_lt fun less => low ⟨same, less⟩, found⟩)
          exact ⟨other, fun held => free (List.mem_append_right children held)⟩
  · rw [held (List.mem_append_left _ member)]
    exact opening.ready child member

end Opening

namespace Waits
variable {start : Nat} {others : List TimelineId}

/-- Which children are in use is known apart from the arena. -/
theorem settle (waits : arena.Waits post here others start) {f : Timeline → Timeline}
    (family : ∀ t, (f t).children = t.children ∧ (f t).voices = t.voices)
    (position : ∀ t, (f t).position = t.position) : (arena.adjust here f).Waits post here others start := by
  refine ⟨waits.poised.settle family position, waits.nodup, fun id listed => ?_, fun id listed => ?_⟩
  · obtain ⟨i, active, found⟩ := waits.slots id listed
    have inside := inside_of_mem rfl (Array.mem_of_getElem? found)
    rw [timeline_adjust_self here f arena inside, (family _).1]
    exact ⟨i, active, found⟩
  · have other : here ≠ id := by
      rintro rfl
      exact (waits.poised.apart waits.poised.free (.inr (waits.slots here listed))).1 rfl
    rw [timeline_adjust_ne f arena other]
    exact waits.ready id listed

theorem enter (waits : arena.Waits post here (child :: others) start) (forest : Forest roots arena) :
    arena.Poised (post.entered here others start arena) child := by
  have poised := waits.poised
  have owned {id : TimelineId} (listed : id ∈ child :: others) : arena.Owns post.floor here id :=
    .inr (waits.slots id listed)
  have listed {id : TimelineId} (held : id ∈ here :: others ++ post.held) :
      id = here ∨ id ∈ child :: others ∨ id ∈ post.held := by
    simp only [List.cons_append, List.mem_cons, List.mem_append] at held ⊢
    tauto
  obtain ⟨other, free⟩ := poised.apart poised.free (owned List.mem_cons_self)
  refine ⟨poised.level, waits.ready child List.mem_cons_self, fun held => ?_, fun id held => ?_, id,
    fun active found _ unheld => ?_, fun {parent id} moves mine => ?_⟩
  · simp only [Post.entered, List.cons_append, List.mem_cons, List.mem_append] at held
    rcases held with own | more | old
    · exact other own
    · exact (List.nodup_cons.mp waits.nodup).1 more
    · exact free old
  · refine ⟨?_, rfl⟩
    rcases listed held with rfl | claimed | old
    · obtain ⟨i, -, found⟩ := waits.slots child List.mem_cons_self
      exact inside_of_mem rfl (Array.mem_of_getElem? found)
    · obtain ⟨i, -, found⟩ := waits.slots id claimed
      exact forest.lt_size (List.mem_append_left _ (List.mem_append_right roots
        (child_listed (Array.mem_of_getElem? found))))
    · exact (poised.still id old).1
  · refine poised.behind active found (fun own => unheld (own ▸ List.mem_cons_self)) fun old => ?_
    exact unheld (List.mem_cons_of_mem here (List.mem_append_right others old))
  · have apart : id ∉ child :: others := fun claimed => by
      obtain ⟨i, -, found⟩ := waits.slots id claimed
      exact moves ((mine.slot forest found).1 ▸ List.mem_cons_self)
    have moves' : parent ∉ post.held := fun old =>
      moves (List.mem_cons_of_mem here (List.mem_append_right others old))
    obtain ⟨different, unheld⟩ := poised.apart moves' mine
    refine ⟨fun same => apart (same ▸ List.mem_cons_self), fun held => ?_⟩
    rcases listed held with own | claimed | old
    · exact different own
    · exact apart claimed
    · exact unheld old

/-- When a branch has lasted as long as the first one, its child has caught up. -/
theorem leave (waits : arena.Waits post here (child :: others) start) (forest' : Forest roots' arena')
    (even : start + ticks = post.clock)
    (poised : arena'.Poised ((post.entered here others start arena).after ticks) child) :
    arena'.Waits post here others start := by
  have before := waits.poised
  have held {id : TimelineId} (listed : id ∈ here :: others ++ post.held) :
      arena'.timeline id = arena.timeline id := (poised.still id listed).2
  have own : arena'.timeline here = arena.timeline here := held List.mem_cons_self
  have slot {id : TimelineId} (member : id ∈ child :: others) :
      ∃ i, post.floor here ≤ i ∧ (arena'.timeline here).children[i]? = some id := by
    obtain ⟨i, active, found⟩ := waits.slots id member
    exact ⟨i, active, poised.kept found⟩
  have other {id : TimelineId} (listed : id ∈ others) : arena'.timeline id = arena.timeline id :=
    held (List.mem_cons_of_mem here (List.mem_append_left _ listed))
  refine ⟨⟨poised.level, by rw [own, before.cursor], before.free, fun id listed => ?_,
    fun found => poised.kept (before.kept found), fun {parent id i} active found different unheld => ?_,
    fun {parent id} moves owned => ?_⟩, (List.nodup_cons.mp waits.nodup).2,
    fun id listed => slot (List.mem_cons_of_mem child listed), fun id listed => ?_⟩
  · obtain ⟨present, same⟩ := poised.still id
      (List.mem_cons_of_mem here (List.mem_append_right others listed))
    exact ⟨present, same.trans (before.still id listed).2⟩
  · by_cases claimed : id ∈ child :: others
    · obtain ⟨j, -, place⟩ := slot claimed
      obtain ⟨rfl, -⟩ := forest'.parent_unique place found
      rw [own, before.cursor]
      rcases List.mem_cons.mp claimed with rfl | listed
      · exact Nat.le_of_eq (poised.cursor.trans even)
      · rw [other listed, waits.ready id claimed]
        omega
    · obtain ⟨last, listed⟩ := not_or.mp (mt List.mem_cons.mpr claimed)
      refine poised.behind active found last fun held => ?_
      simp only [Post.after, Post.entered, List.cons_append, List.mem_cons, List.mem_append] at held
      rcases held with same | more | old
      · exact different same
      · exact listed more
      · exact unheld old
  · by_cases waiting : parent ∈ here :: others ++ post.held
    · exact before.apart moves (owned.same (held waiting))
    · obtain ⟨-, free⟩ := poised.apart waiting owned
      exact ⟨fun same => free (same ▸ List.mem_cons_self),
        fun old => free (List.mem_cons_of_mem here (List.mem_append_right others old))⟩
  · rw [other listed]
    exact waits.ready id (List.mem_cons_of_mem child listed)

end Waits
end TextScore.Arena
