import Mathlib.Data.List.Nodup
import Mathlib.Data.List.Pairwise
import TextScore.Proofs.ArenaSteps

/-! How far timelines get. Whatever is played moves a timeline on by the ticks it takes, and the voices
of an arpeggio never get ahead of the timeline that they belong to. -/
namespace TextScore

namespace Arena
variable {roots idle : List TimelineId} {arena arena' : Arena} {id here voice : TimelineId}
  {limit : Nat} {f : Timeline → Timeline}

/-- No cursor is beyond the limit, and no voice is ahead of its timeline. -/
structure Level (limit : Nat) (arena : Arena) : Prop where
  cursor : ∀ id, (arena.timeline id).position ≤ limit
  voices : ∀ id, ∀ voice ∈ (arena.timeline id).voices,
    (arena.timeline voice).position ≤ (arena.timeline id).position

section Forest
variable {list : Timeline → Array TimelineId} {other : TimelineId}

theorem inside_of_mem (none : list { channel := 0 } = #[]) (owned : id ∈ list (arena.timeline here)) :
    here < arena.timelines.size := by
  rcases Nat.lt_or_ge here arena.timelines.size with inside | out
  · exact inside
  · rw [timeline_out out, none] at owned
    exact absurd owned (Array.not_mem_empty id)

/-- What is listed once in all is listed once by each timeline. -/
theorem nodup_of_listed (none : list { channel := 0 } = #[]) (nodup : (arena.listed list).Nodup)
    (here : TimelineId) : (list (arena.timeline here)).toList.Nodup := by
  rw [listed_eq, List.nodup_flatMap] at nodup
  rcases Nat.lt_or_ge here arena.timelines.size with inside | out
  · exact nodup.1 here (List.mem_range.mpr inside)
  · rw [timeline_out out, none]
    exact List.nodup_nil

/-- What is listed once in all is listed by one timeline only. -/
theorem unique_of_listed (none : list { channel := 0 } = #[]) (nodup : (arena.listed list).Nodup)
    (owned : id ∈ list (arena.timeline here)) (shared : id ∈ list (arena.timeline other)) :
    other = here := by
  rw [listed_eq, List.nodup_flatMap] at nodup
  by_contra different
  have symmetric : Std.Symm (Function.onFun List.Disjoint fun id =>
      (list (arena.timeline id)).toList) := ⟨fun _ _ apart _ left right => apart right left⟩
  exact nodup.2.forall (List.mem_range.mpr (inside_of_mem none shared))
    (List.mem_range.mpr (inside_of_mem none owned)) different
    (Array.mem_toList_iff.mpr shared) (Array.mem_toList_iff.mpr owned)

theorem voice_listed (owned : voice ∈ (arena.timeline here).voices) : voice ∈ arena.voices :=
  mem_listed owned (inside_of_mem rfl owned)

theorem child_listed {child : TimelineId} (owned : child ∈ (arena.timeline here).children) :
    child ∈ arena.branches := mem_listed owned (inside_of_mem rfl owned)

namespace Forest

theorem nodup_voices (forest : Forest roots arena) : arena.voices.Nodup :=
  (List.nodup_append.mp forest.nodup).2.1

theorem nodup_branches (forest : Forest roots arena) : arena.branches.Nodup :=
  (List.nodup_append.mp (List.nodup_append.mp forest.nodup).1).2.1

/-- A timeline has every voice of it once. -/
theorem voices_nodup (forest : Forest roots arena) (here : TimelineId) :
    (arena.timeline here).voices.toList.Nodup := nodup_of_listed rfl forest.nodup_voices here

/-- A voice belongs to one timeline only. -/
theorem owner_unique (forest : Forest roots arena)
    (owned : voice ∈ (arena.timeline here).voices) (shared : voice ∈ (arena.timeline other).voices) :
    other = here := unique_of_listed rfl forest.nodup_voices owned shared

/-- A child belongs to one timeline only, and in one place. -/
theorem parent_unique (forest : Forest roots arena) {child : TimelineId} {i j : Nat}
    (owned : (arena.timeline here).children[i]? = some child)
    (shared : (arena.timeline other).children[j]? = some child) : other = here ∧ j = i := by
  obtain rfl := unique_of_listed rfl forest.nodup_branches (Array.mem_of_getElem? owned)
    (Array.mem_of_getElem? shared)
  refine ⟨rfl, ?_⟩
  have once := nodup_of_listed rfl forest.nodup_branches other
  rw [← Array.getElem?_toList] at owned shared
  exact (List.getElem?_inj (List.getElem?_eq_some_iff.mp shared).1 once).mp (shared.trans owned.symm)

/-- Children are neither voices nor roots. -/
theorem child_apart (forest : Forest roots arena) {child : TimelineId}
    (owned : child ∈ (arena.timeline here).children) : child ∉ arena.voices ∧ child ∉ roots := by
  have listed := child_listed owned
  refine ⟨forest.not_voice (List.mem_append_right roots listed), fun root => ?_⟩
  exact (List.nodup_append.mp (List.nodup_append.mp forest.nodup).1).2.2 child root child listed rfl

end Forest

end Forest

namespace Level

theorem mono (level : arena.Level limit) {further : Nat} (more : limit ≤ further) :
    arena.Level further := ⟨fun id => Nat.le_trans (level.cursor id) more, level.voices⟩

/-- A timeline that is no voice may move on up to the limit. -/
theorem adjust (level : arena.Level limit) (free : id ∉ arena.voices)
    (voices : (f (arena.timeline id)).voices = (arena.timeline id).voices)
    (onward : (arena.timeline id).position ≤ (f (arena.timeline id)).position)
    (short : (f (arena.timeline id)).position ≤ limit) : (arena.adjust id f).Level limit := by
  rcases Nat.lt_or_ge id arena.timelines.size with inside | out
  · refine ⟨fun other => ?_, fun other voice owned => ?_⟩
    · rw [timeline_adjust inside]
      split
      · exact short
      · exact level.cursor other
    · rw [timeline_adjust inside] at owned
      have owned : voice ∈ (arena.timeline other).voices := by
        split at owned
        · next same => exact same ▸ voices ▸ owned
        · exact owned
      have different : voice ≠ id := fun same => free (same ▸ voice_listed owned)
      have before := level.voices other voice owned
      rw [timeline_adjust inside, timeline_adjust inside, if_neg different]
      split
      · next same => exact Nat.le_trans (same ▸ before) onward
      · exact before
  · rw [adjust_out out]
    exact level

/-- A voice may move on up to the cursor of its timeline. -/
theorem adjust_voice (level : arena.Level limit) (forest : Forest roots arena)
    (owned : voice ∈ (arena.timeline here).voices)
    (voices : (f (arena.timeline voice)).voices = (arena.timeline voice).voices)
    (onward : (arena.timeline voice).position ≤ (f (arena.timeline voice)).position)
    (behind : (f (arena.timeline voice)).position ≤ (arena.timeline here).position) :
    (arena.adjust voice f).Level limit := by
  have inside : voice < arena.timelines.size :=
    forest.lt_size (List.mem_append_right _ (voice_listed owned))
  refine ⟨fun other => ?_, fun other child listed => ?_⟩
  · rw [timeline_adjust inside]
    split
    · exact Nat.le_trans behind (level.cursor here)
    · exact level.cursor other
  · rw [timeline_adjust inside] at listed
    have held : child ∈ (arena.timeline other).voices := by
      split at listed
      · next same => exact same ▸ voices ▸ listed
      · exact listed
    have before := level.voices other child held
    rw [timeline_adjust inside, timeline_adjust inside]
    split
    · next same =>
      -- The voice itself has moved: it belongs to one timeline only, an older one.
      subst same
      obtain rfl := forest.owner_unique owned held
      have older := forest.younger other child (.inr held)
      rw [if_neg (Nat.ne_of_lt older)]
      exact behind
    · split
      · next same => exact Nat.le_trans (same ▸ before) onward
      · exact before

/-- Anything may happen to a timeline that moves neither it nor its voices. -/
theorem still (level : arena.Level limit)
    (voices : (f (arena.timeline id)).voices = (arena.timeline id).voices)
    (position : (f (arena.timeline id)).position = (arena.timeline id).position) :
    (arena.adjust id f).Level limit := by
  rcases Nat.lt_or_ge id arena.timelines.size with inside | out
  · have same (other : TimelineId) :
        ((arena.adjust id f).timeline other).position = (arena.timeline other).position ∧
        ((arena.adjust id f).timeline other).voices = (arena.timeline other).voices := by
      rw [timeline_adjust inside]
      split
      · next here =>
        subst here
        exact ⟨position, voices⟩
      · exact ⟨rfl, rfl⟩
    refine ⟨fun other => (same other).1 ▸ level.cursor other, fun other voice owned => ?_⟩
    rw [(same other).1, (same voice).1]
    exact level.voices other voice ((same other).2 ▸ owned)
  · rw [adjust_out out]
    exact level

theorem create (level : arena.Level limit) (channel : Nat) :
    (arena.create channel).2.Level limit := by
  refine ⟨fun other => ?_, fun other voice owned => ?_⟩
  · rw [timeline_create]
    split
    · exact Nat.zero_le limit
    · exact level.cursor other
  · rw [timeline_create] at owned
    split at owned
    · exact absurd owned (Array.not_mem_empty voice)
    · next old =>
      rw [timeline_create, timeline_create, if_neg old]
      split
      · exact Nat.zero_le _
      · exact level.voices other voice owned

theorem position_addChild (inside : here < arena.timelines.size) (slot : Slot) (id : TimelineId) :
    ((arena.addChild here slot).timeline id).position = (arena.timeline id).position := by
  rw [timeline_addChild inside]
  split
  · next same => cases slot <;> exact same ▸ rfl
  · split
    · next new => rw [timeline_out (Nat.le_of_eq new.symm)]
    · rfl

theorem addChild (level : arena.Level limit) (inside : here < arena.timelines.size) (slot : Slot) :
    (arena.addChild here slot).Level limit := by
  refine ⟨fun other => ?_, fun other voice owned => ?_⟩
  · rw [position_addChild inside]
    exact level.cursor other
  · rw [position_addChild inside, position_addChild inside]
    rw [timeline_addChild inside] at owned
    split at owned
    · next same =>
      subst same
      cases slot with
      | branch => exact level.voices other voice owned
      | voice =>
        rcases Array.mem_push.mp owned with old | rfl
        · exact level.voices other voice old
        · rw [timeline_out (Nat.le_refl _)]
          exact Nat.zero_le _
    · split at owned
      · exact absurd owned (Array.not_mem_empty voice)
      · exact level.voices other voice owned

theorem position_withChild (inside : here < arena.timelines.size) (slot : Slot) (id : TimelineId) :
    ((arena.withChild here slot).timeline id).position = (arena.timeline id).position :=
  withChild_rule inside slot rfl fun inside same => (position_addChild inside slot id).trans same

theorem withChild (level : arena.Level limit) (inside : here < arena.timelines.size) (slot : Slot) :
    (arena.withChild here slot).Level limit :=
  withChild_rule inside slot level fun inside level => level.addChild inside slot

theorem position_follow {parent child : Timeline} (behind : child.position ≤ parent.position) :
    (parent.follow child).position = parent.position ∧ (parent.follow child).voices = child.voices := by
  unfold Timeline.follow Timeline.pad
  split
  · exact ⟨by dsimp only; omega, rfl⟩
  · exact ⟨by simp only [Timeline.trail]; omega, rfl⟩

/-- A branch catches up with its parent. -/
theorem childAt_branch (level : arena.Level limit) (sound : Sound roots idle arena)
    (playable : arena.Playable roots here) {offset index : Nat}
    (done : (childAt here offset (.branch index)).run arena = .ok id arena') :
    arena'.Level limit := by
  have inside := sound.inside playable
  obtain ⟨taken, behind, rfl⟩ := childAt_ok done
  have grown := level.withChild inside (.branch index)
  have branch := sound.withBranch inside index
  have claimed : (arena.withChild here (.branch index)).Playable roots id :=
    List.mem_append_right roots (taken ▸ withChild_mem inside (.branch index))
  obtain ⟨position, voices⟩ := position_follow behind
  refine grown.adjust (branch.forest.not_voice claimed) voices ?_ ?_
  · rw [position]
    exact behind
  · rw [position]
    exact grown.cursor here

end Level

/-- Voices of a timeline that have been claimed, from a place in its list on: the timeline has not
moved, and they have caught up with it. -/
structure Claimed (limit : Nat) (here : TimelineId) (first : Nat) (claimed : List TimelineId)
    (arena arena' : Arena) : Prop where
  level : arena'.Level limit
  position : (arena'.timeline here).position = (arena.timeline here).position
  ready : ∀ voice ∈ claimed, (arena'.timeline voice).position = (arena.timeline here).position
  still : ∀ id, id ∉ claimed → (arena'.timeline id).position = (arena.timeline id).position
  kept : ∀ (i : Nat) (voice : TimelineId), (arena.timeline here).voices[i]? = some voice →
    (arena'.timeline here).voices[i]? = some voice
  slots : ∀ (k : Nat) (voice : TimelineId), claimed[k]? = some voice →
    (arena'.timeline here).voices[first + k]? = some voice

namespace Claimed
variable {claimed : List TimelineId} {first : Nat}

theorem none (level : arena.Level limit) : Claimed limit here first [] arena arena where
  level := level
  position := rfl
  ready := nofun
  still _ _ := rfl
  kept _ _ := id
  slots _ _ := nofun

theorem cons {middle : Arena} (one : Claimed limit here first [id] arena middle)
    (more : Claimed limit here (first + 1) claimed middle arena') :
    Claimed limit here first (id :: claimed) arena arena' where
  level := more.level
  position := more.position.trans one.position
  ready voice listed := by
    by_cases again : voice ∈ claimed
    · exact (more.ready voice again).trans one.position
    · obtain rfl := (List.mem_cons.mp listed).resolve_right again
      exact (more.still voice again).trans (one.ready voice List.mem_cons_self)
  still other unlisted := by
    obtain ⟨different, unlisted⟩ := not_or.mp (mt List.mem_cons.mpr unlisted)
    exact (more.still other unlisted).trans
      (one.still other (mt List.mem_singleton.mp different))
  kept i voice found := more.kept i voice (one.kept i voice found)
  slots k voice found := by
    cases k with
    | zero => exact more.kept first voice (one.slots 0 voice found)
    | succ k =>
      have next := more.slots k voice found
      rwa [Nat.add_right_comm] at next

/-- They belong to the timeline, and no two of them are the same. -/
theorem nodup (taken : Claimed limit here first claimed arena arena')
    (forest : Forest roots arena') : claimed.Nodup ∧
      ∀ voice ∈ claimed, voice ∈ (arena'.timeline here).voices := by
  constructor
  · rw [List.nodup_iff_getElem?_ne_getElem?]
    intro i j less last same
    have found : claimed[j]? = some claimed[j] := List.getElem?_eq_getElem last
    have left := taken.slots i _ (same.trans found)
    have right := taken.slots j _ found
    have distinct := forest.voices_nodup here
    rw [List.nodup_iff_getElem?_ne_getElem?] at distinct
    rw [← Array.getElem?_toList] at left right
    obtain ⟨there, -⟩ := List.getElem?_eq_some_iff.mp right
    exact distinct (first + i) (first + j) (by omega) there (left.trans right.symm)
  · intro voice listed
    obtain ⟨k, found⟩ := List.mem_iff_getElem?.mp listed
    exact Array.mem_of_getElem? (taken.slots k voice found)

end Claimed

namespace Level

theorem list_withChild (inside : here < arena.timelines.size) (slot : Slot) {i : Nat}
    (found : (slot.list (arena.timeline here))[i]? = some id) :
    (slot.list ((arena.withChild here slot).timeline here))[i]? = some id :=
  withChild_rule inside slot found fun inside kept => by
    obtain ⟨there, -⟩ := Array.getElem?_eq_some_iff.mp kept
    rw [timeline_addChild inside, if_pos rfl]
    cases slot <;>
      exact (Array.getElem?_push_lt there).trans (Array.getElem?_eq_getElem there ▸ kept)

theorem slot_claimed (inside : here < arena.timelines.size) (slot : Slot)
    (taken : ((slot.list ((arena.withChild here slot).timeline here))[slot.index]?).getD 0 = id) :
    (slot.list ((arena.withChild here slot).timeline here))[slot.index]? = some id := by
  have size := (size_list_repeat inside slot
    (slot.index + 1 - (slot.list (arena.timeline here)).size)).2
  have filled : slot.index < (slot.list ((arena.withChild here slot).timeline here)).size := by
    simp only [Arena.withChild] at size ⊢
    omega
  rw [Array.getElem?_eq_getElem filled] at taken ⊢
  exact congrArg some taken

/-- Another voice is claimed. -/
theorem childAt_voice (level : arena.Level limit) (forest : Forest roots arena)
    (inside : here < arena.timelines.size) {offset index : Nat}
    (done : (childAt here offset (.voice index)).run arena = .ok id arena') :
    Claimed limit here index [id] arena arena' := by
  obtain ⟨taken, behind, rfl⟩ := childAt_ok done
  have grown := level.withChild inside (.voice index)
  have same := position_withChild inside (.voice index)
  have path := withChild_strides inside (.voice index)
  have found := slot_claimed inside (.voice index) taken
  have kept (i : Nat) (voice : TimelineId) (known : (arena.timeline here).voices[i]? = some voice) :=
    list_withChild inside (.voice index) known
  generalize arena.withChild here (.voice index) = full at *
  have forest := path.forest forest
  have owned := Array.mem_of_getElem? found
  have present := forest.lt_size (List.mem_append_right _ (voice_listed owned))
  have younger : here ≠ id := Nat.ne_of_lt (forest.younger here id (.inr owned))
  obtain ⟨position, voices⟩ := position_follow behind
  have rest (other : TimelineId) (different : other ≠ id) :
      (full.adjust id (full.timeline here).follow).timeline other = full.timeline other :=
    timeline_adjust_ne _ _ (Ne.symm different)
  refine ⟨grown.adjust_voice forest owned voices ?_ (Nat.le_of_eq position), ?_, ?_, ?_, ?_, ?_⟩
  · rw [position]
    exact behind
  · rw [rest here younger, same]
  · intro voice listed
    obtain rfl := List.mem_singleton.mp listed
    rw [timeline_adjust_self _ _ _ present, position, same]
  · intro other unlisted
    rw [rest other (mt List.mem_singleton.mpr unlisted), same]
  · intro i voice known
    rw [rest here younger]
    exact kept i voice known
  · intro k voice known
    rw [rest here younger]
    cases k with
    | zero =>
      cases known
      exact found
    | succ k => exact nomatch known

theorem claimVoices (level : arena.Level limit) (forest : Forest roots arena)
    (inside : here < arena.timelines.size) {offset count : Nat} {claimed : List TimelineId}
    (done : (Arena.claimVoices here offset count).run arena = .ok claimed arena') :
    Claimed limit here 0 claimed arena arena' ∧ arena.Strides arena' ∧ claimed.length = count := by
  have each (count first : Nat) {arena arena' : Arena} {claimed : List TimelineId}
      (level : arena.Level limit) (forest : Forest roots arena)
      (inside : here < arena.timelines.size)
      (done : ((List.range' first count).mapM fun i => childAt here offset (.voice i)).run arena =
        .ok claimed arena') : Claimed limit here first claimed arena arena' ∧
        arena.Strides arena' ∧ claimed.length = count := by
    induction count generalizing first arena claimed with
    | zero =>
      cases done
      exact ⟨.none level, .refl, rfl⟩
    | succ count ih =>
      rw [List.range'_succ, List.mapM_cons] at done
      obtain ⟨voice, middle, one, done⟩ := Step.bind_ok done
      obtain ⟨rest, last, done, ended⟩ := Step.bind_ok done
      cases ended
      have first := level.childAt_voice forest inside one
      have path : arena.Strides middle := by
        obtain ⟨-, -, rfl⟩ := childAt_ok one
        exact (withChild_strides inside _).trans (adjust_strides _ (Timeline.follow_strides ..))
      obtain ⟨more, path', length⟩ := ih _ first.level (path.forest forest)
        (Nat.lt_of_lt_of_le inside path.grows.size) done
      exact ⟨first.cons more, path.trans path', congrArg (· + 1) length⟩
  rw [Arena.claimVoices, List.range_eq_range'] at done
  exact each count 0 level forest inside done

/-- What happens to voices one after the other, each of which moves on up to the cursor of their
timeline. -/
theorem adjust_voices (level : arena.Level limit) (forest : Forest roots arena)
    {moves : List (TimelineId × (Timeline → Timeline))} (nodup : (moves.map Prod.fst).Nodup)
    (owned : ∀ voice ∈ moves.map Prod.fst, voice ∈ (arena.timeline here).voices)
    (strides : ∀ move ∈ moves,
      (arena.timeline move.1).Strides (move.2 (arena.timeline move.1)))
    (onward : ∀ move ∈ moves,
      (arena.timeline move.1).position ≤ (move.2 (arena.timeline move.1)).position ∧
      (move.2 (arena.timeline move.1)).position ≤ (arena.timeline here).position) :
    (moves.foldl (fun arena move => arena.adjust move.1 move.2) arena).Level limit := by
  induction moves generalizing arena with
  | nil => exact level
  | cons move moves ih =>
    obtain ⟨unlisted, nodup⟩ := List.nodup_cons.mp nodup
    have mine := owned move.1 List.mem_cons_self
    have younger : here ≠ move.1 := Nat.ne_of_lt (forest.younger here move.1 (.inr mine))
    have stride := strides move List.mem_cons_self
    obtain ⟨low, high⟩ := onward move List.mem_cons_self
    have rest (other : TimelineId) (different : other ≠ move.1) :
        (arena.adjust move.1 move.2).timeline other = arena.timeline other :=
      timeline_adjust_ne _ _ (Ne.symm different)
    have others : ∀ other ∈ moves, other.1 ≠ move.1 := fun other listed same =>
      unlisted (same ▸ List.mem_map_of_mem listed)
    refine ih (level.adjust_voice forest mine stride.family.2 low high)
      ((adjust_strides move.1 stride).forest forest) nodup (fun voice listed => ?_)
      (fun other listed => ?_) fun other listed => ?_
    · rw [rest here younger]
      exact owned voice (List.mem_cons_of_mem _ listed)
    · rw [rest other.1 (others other listed)]
      exact strides other (List.mem_cons_of_mem move listed)
    · rw [rest other.1 (others other listed), rest here younger]
      exact onward other (List.mem_cons_of_mem move listed)

theorem playVoices_eq (play : (delay pitch : Nat) → Timeline → Timeline) (interval delay : Nat)
    (pairs : List (TimelineId × Nat)) (arena : Arena) :
    playVoices play interval delay pairs arena =
      (pairs.mapIdx fun i pair => (pair.1, play (delay + interval * i) pair.2)).foldl
        (fun arena move => arena.adjust move.1 move.2) arena := by
  induction pairs generalizing delay arena with
  | nil => rfl
  | cons pair pairs ih =>
    simp only [playVoices, List.mapIdx_cons, List.foldl_cons, Nat.mul_zero, Nat.add_zero, ih,
      Nat.mul_succ, Nat.add_assoc, Nat.add_comm interval]

theorem position_playVoice {offset held velocity rest delay pitch : Nat} (early : delay ≤ held)
    (t : Timeline) :
    (playVoice offset held velocity rest delay pitch t).position = t.position + held + rest := by
  have padded : (t.pad delay).position = t.position + delay := by
    unfold Timeline.pad
    split
    · omega
    · rfl
  simp only [playVoice, Timeline.trail, Timeline.pushNote, padded]
  omega

theorem position_lengthenLast (ticks : Nat) (t : Timeline) :
    (t.lengthenLast ticks).position = t.position + ticks := by
  unfold Timeline.lengthenLast
  split <;> rfl

/-- Voices of a timeline that has moved on may be lengthened as much. -/
theorem lengthenVoices (level : arena.Level limit) (here : TimelineId)
    (sound : Sound roots [] arena) {voices : List TimelineId} {ticks : Nat}
    (some : List.Sublist voices (arena.timeline here).voices.toList)
    (behind : ∀ voice ∈ voices,
      (arena.timeline voice).position + ticks ≤ (arena.timeline here).position) :
    (arena.adjustAll voices (·.lengthenLast ticks)).Level limit := by
  let moves := voices.map fun voice => (voice, Timeline.lengthenLast ticks)
  have fold : arena.adjustAll voices (·.lengthenLast ticks) =
      moves.foldl (fun arena move => arena.adjust move.1 move.2) arena := by
    simp only [moves, List.foldl_map]
    rfl
  have ids : moves.map Prod.fst = voices := by
    simp only [moves, List.map_map, Function.comp_def, List.map_id_fun', id]
  have owned (voice : TimelineId) (listed : voice ∈ voices) :
      voice ∈ (arena.timeline here).voices := Array.mem_toList_iff.mp (some.subset listed)
  rw [fold]
  refine level.adjust_voices sound.forest (ids ▸ some.nodup (sound.forest.voices_nodup here))
    (ids ▸ owned) (fun move listed => ?_) fun move listed => ?_
  · obtain ⟨voice, member, rfl⟩ := List.mem_map.mp listed
    obtain ⟨index, last⟩ := sound.voiced voice (voice_listed (owned voice member)) List.not_mem_nil
    simp only [Timeline.lengthenLast, last]
    exact .single (.lengthen ticks last)
  · obtain ⟨voice, member, rfl⟩ := List.mem_map.mp listed
    rw [position_lengthenLast]
    exact ⟨Nat.le_add_right .., behind voice member⟩

/-- A tie moves a timeline on by its ticks, and the voices that it lengthens. -/
theorem tie (level : arena.Level limit) (sound : Sound roots [] arena)
    (playable : arena.Playable roots here) {offset ticks : Nat}
    (done : (Arena.tie here offset).run arena = .ok ticks arena')
    (room : (arena.timeline here).position + ticks ≤ limit) : arena'.Level limit := by
  have inside := sound.inside playable
  have free := sound.forest.not_voice playable
  obtain ⟨extra, tuned, calibrated, -, ties⟩ := tie_ok inside done
  have still := Timeline.calibrate_still (arena.timeline here).state.quantization (arena.timeline here)
  rw [calibrated] at still
  have moved {f : Timeline → Timeline} (position : (f tuned).position = tuned.position + ticks)
      (voices : (f tuned).voices = tuned.voices) : (arena.adjust here fun _ => f tuned).Level limit := by
    refine level.adjust free (voices.trans still.voices) ?_ ?_
    · exact (position.trans (congrArg (· + ticks) still.position)) ▸ Nat.le_add_right ..
    · exact (position.trans (congrArg (· + ticks) still.position)) ▸ room
  cases ties with
  | note => exact moved rfl rfl
  | rest => exact moved rfl rfl
  | arpeggio last =>
    have trailed : (arena.adjust here fun _ => tuned.trail ticks).Level limit := moved rfl rfl
    have sound' := (sound.adjust_playable playable (f := fun _ => tuned.trail ticks)
      (still.strides.trans (Timeline.trail_strides ticks tuned))).2
    have after : (arena.adjust here fun _ => tuned.trail ticks).timeline here = tuned.trail ticks :=
      timeline_adjust_self here _ arena inside
    refine trailed.lengthenVoices here sound'
      (by rw [after]; exact List.take_sublist ..) fun voice listed => ?_
    have owned : voice ∈ (arena.timeline here).voices :=
      still.voices ▸ Array.mem_toList_iff.mp (List.mem_of_mem_take listed)
    have younger := Nat.ne_of_lt (sound.forest.younger here voice (.inr owned))
    rw [after, timeline_adjust_ne _ _ younger]
    exact Nat.add_le_add_right (still.position ▸ level.voices here voice owned) ticks

theorem position_pushNotes (offset : Nat) (drafts : List Draft) (t : Timeline) :
    (t.pushNotes offset drafts).position = t.position + Draft.sum Draft.duration drafts := by
  induction drafts generalizing t with
  | nil => rfl
  | cons draft drafts ih =>
    have rest := ih (t.pushNote offset false draft)
    simp only [Timeline.pushNotes, List.foldl_cons, Draft.sum] at rest ⊢
    rw [rest, Timeline.pushNote]
    dsimp only
    omega

/-- Each pitch of a chord goes to a voice of its own. -/
theorem playVoices (level : arena.Level limit) (here : TimelineId) (start : Nat)
    (forest : Forest roots arena) {offset held velocity rest interval : Nat}
    {pairs : List (TimelineId × Nat)}
    (nodup : (pairs.map Prod.fst).Nodup)
    (owned : ∀ voice ∈ pairs.map Prod.fst, voice ∈ (arena.timeline here).voices)
    (ready : ∀ voice ∈ pairs.map Prod.fst, (arena.timeline voice).position = start)
    (stop : start + held + rest ≤ (arena.timeline here).position)
    (early : interval * (pairs.length - 1) ≤ held) :
    (Arena.playVoices (playVoice offset held velocity rest) interval 0 pairs arena).Level limit := by
  rw [playVoices_eq]
  have ids : (pairs.mapIdx fun i pair => (pair.1,
      playVoice offset held velocity rest (0 + interval * i) pair.2)).map Prod.fst =
        pairs.map Prod.fst := by
    refine List.ext_getElem? fun i => ?_
    simp only [List.getElem?_map, List.getElem?_mapIdx, Option.map_map, Function.comp_def]
  refine level.adjust_voices forest (ids ▸ nodup) (ids ▸ owned) (fun move listed => ?_)
    fun move listed => ?_
  · obtain ⟨i, inside, rfl⟩ := List.mem_mapIdx.mp listed
    exact playVoice_strides ..
  · obtain ⟨i, inside, rfl⟩ := List.mem_mapIdx.mp listed
    have last : interval * i ≤ interval * (pairs.length - 1) := Nat.mul_le_mul_left _ (by omega)
    have known := ready _ (List.mem_map_of_mem (List.getElem_mem inside))
    dsimp only
    rw [position_playVoice (by omega), known]
    omega

/-- A chord sounds on the voices that have been claimed for it, while their timeline is silent for
as long. -/
theorem soundClaimed (level : arena.Level limit) (sound : Sound roots [] arena)
    (playable : arena.Playable roots here) {offset held velocity rest interval : Nat}
    {pitches : List Nat} {voices : List TimelineId}
    (claimed : (Arena.claimVoices here offset pitches.length).run arena = .ok voices arena')
    (long : interval * (pitches.length - 1) < held)
    (room : (arena.timeline here).position + (held + rest) ≤ limit) :
    (Arena.playVoices (playVoice offset held velocity rest) interval 0 (voices.zip pitches)
      (arena'.adjust here fun t =>
        { t.trail (held + rest) with last := .arpeggio pitches.length })).Level limit := by
  obtain ⟨taken, path, length⟩ :=
    level.claimVoices sound.forest (sound.inside playable) claimed
  have forest := path.forest sound.forest
  have inside := Nat.lt_of_lt_of_le (sound.inside playable) path.grows.size
  have free := forest.not_voice (playable.grows path.grows)
  obtain ⟨nodup, owned⟩ := taken.nodup forest
  have ids : (voices.zip pitches).map Prod.fst = voices := List.map_fst_zip (Nat.le_of_eq length)
  have silent := taken.level.adjust free
    (f := fun t => { t.trail (held + rest) with last := .arpeggio pitches.length }) rfl
    (Nat.le_add_right ..) (by simp only [Timeline.trail, taken.position]; exact room)
  have after := timeline_adjust_self here (fun t =>
    { t.trail (held + rest) with last := .arpeggio pitches.length }) arena' inside
  refine silent.playVoices here (arena'.timeline here).position (forest.adjust rfl rfl)
    ?_ ?_ ?_ ?_ ?_
  · rw [ids]
    exact nodup
  · rw [ids, after]
    exact owned
  · rw [ids]
    intro voice listed
    have younger := Nat.ne_of_lt (forest.younger here voice (.inr (owned voice listed)))
    rw [timeline_adjust_ne _ _ younger, taken.ready voice listed, taken.position]
  · rw [after]
    simp only [Timeline.trail]
    omega
  · rw [List.length_zip, length, Nat.min_self]
    omega

/-- An arpeggio moves a timeline on by what is staged and what its tuplet owes, and so do its
voices. -/
theorem commitArpeggio (level : arena.Level limit) (sound : Sound roots [] arena)
    (playable : arena.Playable roots here) {offset interval ticks : Nat} {staged : Staged}
    (done : (Arena.commitArpeggio here offset staged interval).run arena = .ok ticks arena')
    (room : (arena.timeline here).position + staged.ticks +
      ((arena.timeline here).calibrate staged.ticks).1 ≤ limit) : arena'.Level limit := by
  have inside := sound.inside playable
  have free := sound.forest.not_voice playable
  obtain ⟨extra, tuned, calibrated, -, arpeggiates⟩ := commitArpeggio_ok done
  have still := Timeline.calibrate_still staged.ticks (arena.timeline here)
  rw [calibrated] at still room
  have position := still.position
  dsimp only at position room
  cases arpeggiates with
  | graces only =>
    have moved := position_pushNotes offset staged.notes tuned
    have family := (Timeline.pushNotes_strides offset staged.notes tuned).family.2
    simp only [Staged.ticks] at room
    refine level.adjust free (family.trans still.voices) ?_ ?_
    · simp only [Timeline.trail]
      omega
    · simp only [Timeline.trail]
      omega
  | @chord graces mains chord held rest voices middle parted total long claimed =>
    have moved := position_pushNotes offset graces tuned
    have shared : Draft.sum Draft.duration graces + Draft.sum Draft.duration (chord :: mains) =
        Draft.sum Draft.duration staged.notes := Draft.sum_partition parted
    simp only [Staged.ticks] at room
    obtain ⟨path, sound'⟩ := sound.adjust_playable playable
      (f := fun _ => tuned.pushNotes offset graces)
      (still.strides.trans (Timeline.pushNotes_strides ..))
    have family := (Timeline.pushNotes_strides offset graces tuned).family.2
    have graced := level.adjust free (f := fun _ => tuned.pushNotes offset graces)
      (family.trans still.voices) (by omega) (by omega)
    refine graced.soundClaimed sound' (playable.grows path.grows) claimed long ?_
    rw [timeline_adjust_self _ _ _ inside]
    omega

end Level
end Arena

namespace Timeline
variable {t : Timeline}

theorem ticks_extend (extra : Nat) (staged : Staged) :
    (extend extra staged).ticks = staged.ticks + extra := by
  unfold extend
  split
  · next none => rw [none, Nat.add_zero]
  · split
    · next silent last =>
      have split : Draft.sum Draft.duration staged.notes = _ :=
        congrArg (Draft.sum Draft.duration) (List.dropLast_append_getLast? _ last).symm
      simp only [Staged.ticks, split, Draft.sum_append, Draft.sum]
      omega
    · exact (Nat.add_assoc ..).symm

theorem sum_sounding (drafts : List Draft) :
    Draft.sum Draft.duration (drafts.filter (0 < ·.duration)) = Draft.sum Draft.duration drafts := by
  induction drafts with
  | nil => rfl
  | cons draft drafts ih =>
    rw [List.filter_cons]
    split
    · exact congrArg (draft.duration + ·) ih
    · next silent =>
      have silent : draft.duration = 0 := by simpa using silent
      rw [Draft.sum, silent, Nat.zero_add]
      exact ih

/-- What is committed moves the cursor on by its length and what a tuplet owes for it. -/
theorem position_commit (offset : Nat) (staged : Staged) (t : Timeline) :
    (t.commit offset staged).2.position =
      t.position + staged.ticks + (t.calibrate staged.ticks).1 := by
  have extended := ticks_extend (t.calibrate staged.ticks).1 staged
  simp only [commit, trail, Arena.Level.position_pushNotes, sum_sounding]
  rw [(calibrate_still staged.ticks t).position, Nat.add_assoc, Nat.add_assoc, ← extended]
  rfl

/-- Changes that play nothing leave the cursor alone. -/
theorem Change.position {f : Timeline → Timeline} (change : Change f) (t : Timeline) :
    (f t).position = t.position ∧ (f t).voices = t.voices := by
  cases change with
  | bends bends =>
    have still := addBends_still bends t
    exact ⟨still.position, still.voices⟩
  | _ => exact ⟨rfl, rfl⟩

end Timeline
end TextScore
