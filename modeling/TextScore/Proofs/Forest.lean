import Mathlib.Data.List.Perm.Basic
import TextScore.Proofs.Log

/-! The forest of timelines. Channels start its roots; every other timeline is listed by one older
timeline, as a branch or as a voice. An arena changes in strides: one timeline strides on, or one
more is listed. -/
namespace TextScore.Arena
open Relation (ReflTransGen)
variable {roots : List TimelineId} {arena arena' : Arena} {id parent : TimelineId}

/-- What a kind of list holds in all timelines together. -/
def listed (list : Timeline → Array TimelineId) (arena : Arena) : List TimelineId :=
  arena.timelines.toList.flatMap fun t => (list t).toList

abbrev branches : Arena → List TimelineId := listed Timeline.children

abbrev voices : Arena → List TimelineId := listed Timeline.voices

/-- Every timeline is a root, a branch or a voice of one timeline only, and of an older one. -/
structure Forest (roots : List TimelineId) (arena : Arena) : Prop where
  once : (roots ++ arena.branches ++ arena.voices).Perm (List.range arena.timelines.size)
  younger : ∀ parent child, child ∈ (arena.timeline parent).children ∨
    child ∈ (arena.timeline parent).voices → parent < child

/-- One timeline strides on, or gets another child. -/
inductive Stride (arena : Arena) : Arena → Prop
  | within {id : TimelineId} {f : Timeline → Timeline}
    (strides : (arena.timeline id).Strides (f (arena.timeline id))) : Stride arena (arena.adjust id f)
  | child {parent : TimelineId} (slot : Slot) (inside : parent < arena.timelines.size) :
    Stride arena (arena.addChild parent slot)

abbrev Strides : Arena → Arena → Prop := ReflTransGen Stride

theorem adjust_strides (id : TimelineId) {f : Timeline → Timeline}
    (strides : (arena.timeline id).Strides (f (arena.timeline id))) :
    arena.Strides (arena.adjust id f) :=
  .single (.within strides)

theorem size_adjust (id : TimelineId) (f : Timeline → Timeline) (arena : Arena) :
    (arena.adjust id f).timelines.size = arena.timelines.size :=
  Array.size_modify

theorem size_addChild (parent : TimelineId) (slot : Slot) (arena : Arena) :
    (arena.addChild parent slot).timelines.size = arena.timelines.size + 1 :=
  (size_adjust ..).trans (Array.size_push _)

theorem timeline_adjust (inside : id < arena.timelines.size) (f : Timeline → Timeline)
    (other : TimelineId) : (arena.adjust id f).timeline other =
      if other = id then f (arena.timeline id) else arena.timeline other := by
  split
  · next same => rw [same, timeline_adjust_self id f arena inside]
  · next different => exact timeline_adjust_ne f arena (Ne.symm different)

theorem timeline_adjust_or (id other : TimelineId) (f : Timeline → Timeline) (arena : Arena) :
    (arena.adjust id f).timeline other =
      if other = id ∧ id < arena.timelines.size then f (arena.timeline id)
      else arena.timeline other := by
  by_cases inside : id < arena.timelines.size
  · simp only [timeline_adjust inside, inside, and_true]
  · rw [adjust_out (Nat.le_of_not_lt inside), if_neg fun both => inside both.2]

theorem timeline_create (channel : Nat) (arena : Arena) (other : TimelineId) :
    (arena.create channel).2.timeline other =
      if other = arena.timelines.size then { channel := channel } else arena.timeline other := by
  simp only [create, timeline, Array.getElem?_push]
  split <;> rfl

theorem timeline_addChild (inside : parent < arena.timelines.size) (slot : Slot)
    (other : TimelineId) : (arena.addChild parent slot).timeline other =
      if other = parent then slot.push arena.timelines.size (arena.timeline parent)
      else if other = arena.timelines.size then { channel := (arena.timeline parent).channel }
      else arena.timeline other := by
  have inside' : parent < (arena.create (arena.timeline parent).channel).2.timelines.size :=
    Nat.lt_of_lt_of_eq (Nat.lt_succ_of_lt inside) (Array.size_push _).symm
  have added : (arena.addChild parent slot).timeline other = _ := timeline_adjust inside' _ other
  rw [added, timeline_create, timeline_create, if_neg (Nat.ne_of_lt inside)]

theorem toList_eq (arena : Arena) :
    arena.timelines.toList = (List.range arena.timelines.size).map arena.timeline := by
  refine List.ext_getElem (by simp only [Array.length_toList, List.length_map, List.length_range])
    fun i h _ => ?_
  rw [Array.length_toList] at h
  simp only [Array.getElem_toList, List.getElem_map, List.getElem_range, timeline,
    Array.getElem?_eq_getElem h, Option.getD_some]

section Lists
variable {α β : Type}

theorem flatMap_modify {g : α → List β} {f : α → α} {l : List α} {i : Nat}
    (same : ∀ a, l[i]? = some a → g (f a) = g a) : (l.modify i f).flatMap g = l.flatMap g := by
  induction l generalizing i with
  | nil => simp only [List.modify_nil]
  | cons a l ih => cases i with
    | zero => simp only [List.modify_zero_cons, List.flatMap_cons, same a rfl]
    | succ i => simp only [List.modify_succ_cons, List.flatMap_cons, ih same]

theorem flatMap_modify_perm {g : α → List β} {f : α → α} {l : List α} {i : Nat} {a : α} {b : β}
    (found : l[i]? = some a) (more : g (f a) = g a ++ [b]) :
    ((l.modify i f).flatMap g).Perm (l.flatMap g ++ [b]) := by
  induction l generalizing i with
  | nil => exact nomatch found
  | cons a' l ih => cases i with
    | zero =>
      obtain rfl : a' = a := Option.some.inj found
      simp only [List.modify_zero_cons, List.flatMap_cons, more, List.append_assoc]
      exact List.perm_append_comm.append_left (g a')
    | succ i =>
      simp only [List.modify_succ_cons, List.flatMap_cons, List.append_assoc]
      exact (ih found).append_left (g a')

end Lists

theorem Forest.lt_size (forest : Forest roots arena)
    (member : id ∈ roots ++ arena.branches ++ arena.voices) : id < arena.timelines.size :=
  List.mem_range.mp (forest.once.mem_iff.mp member)

theorem Forest.nodup (forest : Forest roots arena) :
    (roots ++ arena.branches ++ arena.voices).Nodup :=
  forest.once.nodup_iff.mpr List.nodup_range

/-- Timelines on which items are performed are not voices. -/
theorem Forest.not_voice (forest : Forest roots arena) (playable : id ∈ roots ++ arena.branches) :
    id ∉ arena.voices :=
  fun voice => (List.nodup_append.mp forest.nodup).2.2 id playable id voice rfl

theorem listed_eq (list : Timeline → Array TimelineId) (arena : Arena) : arena.listed list =
    (List.range arena.timelines.size).flatMap fun id => (list (arena.timeline id)).toList := by
  rw [listed, toList_eq, List.flatMap_map]

theorem listed_adjust {list : Timeline → Array TimelineId} {f : Timeline → Timeline}
    (same : list (f (arena.timeline id)) = list (arena.timeline id)) :
    (arena.adjust id f).listed list = arena.listed list := by
  simp only [listed, adjust, Array.toList_modify]
  apply flatMap_modify
  intro t found
  rw [Array.getElem?_toList] at found
  simpa only [timeline, found, Option.getD_some] using congrArg Array.toList same

theorem listed_adjust_perm {list : Timeline → Array TimelineId} {f : Timeline → Timeline}
    {child : TimelineId} (inside : id < arena.timelines.size)
    (more : list (f (arena.timeline id)) = (list (arena.timeline id)).push child) :
    ((arena.adjust id f).listed list).Perm (arena.listed list ++ [child]) := by
  simp only [listed, adjust, Array.toList_modify]
  have found : arena.timelines.toList[id]? = some (arena.timeline id) := by
    rw [Array.getElem?_toList, timeline, Array.getElem?_eq_getElem inside, Option.getD_some]
  exact flatMap_modify_perm found ((congrArg Array.toList more).trans Array.toList_push)

theorem listed_create {list : Timeline → Array TimelineId} {channel : Nat}
    (none : list { channel := channel } = #[]) (arena : Arena) :
    (arena.create channel).2.listed list = arena.listed list := by
  simp only [listed, create, Array.toList_push, List.flatMap_append, List.flatMap_cons,
    List.flatMap_nil, none, List.append_nil]

theorem inside_create (inside : id < arena.timelines.size) (channel : Nat) :
    id < (arena.create channel).2.timelines.size :=
  Nat.lt_of_lt_of_eq (Nat.lt_succ_of_lt inside) (Array.size_push _).symm

/-- A child that is added is one more in the lists of its own kind. -/
theorem listed_addChild (inside : parent < arena.timelines.size) (slot : Slot) :
    ((arena.addChild parent slot).listed slot.list).Perm
      (arena.listed slot.list ++ [arena.timelines.size]) := by
  have created : (arena.create (arena.timeline parent).channel).2.listed slot.list =
      arena.listed slot.list := listed_create (by cases slot <;> rfl) arena
  rw [← created]
  exact listed_adjust_perm (inside_create inside _) (by cases slot <;> exact rfl)

theorem listed_addChild_other {list : Timeline → Array TimelineId} {slot : Slot}
    (none : ∀ channel, list { channel := channel } = #[])
    (kept : ∀ child t, list (slot.push child t) = list t) (parent : TimelineId) (arena : Arena) :
    (arena.addChild parent slot).listed list = arena.listed list :=
  (listed_adjust (kept _ _)).trans (listed_create (none _) arena)

theorem Forest.addChild (forest : Forest roots arena) (inside : parent < arena.timelines.size)
    (slot : Slot) : Forest roots (arena.addChild parent slot) := by
  constructor
  · rw [size_addChild, List.range_succ]
    refine List.Perm.trans ?_ (forest.once.append_right [arena.timelines.size])
    cases slot with
    | branch index =>
      rw [voices, listed_addChild_other (fun _ => rfl) (fun _ _ => rfl)]
      have more := listed_addChild inside (.branch index)
      apply ((more.append_left roots).append_right arena.voices).trans
      simp only [List.append_assoc]
      exact (List.perm_append_comm.append_left arena.branches).append_left roots
    | voice index =>
      rw [branches, listed_addChild_other (fun _ => rfl) (fun _ _ => rfl)]
      have more := listed_addChild inside (.voice index)
      exact (more.append_left (roots ++ arena.branches)).trans (.of_eq (List.append_assoc ..).symm)
  · intro p child member
    rw [timeline_addChild inside] at member
    split at member
    · next same =>
      have or : child ∈ (arena.timeline parent).children ∨ child ∈ (arena.timeline parent).voices ∨
          child = arena.timelines.size := by
        cases slot <;> simp only [Slot.push, Array.mem_push] at member <;> tauto
      rcases or with member | member | rfl
      · exact same ▸ forest.younger parent child (.inl member)
      · exact same ▸ forest.younger parent child (.inr member)
      · exact same ▸ inside
    · split at member
      · simp only [Array.not_mem_empty, or_self] at member
      · exact forest.younger p child member

theorem Forest.adjust (forest : Forest roots arena) {f : Timeline → Timeline}
    (children : (f (arena.timeline id)).children = (arena.timeline id).children)
    (voices : (f (arena.timeline id)).voices = (arena.timeline id).voices) :
    Forest roots (arena.adjust id f) := by
  constructor
  · rw [branches, Arena.voices, listed_adjust children, listed_adjust voices, size_adjust]
    exact forest.once
  · intro p child member
    by_cases inside : id < arena.timelines.size
    · rw [timeline_adjust inside] at member
      split at member
      · next same =>
        rw [children, voices] at member
        exact same ▸ forest.younger id child member
      · exact forest.younger p child member
    · rw [adjust_out (Nat.le_of_not_lt inside)] at member
      exact forest.younger p child member

theorem Stride.forest (stride : arena.Stride arena') (forest : Forest roots arena) :
    Forest roots arena' := by
  cases stride with
  | within strides => exact forest.adjust strides.family.1 strides.family.2
  | child slot inside => exact forest.addChild inside slot

/-- All logs go on from where they were, and no timeline is lost. -/
structure Grows (arena arena' : Arena) : Prop where
  size : arena.timelines.size ≤ arena'.timelines.size
  timeline : ∀ id < arena.timelines.size, (arena.timeline id).Grows (arena'.timeline id)
  branches : arena.branches ⊆ arena'.branches

theorem Stride.grows (stride : arena.Stride arena') : arena.Grows arena' := by
  cases stride with
  | @within id f strides =>
    refine ⟨Nat.le_of_eq (size_adjust ..).symm, fun other inside => ?_, fun other => ?_⟩
    · by_cases present : id < arena.timelines.size
      · rw [timeline_adjust present]
        split
        · next same => exact same ▸ strides.grows
        · exact .refl _
      · rw [adjust_out (Nat.le_of_not_lt present)]
        exact .refl _
    · exact (List.Perm.of_eq (listed_adjust strides.family.1)).mem_iff.mpr
  | @child parent slot inside =>
    refine ⟨by rw [size_addChild]; exact Nat.le_succ _, fun other present => ?_, fun other => ?_⟩
    · rw [timeline_addChild inside]
      split
      · next same =>
        subst same
        cases slot <;> exact ⟨rfl, (Timeline.Grows.refl _).logged⟩
      · rw [if_neg (Nat.ne_of_lt present)]
        exact .refl _
    · cases slot with
      | branch index =>
        exact fun member => (listed_addChild inside (.branch index)).mem_iff.mpr
          (List.mem_append_left _ member)
      | voice index =>
        have same : (arena.addChild parent (.voice index)).branches = arena.branches :=
          listed_addChild_other (fun _ => rfl) (fun _ _ => rfl) parent arena
        exact same ▸ id

theorem Stride.orderly (stride : arena.Stride arena')
    (orderly : ∀ id, (arena.timeline id).Orderly) (id : TimelineId) :
    (arena'.timeline id).Orderly := by
  cases stride with
  | @within here f strides =>
    by_cases present : here < arena.timelines.size
    · rw [timeline_adjust present]
      split
      · exact strides.orderly (orderly here)
      · exact orderly id
    · rw [adjust_out (Nat.le_of_not_lt present)]
      exact orderly id
  | @child parent slot inside =>
    rw [timeline_addChild inside]
    split
    · have old := orderly parent
      cases slot <;> exact ⟨⟨old.chained, old.cursor⟩, old.latest⟩
    · split
      · exact Timeline.orderly_new _
      · exact orderly id

namespace Strides

theorem forest (strides : arena.Strides arena') (forest : Forest roots arena) :
    Forest roots arena' := by
  induction strides with
  | refl => exact forest
  | tail _ stride ih => exact stride.forest ih

theorem orderly (strides : arena.Strides arena') (orderly : ∀ id, (arena.timeline id).Orderly)
    (id : TimelineId) : (arena'.timeline id).Orderly := by
  induction strides generalizing id with
  | refl => exact orderly id
  | tail _ stride ih => exact stride.orderly ih id

theorem grows (strides : arena.Strides arena') : arena.Grows arena' := by
  induction strides with
  | refl => exact ⟨Nat.le_refl _, fun _ _ => .refl _, fun _ => id⟩
  | tail _ stride ih =>
    have next := stride.grows
    exact ⟨Nat.le_trans ih.size next.size, fun id inside => (ih.timeline id inside).trans
      (next.timeline id (Nat.lt_of_lt_of_le inside ih.size)), List.Subset.trans ih.branches next.branches⟩

end Strides
end TextScore.Arena
