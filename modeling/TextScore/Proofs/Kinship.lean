import TextScore.Proofs.Coupling
import TextScore.Proofs.Soundness
import TextScore.Proofs.Tints

/-! Arenas that hold the same timelines under different names. Each of the two may hold others
besides. A step on a timeline and the same step on its counterpart leave counterparts behind, those
included that the step creates. -/
namespace TextScore
open Step (Follows)

/-- What a view shows of the timelines is the same, and those that belong to them correspond. -/
structure Timeline.Like (v : Nat → Nat) (φ : TimelineId → TimelineId → Prop) (t t' : Timeline) :
    Prop where
  bare : t.bare v = t'.bare v
  children : List.Forall₂ φ t.children.toList t'.children.toList
  voices : List.Forall₂ φ t.voices.toList t'.voices.toList

namespace Timeline.Like
variable {v : Nat → Nat} {φ φ' : TimelineId → TimelineId → Prop} {t t' : Timeline} {α : Type}

theorem mono (like : Like v φ t t') (more : ∀ {a a'}, φ a a' → φ' a a') : Like v φ' t t' :=
  ⟨like.bare, like.children.imp fun _ _ => more, like.voices.imp fun _ _ => more⟩

theorem change (like : Like v φ t t') {f f' g : Timeline → Timeline} (first : Renders v f g)
    (second : Renders v f' g) : Like v φ (f t) (f' t') where
  bare := (first.bare t).trans ((congrArg g like.bare).trans (second.bare t').symm)
  children := by
    rw [first.children, second.children]
    exact like.children
  voices := by
    rw [first.voices, second.voices]
    exact like.voices

theorem answer (like : Like v φ t t') {f f' g : Timeline → α × Timeline}
    (first : RendersAnswer v f g) (second : RendersAnswer v f' g) : (f t).1 = (f' t').1 := by
  have same : g (t.bare v) = g (t'.bare v) := congrArg g like.bare
  rw [first.shows, second.shows] at same
  exact (Prod.mk.inj same).1

theorem alike (like : Like v φ t t') : t.Alike t' :=
  ⟨(congrArg Timeline.position like.bare :), (congrArg Timeline.state like.bare :),
    (congrArg Timeline.tuplet like.bare :)⟩

theorem channel (like : Like v φ t t') : t.channel = t'.channel :=
  (congrArg Timeline.channel like.bare :)

theorem last (like : Like v φ t t') : t.last = t'.last := (congrArg Timeline.last like.bare :)

theorem slot (like : Like v φ t t') (slot : Slot) :
    List.Forall₂ φ (slot.list t).toList (slot.list t').toList := by
  cases slot with
  | branch => exact like.children
  | voice => exact like.voices

theorem push (like : Like v φ t t') (slot : Slot) {a a' : TimelineId} (known : φ a a') :
    Like v φ (slot.push a t) (slot.push a' t') := by
  have pushed {l l' : Array TimelineId} (same : List.Forall₂ φ l.toList l'.toList) :
      List.Forall₂ φ (l.push a).toList (l'.push a').toList := by
    rw [Array.toList_push, Array.toList_push]
    exact List.rel_append same (.cons known .nil)
  cases slot with
  | branch => exact ⟨like.bare, pushed like.children, like.voices⟩
  | voice => exact ⟨like.bare, like.children, pushed like.voices⟩

end Timeline.Like

namespace Arena
variable {v : Nat → Nat} {ρ φ φ' : TimelineId → TimelineId → Prop} {arena arena' : Arena}
  {here here' a a' : TimelineId} {α β : Type}

/-- Timelines that `φ` relates are counterparts. One timeline has one counterpart, and this goes for
those to be created, too. -/
structure Kin (v : Nat → Nat) (φ : TimelineId → TimelineId → Prop) (arena arena' : Arena) : Prop where
  apart : ∀ {a a' b b'}, φ a a' → φ b b' → (a = b ↔ a' = b')
  ahead : ∀ {a a'}, φ a a' → ∀ k, a = arena.timelines.size + k ↔ a' = arena'.timelines.size + k
  like : ∀ {a a'}, φ a a' → (arena.timeline a).Like v φ (arena'.timeline a')

/-- One pair of counterparts more. -/
def joined (φ : TimelineId → TimelineId → Prop) (a a' b b' : TimelineId) : Prop :=
  φ b b' ∨ b = a ∧ b' = a'

namespace Kin

theorem inside (kin : Kin v φ arena arena') (known : φ a a') :
    a < arena.timelines.size ↔ a' < arena'.timelines.size := by
  rw [← Nat.not_le, ← Nat.not_le]
  refine not_congr ⟨fun out => ?_, fun out => ?_⟩
  · obtain ⟨k, place⟩ := Nat.exists_eq_add_of_le out
    exact (kin.ahead known k).mp place ▸ Nat.le_add_right ..
  · obtain ⟨k, place⟩ := Nat.exists_eq_add_of_le out
    exact (kin.ahead known k).mpr place ▸ Nat.le_add_right ..

theorem adjust (kin : Kin v φ arena arena') (known : φ here here') {f f' : Timeline → Timeline}
    (change : ∀ {t t' : Timeline}, t.Like v φ t' → (f t).Like v φ (f' t')) :
    Kin v φ (arena.adjust here f) (arena'.adjust here' f') where
  apart := kin.apart
  ahead related k := by
    rw [size_adjust, size_adjust]
    exact kin.ahead related k
  like {a a'} related := by
    rw [timeline_adjust_or, timeline_adjust_or]
    have same := and_congr (kin.apart related known) (kin.inside known)
    by_cases touched : a = here ∧ here < arena.timelines.size
    · rw [if_pos touched, if_pos (same.mp touched)]
      exact change (kin.like known)
    · rw [if_neg touched, if_neg (mt same.mpr touched)]
      exact kin.like related

/-- Timelines created on both sides are counterparts. -/
theorem create (kin : Kin v φ arena arena') (channel : Nat) :
    Kin v (joined φ arena.timelines.size arena'.timelines.size) (arena.create channel).2
      (arena'.create channel).2 := by
  have next {a a' : TimelineId} (known : φ a a') :
      a = arena.timelines.size ↔ a' = arena'.timelines.size := kin.ahead known 0
  have sizes (arena : Arena) : (arena.create channel).2.timelines.size = arena.timelines.size + 1 :=
    Array.size_push _
  have fresh : ({ channel := channel } : Timeline).Like v
      (joined φ arena.timelines.size arena'.timelines.size) { channel := channel } :=
    ⟨rfl, .nil, .nil⟩
  refine ⟨?_, ?_, ?_⟩
  · rintro a a' b b' (old | ⟨rfl, rfl⟩) (old' | ⟨rfl, rfl⟩)
    · exact kin.apart old old'
    · exact next old
    · exact eq_comm.trans ((next old').trans eq_comm)
    · exact iff_of_true rfl rfl
  · rintro a a' (old | ⟨rfl, rfl⟩) k
    · rw [sizes, sizes, Nat.add_assoc, Nat.add_assoc]
      exact kin.ahead old (1 + k)
    · rw [sizes, sizes]
      exact iff_of_false (Nat.ne_of_lt (by omega)) (Nat.ne_of_lt (by omega))
  · rintro a a' (old | ⟨rfl, rfl⟩)
    · rw [timeline_create, timeline_create]
      simp only [next old]
      split
      · exact fresh
      · exact (kin.like old).mono .inl
    · rw [timeline_create, timeline_create, if_pos rfl, if_pos rfl]
      exact fresh

end Kin

/-- Where counterparts come from: some are given, and others belong to counterparts. Only where all
timelines are given as their own counterparts they need not exist. -/
structure Rooted (ρ φ : TimelineId → TimelineId → Prop) (arena : Arena) : Prop where
  roots : ∀ {a a'}, ρ a a' → φ a a'
  listed : ∀ {a a'}, φ a a' → ρ a a' ∨ ∃ b b', φ b b' ∧
    (a ∈ (arena.timeline b).children ∨ a ∈ (arena.timeline b).voices)
  stray : ∀ {a a'}, φ a a' → arena.timelines.size ≤ a → ∀ b, ρ b b

theorem Rooted.adjust (rooted : Rooted ρ φ arena) {f : Timeline → Timeline}
    (children : ∀ t, ∀ id ∈ t.children, id ∈ (f t).children)
    (voices : ∀ t, ∀ id ∈ t.voices, id ∈ (f t).voices) : Rooted ρ φ (arena.adjust here f) where
  roots := rooted.roots
  listed known := (rooted.listed known).imp_right fun ⟨b, b', related, member⟩ => by
    refine ⟨b, b', related, ?_⟩
    rw [timeline_adjust_or]
    split
    · next both => exact both.1 ▸ member.imp (children _ _) (voices _ _)
    · exact member
  stray known out := rooted.stray known ((size_adjust ..) ▸ out)

theorem Rooted.addChild (rooted : Rooted ρ φ arena) (known : φ here here') (slot : Slot)
    {next : TimelineId} (named : (∀ b, ρ b b) → next = arena.timelines.size) :
    Rooted ρ (joined φ arena.timelines.size next) (arena.addChild here slot) := by
  have sizes : (arena.create (arena.timeline here).channel).2.timelines.size =
      arena.timelines.size + 1 := Array.size_push _
  have added (id : TimelineId) : (arena.addChild here slot).timeline id = _ :=
    timeline_adjust_or here id (slot.push arena.timelines.size) _
  have lists {b c : TimelineId} (member : c ∈ (arena.timeline b).children ∨
      c ∈ (arena.timeline b).voices) : c ∈ ((arena.addChild here slot).timeline b).children ∨
        c ∈ ((arena.addChild here slot).timeline b).voices := by
    have old : c ∈ ((arena.create (arena.timeline here).channel).2.timeline b).children ∨
        c ∈ ((arena.create (arena.timeline here).channel).2.timeline b).voices := by
      rw [timeline_create]
      split
      · next last =>
        rw [last, timeline_out (Nat.le_refl _)] at member
        exact member.imp (absurd · (Array.not_mem_empty c)) (absurd · (Array.not_mem_empty c))
      · exact member
    rw [added]
    split
    · next both =>
      rw [both.1] at old
      cases slot with
      | branch => exact old.imp_left (Array.mem_push_of_mem _)
      | voice => exact old.imp_right (Array.mem_push_of_mem _)
    · exact old
  refine ⟨fun known => .inl (rooted.roots known), ?_, ?_⟩
  · rintro a a' (old | ⟨rfl, rfl⟩)
    · exact (rooted.listed old).imp_right fun ⟨b, b', related, member⟩ =>
        ⟨b, b', .inl related, lists member⟩
    · by_cases inside : here < arena.timelines.size + 1
      · refine .inr ⟨here, here', .inl known, ?_⟩
        rw [added, if_pos ⟨rfl, sizes.symm ▸ inside⟩]
        cases slot with
        | branch => exact .inl (Array.mem_push_self ..)
        | voice => exact .inr (Array.mem_push_self ..)
      · have all := rooted.stray known (Nat.le_of_succ_le (Nat.le_of_not_lt inside))
        rw [named all]
        exact .inl (all _)
  · rintro a a' (old | ⟨rfl, rfl⟩) out
    · rw [size_addChild] at out
      exact rooted.stray old (Nat.le_of_succ_le out)
    · rw [size_addChild] at out
      exact absurd out (Nat.not_succ_le_self _)

/-- Two arenas with counterparts in which those in `ρ` are given. -/
structure Kindred (v : Nat → Nat) (ρ φ : TimelineId → TimelineId → Prop) (arena arena' : Arena) :
    Prop where
  kin : Kin v φ arena arena'
  rooted : Rooted ρ φ arena

namespace Kindred

theorem adjust (kindred : Kindred v ρ φ arena arena') (known : φ here here')
    {f f' g : Timeline → Timeline} (first : Timeline.Renders v f g)
    (second : Timeline.Renders v f' g) :
    Kindred v ρ φ (arena.adjust here f) (arena'.adjust here' f') where
  kin := kindred.kin.adjust known fun like => like.change first second
  rooted := kindred.rooted.adjust (fun t _ member => (first.children t).symm ▸ member)
    fun t _ member => (first.voices t).symm ▸ member

theorem addChild (kindred : Kindred v ρ φ arena arena') (known : φ here here') (slot : Slot) :
    ∃ φ', (∀ a a', φ a a' → φ' a a') ∧
      Kindred v ρ φ' (arena.addChild here slot) (arena'.addChild here' slot) := by
  obtain ⟨kin, rooted⟩ := kindred
  have added := (kin.create (arena.timeline here).channel).adjust (.inl known)
    fun like => like.push slot (.inr ⟨rfl, rfl⟩)
  refine ⟨joined φ arena.timelines.size arena'.timelines.size, fun _ _ => .inl, ?_,
    rooted.addChild known slot fun all => ?_⟩
  · have channel := (kin.like known).channel
    unfold Arena.addChild
    rw [← channel]
    exact added
  · exact (kin.ahead (rooted.roots (all arena.timelines.size)) 0).mp rfl |>.symm

theorem repeatChild (kindred : Kindred v ρ φ arena arena') (known : φ here here') (slot : Slot)
    (count : Nat) : ∃ φ', (∀ a a', φ a a' → φ' a a') ∧
      Kindred v ρ φ' (Nat.repeat (Arena.addChild here slot) count arena)
        (Nat.repeat (Arena.addChild here' slot) count arena') := by
  induction count with
  | zero => exact ⟨φ, fun _ _ => id, kindred⟩
  | succ count ih =>
    obtain ⟨φ', more, kindred⟩ := ih
    obtain ⟨φ'', further, kindred⟩ := kindred.addChild (more _ _ known) slot
    exact ⟨φ'', fun a a' related => further _ _ (more _ _ related), kindred⟩

theorem withChild (kindred : Kindred v ρ φ arena arena') (known : φ here here') (slot : Slot) :
    ∃ φ', (∀ a a', φ a a' → φ' a a') ∧
      Kindred v ρ φ' (arena.withChild here slot) (arena'.withChild here' slot) := by
  have sizes : (slot.list (arena.timeline here)).size = (slot.list (arena'.timeline here')).size :=
    ((kindred.kin.like known).slot slot).length_eq
  unfold Arena.withChild
  rw [sizes]
  exact kindred.repeatChild known slot _

/-- Counterparts have counterparts in the same slot. -/
theorem childAt (kindred : Kindred v ρ φ arena arena') (known : φ here here') {offset : Nat}
    {slot : Slot} {child : TimelineId} {after : Arena}
    (done : (Arena.childAt here offset slot).run arena = .ok child after) :
    ∃ φ' child' after', (∀ a a', φ a a' → φ' a a') ∧
      (Arena.childAt here' offset slot).run arena' = .ok child' after' ∧ φ' child child' ∧
      Kindred v ρ φ' after after' := by
  obtain ⟨φ', more, filled⟩ := kindred.withChild known slot
  have parents := filled.kin.like (more _ _ known)
  obtain ⟨rfl, caught, rfl⟩ := childAt_ok done
  have children : φ'
      ((slot.list ((arena.withChild here slot).timeline here))[slot.index]?.getD 0)
      ((slot.list ((arena'.withChild here' slot).timeline here'))[slot.index]?.getD 0) := by
    have lists := parents.slot slot
    rw [← Array.getElem?_toList, ← Array.getElem?_toList]
    by_cases present :
        slot.index < (slot.list ((arena.withChild here slot).timeline here)).toList.length
    · have present' := lists.length_eq ▸ present
      rw [List.getElem?_eq_getElem present, List.getElem?_eq_getElem present']
      exact lists.get present present'
    · rw [List.getElem?_eq_none (Nat.le_of_not_lt present),
        List.getElem?_eq_none (Nat.le_of_not_lt (lists.length_eq ▸ present))]
      have out : arena.timelines.size ≤ here := by
        rcases Nat.lt_or_ge here arena.timelines.size with inside | out
        · have size := (size_list_repeat inside slot
            (slot.index + 1 - (slot.list (arena.timeline here)).size)).2
          simp only [Arena.withChild, Array.length_toList, size] at present
          omega
        · exact out
      exact filled.rooted.roots (kindred.rooted.stray known out 0)
  have positions := (filled.kin.like children).alike.position
  rw [positions, parents.alike.position] at caught
  cases second : (Arena.childAt here' offset slot).run arena' with
  | error fault after' => exact absurd caught (Nat.not_le_of_lt (childAt_error second))
  | ok child' after' =>
    obtain ⟨rfl, -, rfl⟩ := childAt_ok second
    refine ⟨φ', _, _, more, rfl, children, filled.adjust children (Timeline.renders_follow _) ?_⟩
    rw [parents.bare]
    exact Timeline.renders_follow _

theorem adjustAll (kindred : Kindred v ρ φ arena arena') {ids ids' : List TimelineId}
    (known : List.Forall₂ φ ids ids') {f : Timeline → Timeline}
    (renders : Timeline.Renders v f f) :
    Kindred v ρ φ (Arena.adjustAll ids f arena) (Arena.adjustAll ids' f arena') := by
  induction known generalizing arena arena' with
  | nil => exact kindred
  | cons pair _ ih => exact ih (kindred.adjust pair renders renders)

theorem playVoices (kindred : Kindred v ρ φ arena arena') {ids ids' : List TimelineId}
    (known : List.Forall₂ φ ids ids') (pitches : List Nat)
    {play play' shown : (delay pitch : Nat) → Timeline → Timeline}
    (first : ∀ delay pitch, Timeline.Renders v (play delay pitch) (shown delay pitch))
    (second : ∀ delay pitch, Timeline.Renders v (play' delay pitch) (shown delay pitch))
    (interval delay : Nat) :
    Kindred v ρ φ (Arena.playVoices play interval delay (ids.zip pitches) arena)
      (Arena.playVoices play' interval delay (ids'.zip pitches) arena') := by
  induction known generalizing pitches delay arena arena' with
  | nil => exact kindred
  | cons pair _ ih => cases pitches with
    | nil => exact kindred
    | cons pitch pitches =>
      exact ih (kindred.adjust pair (first delay pitch) (second delay pitch)) pitches _

end Kindred

section Steps
open Coupling (Whatever lenient)
variable {pairs : List (TimelineId × TimelineId)} {Q : β → Arena → Arena → Prop}

/-- In kindred arenas these pairs, among others, are counterparts. -/
def Related (v : Nat → Nat) (ρ : TimelineId → TimelineId → Prop)
    (pairs : List (TimelineId × TimelineId)) (arena arena' : Arena) : Prop :=
  ∃ φ, (∀ pair ∈ pairs, φ pair.1 pair.2) ∧ Kindred v ρ φ arena arena'

/-- A step and its counterpart, which answers the same. -/
abbrev Corresponds (v : Nat → Nat) (ρ : TimelineId → TimelineId → Prop)
    (pairs : List (TimelineId × TimelineId)) (p q : Step Arena α)
    (Q : α → Arena → Arena → Prop := fun _ => Related v ρ pairs) : Prop :=
  Follows Whatever (lenient (Related v ρ pairs)) p q fun a => lenient (Q a)

theorem corresponds_pure (a : α) : Corresponds v ρ pairs (pure a) (pure a) :=
  Follows.pure (Q := fun _ => lenient (Related v ρ pairs)) a

theorem corresponds_failAt (offset : Nat) (cause : Cause) :
    Corresponds v ρ pairs (Step.failAt offset cause) (Step.failAt offset cause) Q :=
  Follows.failAt offset cause trivial fun _ => trivial

theorem corresponds_modify {f f' : Arena → Arena} (kept : ∀ {φ arena arena'},
      (∀ pair ∈ pairs, φ pair.1 pair.2) → Kindred v ρ φ arena arena' →
        Kindred v ρ φ (f arena) (f' arena')) :
    Corresponds v ρ pairs (modify f) (modify f') :=
  .of_ok fun ⟨φ, known, kindred⟩ done => by
    cases done
    exact ⟨_, rfl, φ, known, kept known kindred⟩

theorem corresponds_adjust (member : (here, here') ∈ pairs) {f f' g : Timeline → Timeline}
    (first : Timeline.Renders v f g) (second : Timeline.Renders v f' g) :
    Corresponds v ρ pairs (modify (adjust here f)) (modify (adjust here' f')) :=
  corresponds_modify fun known kindred => kindred.adjust (known _ member) first second

theorem corresponds_update (member : (here, here') ∈ pairs) {f f' g : Timeline → α × Timeline}
    (first : Timeline.RendersAnswer v f g) (second : Timeline.RendersAnswer v f' g) :
    Corresponds v ρ pairs (update here f) (update here' f') :=
  .of_ok fun {arena arena' a t} ⟨φ, known, kindred⟩ done => by
    rw [update_run] at done ⊢
    cases done
    have same := (kindred.kin.like (known _ member)).answer first second
    exact ⟨_, same ▸ rfl, φ, known, kindred.adjust (known _ member) first.renders second.renders⟩

theorem Related.shrink {pairs' : List (TimelineId × TimelineId)} (fewer : pairs ⊆ pairs') :
    (lenient (Related v ρ pairs')).Within (lenient (Related v ρ pairs)) :=
  ⟨fun ⟨φ, known, kindred⟩ => ⟨φ, fun pair member => known pair (fewer member), kindred⟩, id⟩

/-- Once a timeline and its counterpart have been read their voices are known, too. -/
theorem corresponds_read (member : (here, here') ∈ pairs) {f f' : Arena → Step Arena β}
    (rest : ∀ {φ arena arena'}, Timeline.Like v φ (arena.timeline here) (arena'.timeline here') →
      Corresponds v ρ ((arena.timeline here).voices.toList.zip
        (arena'.timeline here').voices.toList ++ pairs) (f arena) (f' arena') Q) :
    Corresponds v ρ pairs (get >>= f) (get >>= f') Q :=
  .of_both fun {arena arena'} related => by
    obtain ⟨φ, known, kindred⟩ := related
    have like := kindred.kin.like (known _ member)
    refine (rest like).both arena arena' ⟨φ, fun pair listed => ?_, kindred⟩
    rcases List.mem_append.mp listed with voice | old
    · exact (List.forall₂_iff_zip.mp like.voices).2 voice
    · exact known pair old

theorem corresponds_unless {c : Prop} [Decidable c] {offset : Nat} {cause : Cause}
    {f g : PUnit → Step Arena β} (rest : Corresponds v ρ pairs (f ⟨⟩) (g ⟨⟩) Q) :
    Corresponds v ρ pairs (if c then Step.failAt offset cause >>= f else f ⟨⟩)
      (if c then Step.failAt offset cause >>= g else g ⟨⟩) Q := by
  split
  · exact .of_both fun _ => trivial
  · exact rest

/-- Children claimed on both sides are counterparts. -/
theorem corresponds_childAt (member : (here, here') ∈ pairs) (offset : Nat) (slot : Slot)
    {f f' : TimelineId → Step Arena β} (rest : ∀ child child',
      Corresponds v ρ (pairs ++ [(child, child')]) (f child) (f' child') Q) :
    Corresponds v ρ pairs (childAt here offset slot >>= f) (childAt here' offset slot >>= f') Q :=
  .of_ok fun {arena arena' b t} ⟨φ, known, kindred⟩ done => by
    obtain ⟨child, after, claimed, done⟩ := Step.bind_ok done
    obtain ⟨φ', child', after', more, claimed', named, kindred'⟩ :=
      kindred.childAt (known _ member) claimed
    have related : Related v ρ (pairs ++ [(child, child')]) after after' := by
      refine ⟨φ', fun pair listed => ?_, kindred'⟩
      rcases List.mem_append.mp listed with old | new
      · exact more _ _ (known pair old)
      · obtain rfl := List.mem_singleton.mp new
        exact named
    obtain ⟨t', done', after⟩ := (rest child child').ok related done
    refine ⟨t', ?_, after⟩
    rw [EStateM.run_bind, claimed']
    exact done'

theorem corresponds_tie (member : (here, here') ∈ pairs) (offset : Nat) :
    Corresponds v ρ pairs (tie here offset) (tie here' offset) := by
  apply corresponds_read member
  intro φ arena arena' like
  rw [like.alike.state]
  refine Follows.mono ?_ (Related.shrink (List.subset_append_right ..)) fun _ => .refl _
  apply (corresponds_update member (Timeline.renders_calibrate _)
    (Timeline.renders_calibrate _)).bind
  intro extra
  apply corresponds_read member
  intro φ arena arena' like
  dsimp only
  rw [like.last]
  generalize listed : (arena.timeline here).voices.toList.zip
    (arena'.timeline here').voices.toList ++ pairs = pairs'
  have old : pairs ⊆ pairs' := listed ▸ List.subset_append_right ..
  have finish {p q : Step Arena PUnit} (changed : Corresponds v ρ pairs' p q) (ticks : Nat) :
      Corresponds v ρ pairs' (do p; return ticks) (do q; return ticks)
        fun _ => Related v ρ pairs :=
    changed.bind fun _ => (corresponds_pure ticks).mono (.refl _) fun _ => Related.shrink old
  split
  · exact finish (corresponds_failAt offset _) _
  · exact finish (corresponds_adjust (old member) (Timeline.renders_lengthenNote ..)
      (Timeline.renders_lengthenNote ..)) _
  · exact finish (corresponds_adjust (old member) (Timeline.renders_trail _)
      (Timeline.renders_trail _)) _
  · apply (corresponds_adjust (old member) (Timeline.renders_trail _)
      (Timeline.renders_trail _)).bind
    intro _
    refine finish (corresponds_modify fun known kindred => ?_) _
    refine kindred.adjustAll (List.forall₂_take _ ?_) (Timeline.renders_lengthenLast _)
    refine List.forall₂_iff_zip.mpr ⟨like.voices.length_eq, fun pair => ?_⟩
    exact known _ (listed ▸ List.mem_append_left _ pair)

/-- Pitches that are spread over voices. -/
theorem corresponds_spread (member : (here, here') ∈ pairs) (offset interval held rest ticks : Nat)
    (pitches : List Nat) {velocity velocity' : Nat} (same : v velocity = v velocity') :
    Corresponds v ρ pairs
      (do
        let voices ← (List.range pitches.length).mapM fun i => childAt here offset (.voice i)
        modify (adjust here fun t =>
          { t.trail (held + rest) with last := .arpeggio pitches.length })
        modify (playVoices (playVoice offset held velocity rest) interval 0 (voices.zip pitches))
        return ticks)
      (do
        let voices ← (List.range pitches.length).mapM fun i => childAt here' offset (.voice i)
        modify (adjust here' fun t =>
          { t.trail (held + rest) with last := .arpeggio pitches.length })
        modify (playVoices (playVoice offset held velocity' rest) interval 0 (voices.zip pitches))
        return ticks) := by
  have start : (lenient (Related v ρ pairs)).Within (lenient (Related v ρ (pairs ++ []))) :=
    Related.shrink fun _ listed => List.append_nil pairs ▸ listed
  refine Follows.mono (Follows.mapM_paired
    (fun voices => lenient (Related v ρ (pairs ++ voices)))
    (fun voices _ {f g} rest => corresponds_childAt (List.mem_append_left _ member) offset _
      fun child child' => ?_) fun voices _ => ?_) start fun _ => .refl _
  · rw [List.append_assoc]
    exact rest child child'
  · have turned : Timeline.Renders v
        (fun t => { t.trail (held + rest) with last := .arpeggio pitches.length })
        (fun t => { t.trail (held + rest) with last := .arpeggio pitches.length }) :=
      .of_still fun _ => rfl
    apply (corresponds_adjust (List.mem_append_left _ member) turned turned).bind
    intro _
    refine Follows.bind (corresponds_modify fun known kindred => ?_) fun _ =>
      (corresponds_pure ticks).mono (.refl _) fun _ =>
        Related.shrink (List.subset_append_left ..)
    have voiced := List.forall₂_map_left_iff.mpr (List.forall₂_map_right_iff.mpr
      (List.forall₂_same.mpr fun pair listed => known pair (List.mem_append_right _ listed)))
    refine kindred.playVoices voiced pitches
      (fun delay pitch => Timeline.renders_playVoice ..) (fun delay pitch => ?_) interval 0
    rw [same]
    exact Timeline.renders_playVoice ..

theorem corresponds_commitArpeggio (member : (here, here') ∈ pairs) (offset interval : Nat)
    {staged staged' : Staged} (same : staged.tint v = staged'.tint v) :
    Corresponds v ρ pairs (commitArpeggio here offset staged interval)
      (commitArpeggio here' offset staged' interval) := by
  have ticks : staged.ticks = staged'.ticks := by
    rw [← Staged.ticks_tint (v := v), same, Staged.ticks_tint]
  obtain ⟨notes, rest⟩ := Staged.mk.inj same
  have parted (p : Draft → Bool) (blind : ∀ d : Draft, p (d.tint v) = p d) :
      (staged.notes.filter p).map (Draft.tint v) = (staged'.notes.filter p).map (Draft.tint v) := by
    rw [← Timeline.filter_tint blind, notes, Timeline.filter_tint blind]
  have graces := parted (·.grace) fun _ => rfl
  have mains := parted (not ∘ fun x => x.grace) fun _ => rfl
  have sums {drafts drafts' : List Draft}
      (same : drafts.map (Draft.tint v) = drafts'.map (Draft.tint v)) :
      Draft.sum Draft.duration drafts = Draft.sum Draft.duration drafts' := by
    rw [← Draft.sum_tint (v := v), same, Draft.sum_tint]
  unfold commitArpeggio
  rw [List.partition_eq_filter_filter, List.partition_eq_filter_filter, ticks]
  generalize staged.notes.filter (·.grace) = first at graces ⊢
  generalize staged'.notes.filter (·.grace) = first' at graces ⊢
  generalize staged.notes.filter (not ∘ fun x => x.grace) = second at mains ⊢
  generalize staged'.notes.filter (not ∘ fun x => x.grace) = second' at mains ⊢
  rw [rest]
  apply (corresponds_update member (Timeline.renders_calibrate _)
    (Timeline.renders_calibrate _)).bind
  intro extra
  dsimp -zeta only
  have graced : Corresponds v ρ pairs (modify (adjust here (Timeline.pushNotes offset first)))
      (modify (adjust here' (Timeline.pushNotes offset first'))) :=
    corresponds_adjust member (Timeline.renders_pushNotes ..)
      (graces ▸ Timeline.renders_pushNotes ..)
  rw [sums graces]
  apply graced.bind
  intro _
  cases second with
  | nil =>
    obtain rfl := List.map_eq_nil_iff.mp mains.symm
    exact (corresponds_adjust member (Timeline.renders_trail _) (Timeline.renders_trail _)).bind
      fun _ => corresponds_pure _
  | cons chord more => cases second' with
    | nil => exact nomatch mains
    | cons chord' more' =>
      have head : chord.tint v = chord'.tint v := (List.cons.inj mains).1
      have pitches : chord.pitches = chord'.pitches := (congrArg Draft.pitches head :)
      dsimp -zeta only
      rw [sums mains, pitches]
      exact corresponds_unless (corresponds_spread member offset interval _ _ _ _
        (congrArg Draft.velocity head :))

theorem corresponds_beginTuplet (member : (here, here') ∈ pairs) (offset size : Nat) :
    Corresponds v ρ pairs (on here (Timeline.beginTuplet offset size))
      (on here' (Timeline.beginTuplet offset size)) :=
  .of_both fun {arena arena'} ⟨φ, known, kindred⟩ => by
    have like : (arena.timeline here).Like v φ (arena'.timeline here') :=
      kindred.kin.like (known _ member)
    have inside : (arena.timeline here).inTuplet = (arena'.timeline here').inTuplet :=
      congrArg Option.isSome like.alike.tuplet
    rw [on_run, on_run, Timeline.beginTuplet_run, Timeline.beginTuplet_run, inside,
      like.alike.state]
    by_cases nested : (arena'.timeline here').inTuplet
    · rw [if_pos nested, if_pos nested]
      trivial
    rw [if_neg nested, if_neg nested]
    by_cases short : Tuplet.quantization (2 * (arena'.timeline here').state.quantization) size = 0
    · rw [if_pos short, if_pos short]
      trivial
    rw [if_neg short, if_neg short]
    have entered (unit : Nat) (here : TimelineId) (arena : Arena) :
        arena.adjust here (fun _ => (arena.timeline here).enterTuplet unit size) =
          arena.adjust here (Timeline.enterTuplet unit size) := adjust_congr rfl
    have renders (unit : Nat) : Timeline.Renders v (Timeline.enterTuplet unit size)
      (Timeline.enterTuplet unit size) := .of_still fun _ => rfl
    dsimp only
    rw [entered, entered]
    exact ⟨rfl, φ, known, kindred.adjust (known _ member) (renders _) (renders _)⟩

end Steps
end Arena
end TextScore
