import TextScore.Proofs.Bodies
import TextScore.Proofs.Branches
import TextScore.Proofs.Records

/-! What a channel leaves alone while it plays. Without groups, a node changes the active timeline and
what belongs to it; the timelines of other channels stay as they are, and so do the definitions and
the length of fermatas. -/
namespace TextScore

/-- Neither declares a group nor refers to one. -/
def Item.Groupless : Item → Prop
  | .group .. | .groupRef .. => False
  | _ => True

abbrev Item.Ungrouped : Item → Prop := Item.Throughout Item.Groupless

/-- Nodes that concern the active timeline only. -/
def Node.Local : Node → Prop
  | .item i => i.Ungrouped
  | .repeatOpen .. | .repeatClose .. | .volta .. => True
  | _ => False

theorem Node.Local.replay {node again : Node} (known : node.Local)
    (played : node.replay? = some again) : again.Local := by
  rcases Node.replay_cases played with rfl | ⟨offset, id, body, rfl, -⟩
  · exact known
  · exact (Item.throughout_iff.mp known).1.elim

/-- There are no groups, and templates do without them. -/
structure Definitions.Ungrouped (d : Definitions) : Prop where
  groups : d.groups = []
  templates : ∀ {name template}, d.templates.lookup name = some template →
    ∀ item ∈ template, item.Ungrouped

namespace Arena
variable {roots roots' : List TimelineId} {arena arena' : Arena} {F : TimelineId → Prop}

/-- A family of timelines: with each of them, but for roots, comes the one that it belongs to. -/
structure Family (roots : List TimelineId) (F : TimelineId → Prop) (arena : Arena) : Prop where
  inside : ∀ {id}, F id → id < arena.timelines.size
  owned : ∀ {id}, F id → id ∈ roots ∨ ∃ parent, F parent ∧
    (id ∈ (arena.timeline parent).children ∨ id ∈ (arena.timeline parent).voices)

theorem family_none (roots : List TimelineId) (arena : Arena) : Family roots (fun _ => False) arena :=
  ⟨False.elim, False.elim⟩

/-- What is in the family belongs to nobody else. -/
theorem Family.parent (family : Family roots F arena) (forest : Forest roots arena)
    {parent child : TimelineId} (known : F child) (listed : child ∈ (arena.timeline parent).children ∨
      child ∈ (arena.timeline parent).voices) : F parent := by
  rcases family.owned known with root | ⟨owner, inside, owned⟩
  · rcases listed with branch | voice
    · exact absurd root (forest.child_apart branch).2
    · exact absurd (voice_listed voice) (forest.not_voice (List.mem_append_left _ root))
  · rcases listed with branch | voice
    · rcases owned with branch' | voice'
      · obtain ⟨i, found⟩ := Array.mem_iff_getElem?.mp branch
        obtain ⟨j, found'⟩ := Array.mem_iff_getElem?.mp branch'
        exact (forest.parent_unique found' found).1 ▸ inside
      · exact absurd (voice_listed voice') (forest.child_apart branch).1
    · rcases owned with branch' | voice'
      · exact absurd (voice_listed voice) (forest.child_apart branch').1
      · exact forest.owner_unique voice' voice ▸ inside

/-- The timelines of a family are as they were. -/
def Still (F : TimelineId → Prop) (arena arena' : Arena) : Prop :=
  ∀ ⦃id⦄, F id → id < arena'.timelines.size ∧ arena'.timeline id = arena.timeline id

theorem Still.trans {arena'' : Arena} (first : Still F arena arena') (second : Still F arena' arena'') :
    Still F arena arena'' :=
  fun _ known => ⟨(second known).1, (second known).2.trans (first known).2⟩

theorem Family.still (family : Family roots F arena) (still : Still F arena arena')
    (more : roots ⊆ roots') : Family roots' F arena' where
  inside known := (still known).1
  owned known := (family.owned known).imp (fun root => more root) fun ⟨parent, inside, listed⟩ =>
    ⟨parent, inside, (still inside).2 ▸ listed⟩

theorem Family.adjust (family : Family roots F arena) {here : TimelineId} (other : ¬ F here)
    (f : Timeline → Timeline) : Still F arena (arena.adjust here f) := fun id known => by
  refine ⟨(size_adjust ..).symm ▸ family.inside known, timeline_adjust_ne f arena ?_⟩
  rintro rfl
  exact other known

theorem Family.create (family : Family roots F arena) (channel : Nat) :
    Still F arena (arena.create channel).2 := fun id known => by
  have inside := family.inside known
  refine ⟨inside_create inside channel, ?_⟩
  rw [timeline_create, if_neg (Nat.ne_of_lt inside)]

end Arena

namespace Session
open Step (Contract)
variable {d : Definitions} {f : Binary64} {F : TimelineId → Prop} {here : TimelineId} {s t : Session}

/-- Items under these ornaments find these definitions and this length of fermatas. -/
structure Shares (d : Definitions) (f : Binary64) (stack : List Modifier) (s : Session) : Prop where
  modifiers : s.modifiers = stack
  definitions : s.definitions = d
  fermata : s.fermata = f

/-- Without groups nothing is declared, and what a branch restores is what there has been. -/
theorem custody_shares (sparse : d.Ungrouped) (f : Binary64) :
    Custody (fun _ => True) (fun _ => Item.Ungrouped) (Shares d f) where
  fault _ := trivial
  stray _ := trivial
  inner within listed _ := (Item.throughout_iff.mp within).2 _ listed
  spend _ shares := { shares with }
  copy shares := { shares with }
  graces _ shares := { shares with }
  restore before later := { before with modifiers := later.modifiers }
  stack shares := shares.modifiers
  pop shares := { shares with modifiers := rfl }
  ornament within _ shares :=
    ⟨fun _ listed => (Item.throughout_iff.mp within).2 _ listed, { shares with modifiers := rfl }⟩
  template _ shares found _ _ := sparse.templates (shares.definitions ▸ found)
  substitute _ _ _ shares := { shares with modifiers := rfl }
  declare within := (Item.throughout_iff.mp within).1.elim
  group within := (Item.throughout_iff.mp within).1.elim
  tuning kept _ _ := { kept.holds with }
  tuplet kept _ _ _ := ⟨{ kept.holds with }, fun later => { later.holds with }⟩
  branch kept _ _ := { kept.holds with }
  rest kept _ _ := { kept.holds with }
  tie kept _ _ _ := { kept.holds with }
  note _ kept _ _ _ staged := by
    obtain ⟨rfl, -⟩ := Custody.stage_ok staged
    exact { kept.holds with }
  arpeggio kept _ _ _ _ _ staged _ := by
    obtain ⟨rfl, -⟩ := Custody.stage_ok staged
    exact { kept.holds with }

/-- What channels share between two nodes; neither ornaments nor graces are left. -/
structure Calm (d : Definitions) (f : Binary64) (s : Session) : Prop where
  shares : s.Shares d f []
  graces : s.graces = none

/-- Since a session in the past the active timeline has played, and a family of timelines that it does
not belong to has stood by. -/
structure Aside (d : Definitions) (f : Binary64) (F : TimelineId → Prop) (past : Session)
    (here : TimelineId) (s : Session) : Prop where
  rested : s.Rested (some here)
  calm : s.Calm d f
  channels : s.channels = past.channels
  other : ¬ F here
  family : s.arena.Family past.channels.toList F
  still : past.arena.Still F s.arena

namespace Aside
variable {past : Session}

theorem setRepeats (aside : past.Aside d f F here s) (r : Repeats) :
    past.Aside d f F here (s.setRepeats here r) where
  rested := handover_rested.repeats (fun _ => r) aside.rested
  calm := ⟨{ aside.calm.shares with }, aside.calm.graces⟩
  channels := aside.channels
  other := aside.other
  family := aside.family.still (aside.family.adjust aside.other _) (List.Subset.refl _)
  still := aside.still.trans (aside.family.adjust aside.other _)

/-- An item leaves a family alone that its timeline does not belong to. -/
theorem perform (aside : past.Aside d f F here s) (sparse : d.Ungrouped) {depth ticks : Nat}
    {item : Item} (plain : item.Ungrouped)
    (done : (perform depth here 0 item).run s = .ok ticks t) : past.Aside d f F here t := by
  classical
  let held := (List.range s.arena.timelines.size).filter fun id => decide (F id)
  have listed {id : TimelineId} : id ∈ held ↔ F id := by
    simp only [held, List.mem_filter, List.mem_range, decide_eq_true_eq]
    exact ⟨And.right, fun known => ⟨aside.family.inside known, known⟩⟩
  have forest := aside.channels ▸ aside.rested.tended.sound.forest
  have free : here ∉ held := mt listed.mp aside.other
  have standing := aside.rested.standing free
    (fun id waits => aside.family.inside (listed.mp waits)) fun {parent child} moves owned waits =>
      moves (listed.mpr (aside.family.parent forest (listed.mp waits)
        (owned.elim .inr fun ⟨i, _, found⟩ => .inl (Array.mem_of_getElem? found))))
  -- No graces wait before the item, so none do after it.
  have quiet : (false : Bool) ∨ s.graces = none := .inr aside.calm.graces
  have standing := standing.waiting s.graces quiet
  obtain ⟨_, _, -, rfl, after⟩ := ((duet_standing closed_true).follows_perform depth 0 item).ok
    ⟨⟨rfl, trivial⟩, rfl, standing⟩ done
  have member := List.mem_singleton_self here
  have shares := ((custody_shares sparse f).perform depth (m := false) member 0 plain).ok
    ⟨aside.rested.tended, aside.calm.shares⟩ done
  have still : s.arena.Still F t.arena := fun _ known => after.poised.still _ (listed.mpr known)
  exact {
    rested := handover_rested.item aside.rested done
    calm := ⟨shares.holds, after.graces.resolve_left nofun⟩
    channels := (upkeep_channels past.channels).perform (m := false) member aside.channels done
    other := aside.other
    family := aside.family.still still (List.Subset.refl _)
    still := aside.still.trans still }

end Aside

/-- What a node does that concerns the timeline only; it answers what it plays again. -/
def playLocal (here : TimelineId) : Node → Play (List Node)
  | .item item => do
    let _ ← perform ((← get).gas.remaining + 1) here 0 item
    return []
  | .repeatOpen offset => do
    onRepeats here (Repeats.start offset)
    return []
  | .repeatClose offset count => do onRepeats here (Repeats.close offset count (← get).gas.remaining)
  | .volta offset ending => do
    onRepeats here (Repeats.volta offset ending)
    return []
  | _ => return []

/-- One such node from the queue. -/
def stepLocal (here : TimelineId) (queued : Queued) : Play (List Node) := do
  if !queued.node.isItem then burn queued.node.offset
  if !queued.again && !queued.node.isSecondaVolta then adjustRepeats (some here) Repeats.expire
  let again ← playLocal here queued.node
  if !queued.again then adjustRepeats (some here) (Repeats.record queued.node)
  return again

theorem step_local {queued : Queued} (known : queued.node.Local) (here : TimelineId) :
    step (some here) queued = do return (some here, ← stepLocal here queued) := by
  have when {α β : Type} (c : Bool) (p : Play PUnit) (k : Play α) (g : α → Play β) :
      (if c = true then p >>= fun _ => k else k) >>= g =
        if c = true then p >>= fun _ => k >>= g else k >>= g := by
    cases c
    · rfl
    · exact bind_assoc ..
  obtain ⟨node, again⟩ := queued
  unfold step stepLocal
  simp only [when, bind_assoc, pure_bind]
  cases node with
  | channel | «global» | define | declareEmoji => exact known.elim
  | _ => simp only [performNode, activate, playLocal, bind_assoc, pure_bind]

section Steps
variable {past : Session}

theorem burn_ok {offset : Nat} {a : Unit} (done : (burn offset).run s = .ok a t) :
    t = { s with gas := ⟨s.gas.remaining - 1⟩ } := by
  rw [burn_run] at done
  split at done
  · exact nomatch done
  · cases done
    rfl

/-- What such a node leaves alone: it burns gas, changes the repeats of its timeline and performs an
item. -/
theorem keeps_stepLocal {P : Session → Prop} {queued : Queued}
    (spend : ∀ {s : Session} {gas : Gas}, gas.remaining ≤ s.gas.remaining → P s →
      P { s with gas := gas })
    (repeats : ∀ {s : Session} (r : Repeats), P s → P (s.setRepeats here r))
    (performed : ∀ {s t : Session} {depth item ticks}, queued.node = .item item → P s →
      (perform depth here 0 item).run s = .ok ticks t → P t) :
    Keeps P (stepLocal here queued) fun _ => P := by
  have burnt (offset : Nat) : Keeps P (burn offset) fun _ => P := fun s a t holds done => by
    rw [burn_ok done]
    exact spend (Nat.sub_le ..) holds
  have onRepeats {α : Type} (step : Step Repeats α) : Keeps P (onRepeats here step) fun _ => P := by
    intro s a t holds done
    rw [onRepeats_run] at done
    split at done
    · cases done
      exact repeats _ holds
    · exact nomatch done
  have adjustRepeats (change : Repeats → Repeats) :
      Keeps P (adjustRepeats (some here) change) fun _ => P := by
    intro s a t holds done
    rw [adjustRepeats_run] at done
    cases done
    exact repeats _ holds
  have played : Keeps P (playLocal here queued.node) fun _ => P := by
    cases same : queued.node with
    | item item =>
      refine Keeps.read fun s => Keeps.bind (Q := fun _ => P) ?_ fun _ => .pure id
      exact fun _ _ _ holds done => performed same holds done
    | repeatOpen | volta => exact (onRepeats _).bind fun _ => .pure id
    | repeatClose => exact Keeps.read fun s => onRepeats _
    | channel | «global» | define | declareEmoji => exact .pure id
  unfold stepLocal
  refine Keeps.when (burnt _) (Keeps.when (adjustRepeats _) (played.bind fun again => ?_))
  exact Keeps.when (adjustRepeats _) (.pure id)

theorem keeps_channels {queued : Queued} (channels : Array TimelineId) :
    Keeps (fun s => s.channels = channels) (stepLocal here queued) fun _ s => s.channels = channels :=
  keeps_stepLocal (fun _ same => same) (fun _ same => same) fun _ same done =>
    (upkeep_channels channels).perform (m := false) (List.mem_singleton_self here) same done

/-- A node leaves a family alone that its timeline does not belong to. -/
theorem Aside.keeps (sparse : d.Ungrouped) {queued : Queued} (known : queued.node.Local) :
    Keeps (Aside d f F past here) (stepLocal here queued) fun _ => Aside d f F past here := by
  refine keeps_stepLocal (fun {s gas} less aside => ?_) (fun r aside => aside.setRepeats r)
    fun {s t depth item ticks} same aside done => ?_
  · exact { aside with
      rested := handover_rested.aside aside.rested rfl rfl rfl less
      calm := ⟨{ aside.calm.shares with }, aside.calm.graces⟩ }
  · rw [same] at known
    exact aside.perform sparse known done

end Steps
end Session
end TextScore
