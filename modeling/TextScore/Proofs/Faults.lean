import TextScore.Proofs.Stewardship

/-! Faults of nodes. Nodes that are no items declare no group, claim no child and have no breakpoints,
so none of their faults is a second declaration, a child ahead of its parent or a stray breakpoint. -/
namespace TextScore.Session
open Step (Blames Contract Sober)
variable {active : Option TimelineId}

theorem sober_startChannel (channel : Nat) : Sober (startChannel channel) :=
  Contract.bind (blames_onArena (.of_results (fun _ _ => trivial) nofun)) fun _ =>
    (blames_modify _).bind fun _ => blames_pure _

theorem sober_activate (active : Option TimelineId) : Sober (activate active) := by
  cases active with
  | none => exact sober_startChannel 1
  | some here => exact blames_pure here

theorem sober_conduct (active : Option TimelineId) (offset : Nat) (event : Conductor → Conductor) :
    Sober (conduct active offset event) := by
  have moved (tick : Nat) : Sober (do
      onConductor (Conductor.moveTo offset tick)
      modify fun s => { s with conductor := event s.conductor } : Play PUnit) := by
    refine Contract.bind (blames_within (blames_read fun c => blames_unless nofun ?_)) fun _ =>
      blames_modify _
    split
    · exact .of_results (fun _ _ => trivial) nofun
    · exact blames_pure _
  cases active with
  | none => exact moved 0
  | some here => exact Custody.atTimeline fun s _ => (moved _).start trivial

theorem sober_globalSetting (active : Option TimelineId) (offset : Nat) (key value : String) :
    Sober (globalSetting active offset key value) := by
  simp only [globalSetting]
  split
  · split
    · exact sober_conduct active offset _
    · exact blames_failAt (by rintro ⟨⟩)
  · split
    · exact sober_conduct active offset _
    · exact blames_failAt (by rintro ⟨⟩)
  · split
    · exact blames_modify _
    · exact blames_failAt (by rintro ⟨⟩)
  · exact blames_failAt (by rintro ⟨⟩)

theorem sober_declareChannel (offset id : Nat) (resume : Bool) :
    Sober (declareChannel offset id resume) := by
  unfold declareChannel
  refine blames_unless nofun ?_
  split
  · refine blames_read fun s => ?_
    split
    · exact blames_pure _
    · exact blames_failAt nofun
  · exact sober_startChannel id

theorem sober_ensureClosed (r : Repeats) : Sober (match r.ensureClosed with
    | .ok () => return
    | .error fault => throw fault : Play Unit) := by
  unfold Repeats.ensureClosed
  cases r.capture with
  | none => exact blames_pure _
  | some capture => exact blames_failAt (by rintro ⟨⟩)

theorem sober_ensureRepeatClosed (active : Option TimelineId) : Sober (ensureRepeatClosed active) := by
  cases active with
  | none => exact blames_pure _
  | some here =>
    refine Custody.atTimeline fun s _ => ?_
    exact (sober_ensureClosed (s.arena.timeline here).repeats).start trivial

theorem sober_adjustRepeats (active : Option TimelineId) (f : Repeats → Repeats) :
    Sober (adjustRepeats active f) := by
  cases active with
  | none => exact blames_pure _
  | some here => exact blames_modify _

section Repeats
variable (here : TimelineId) (offset : Nat)

theorem sober_onRepeats {α : Type} {step : Step Repeats α} (sober : Sober step) :
    Sober (onRepeats here step) := blames_onArena (blames_on (blames_within sober))

theorem sober_start : Sober (onRepeats here (Repeats.start offset)) :=
  sober_onRepeats here (blames_read fun _ => blames_unless nofun (blames_modify _))

theorem sober_close (count : Option Nat) (budget : Nat) :
    Sober (onRepeats here (Repeats.close offset count budget)) := by
  unfold Repeats.close
  refine sober_onRepeats here (blames_unless nofun (blames_read fun r => ?_))
  refine Contract.bind (Q := fun _ _ => True) (.of_results (fun _ _ => trivial) nofun) fun _ => ?_
  split
  · exact blames_unless nofun ((blames_modify _).bind fun _ => blames_pure _)
  · split
    · exact blames_failAt nofun
    · exact blames_pure _

theorem sober_volta (ending : Volta) : Sober (onRepeats here (Repeats.volta offset ending)) := by
  refine sober_onRepeats here ?_
  cases ending with
  | prima =>
    refine blames_read fun r => ?_
    split
    · exact blames_failAt nofun
    · split
      · exact blames_failAt nofun
      · exact blames_pure _
  | seconda => exact blames_read fun _ => blames_unless nofun (blames_modify _)

end Repeats

theorem sober_define (name : String) (template : List Item) (offset : Nat) :
    Sober (onDefinitions (Definitions.defineTemplate name template offset)) :=
  blames_within (blames_read fun _ => blames_unless nofun (.of_results (fun _ _ => trivial) nofun))

theorem sober_declareEmoji (symbol : String) (setting : Setting) (offset : Nat) :
    Sober (onDefinitions (Definitions.declareEmoji symbol setting offset)) :=
  blames_within (blames_read fun _ => blames_unless nofun (.of_results (fun _ _ => trivial) nofun))

theorem sober_performNode {node : Node} (plain : node.isItem = false) :
    Sober (performNode active node) := by
  cases node with
  | item => exact nomatch plain
  | channel offset id resume =>
    exact (sober_ensureRepeatClosed active).bind fun _ =>
      (sober_declareChannel offset id resume).bind fun _ => blames_pure _
  | «global» offset key value =>
    exact (sober_globalSetting active offset key value).bind fun _ => blames_pure _
  | define offset name template =>
    exact (sober_define name template offset).bind fun _ => blames_pure _
  | declareEmoji offset symbol setting =>
    exact (sober_declareEmoji symbol setting offset).bind fun _ => blames_pure _
  | repeatOpen offset =>
    exact (sober_activate active).bind fun here => (sober_start here offset).bind fun _ => blames_pure _
  | repeatClose offset count =>
    exact (sober_activate active).bind fun here => blames_read fun s =>
      (sober_close here offset count s.gas.remaining).bind fun _ => blames_pure _
  | volta offset ending =>
    exact (sober_activate active).bind fun here =>
      (sober_volta here offset ending).bind fun _ => blames_pure _

theorem sober_when {α : Type} {c : Prop} [Decidable c] {p : Play PUnit} {f : PUnit → Play α}
    (first : Sober p) (rest : Sober (f ⟨⟩)) : Sober (if c then p >>= f else f ⟨⟩) := by
  split
  · exact first.bind fun _ => rest
  · exact rest

theorem sober_approach (active : Option TimelineId) (again : Bool) : Sober (approach active again) := by
  unfold approach
  exact sober_when (sober_adjustRepeats active _) (sober_activate active)

/-- All faults of a node are its own, unless it is an item. -/
theorem sober_step {queued : Queued} (plain : queued.node.isItem = false) :
    Sober (step active queued) := by
  unfold step
  refine sober_when (sober_burn _) (sober_when (sober_adjustRepeats active _) ?_)
  refine (sober_performNode plain).bind fun next => ?_
  exact sober_when (sober_adjustRepeats next.1 _) (blames_pure _)

/-- A node fails as its item may fail, or with a fault of its own. -/
theorem Stewardship.step_fails {E : Fault → Prop} {fits fits' : List Modifier → Item → Prop}
    {P : List Modifier → Session → Prop} {good : Node → Prop} (steward : Stewardship fits P good)
    (custody : Custody E fits' P) {queued : Queued}
    (within : ∀ {item}, queued.node = .item item → fits' [] item) :
    Contract E (Settled P active) (Session.step active queued) fun _ _ => True := by
  have own {α : Type} {R : Session → Prop} {p : Play α} (sober : Sober p) :
      Contract E R p fun _ _ => True :=
    (sober.mono (fun _ => trivial) id).allow fun own => custody.fault fun special => own special.grave
  obtain ⟨node, again⟩ := queued
  cases node with
  | item item =>
    rw [step_item]
    refine Contract.bind (Q := fun here => Settled P (some here))
      (.of_results (fun kept done => steward.approach again kept done)
        fun _ failed => (own (R := fun _ => True) (sober_approach active again)).error trivial failed) fun here => ?_
    refine .read fun s kept => ?_
    have performed := (custody.perform (s.gas.remaining + 1) (List.mem_singleton_self here) 0
      (within rfl)).start kept
    exact performed.bind fun _ =>
      own (sober_when (sober_adjustRepeats (some here) _) (blames_pure _))
  | _ => exact own (sober_step rfl)

end TextScore.Session
