import TextScore.Proofs.Effects

/-! Contracts of steps: from which states a step ends in which states, and with which faults it may
fail. They compose as steps do. -/
namespace TextScore

namespace Step
variable {σ α β : Type}

/-- From states of `P` a step ends in states of `Q`, or it fails with a fault of `E`. -/
def Contract (E : Fault → Prop) (P : σ → Prop) (p : Step σ α) (Q : α → σ → Prop) : Prop :=
  ∀ ⦃s⦄, P s → match p.run s with
    | .ok a t => Q a t
    | .error fault _ => E fault

namespace Contract
variable {E : Fault → Prop} {P P' : σ → Prop} {p : Step σ α} {Q Q' : α → σ → Prop}
  {R : β → σ → Prop} {s t : σ} {a : α}

theorem ok (contract : Contract E P p Q) (before : P s) (done : p.run s = .ok a t) : Q a t := by
  have after := contract before
  rwa [done] at after

theorem error (contract : Contract E P p Q) {fault : Fault} (before : P s)
    (failed : p.run s = .error fault t) : E fault := by
  have after := contract before
  rwa [failed] at after

theorem of_results (ok : ∀ {s a t}, P s → p.run s = .ok a t → Q a t)
    (error : ∀ {s fault t}, P s → p.run s = .error fault t → E fault) : Contract E P p Q := by
  intro s before
  cases result : p.run s with
  | ok a t => exact ok before result
  | error fault t => exact error before result

theorem allow {E' : Fault → Prop} (contract : Contract E P p Q)
    (more : ∀ {fault}, E fault → E' fault) : Contract E' P p Q :=
  .of_results (fun h done => contract.ok h done) fun h failed => more (contract.error h failed)

/-- A run of the step goes along with itself. -/
theorem lockstep (contract : Contract E P p Q) : Follows (fun fault fault' => fault = fault' ∧ E fault)
    (.lockstep P) p p fun a => .lockstep (Q a) := by
  refine ⟨?_, fun _ _ left => left.elim⟩
  rintro s _ ⟨rfl, before⟩
  cases result : p.run s with
  | ok a t => exact ⟨rfl, rfl, contract.ok before result⟩
  | error fault t => exact ⟨rfl, contract.error before result⟩

theorem mono (contract : Contract E P p Q) (before : ∀ {s}, P' s → P s)
    (after : ∀ {a s}, Q a s → Q' a s) : Contract E P' p Q' :=
  .of_results (fun h done => after (contract.ok (before h) done))
    fun h failed => contract.error (before h) failed

/-- What holds in one state only. -/
theorem start (contract : Contract E P p Q) (before : P s) : Contract E (fun t => t = s) p Q :=
  contract.mono (fun same => same ▸ before) id

theorem pure (h : ∀ {s}, P s → Q a s) : Contract E P (Pure.pure a) Q := fun _ before => h before

theorem failAt {offset : Nat} {cause : Cause} (allowed : E ⟨cause, offset⟩) :
    Contract E P (Step.failAt offset cause) Q := fun _ _ => allowed

theorem bind {f : α → Step σ β} (first : Contract E P p Q)
    (second : ∀ a, Contract E (Q a) (f a) R) : Contract E P (p >>= f) R := by
  intro s before
  have after := first before
  rw [EStateM.run_bind]
  cases result : p.run s with
  | ok a t =>
    rw [result] at after
    exact second a after
  | error fault t =>
    rw [result] at after
    exact after

theorem guarded {c : Prop} [Decidable c] {offset : Nat} {cause : Cause} {f : PUnit → Step σ β}
    (allowed : E ⟨cause, offset⟩) (rest : ¬ c → Contract E P (f ⟨⟩) R) :
    Contract E P (if c then Step.failAt offset cause >>= f else f ⟨⟩) R := by
  split
  · exact fun _ _ => allowed
  · next refused => exact rest refused

theorem read {f : σ → Step σ β} (rest : ∀ s, P s → Contract E (fun t => t = s) (f s) R) :
    Contract E P (get >>= f) R := fun s before => rest s before rfl

theorem modify {f : σ → σ} {R : PUnit → σ → Prop} (h : ∀ {s}, P s → R ⟨⟩ (f s)) :
    Contract E P (modify f) R := fun _ before => h before

theorem foldlM {f : β → α → Step σ β} {xs : List α}
    (each : ∀ b, ∀ x ∈ xs, Contract E P (f b x) fun _ => P) (b : β) :
    Contract E P (xs.foldlM f b) fun _ => P := by
  induction xs generalizing b with
  | nil => exact pure id
  | cons x xs ih =>
    rw [List.foldlM_cons]
    exact (each b x List.mem_cons_self).bind fun b =>
      ih (fun b y member => each b y (List.mem_cons_of_mem x member)) b

/-- Somewhere along a list one invariant may take over from another. -/
theorem foldlM_turn {P' : σ → Prop} {f : β → α → Step σ β} {xs : List α}
    (before : ∀ b, ∀ x ∈ xs, Contract E P (f b x) fun _ => P)
    (after : ∀ b, ∀ x ∈ xs, Contract E P' (f b x) fun _ => P')
    (turns : (∀ {s}, P s → P' s) ∨ ∃ x ∈ xs, ∀ b, Contract E P (f b x) fun _ => P') (b : β) :
    Contract E P (xs.foldlM f b) fun _ => P' := by
  rcases turns with already | ⟨x, listed, turns⟩
  · exact (foldlM after b).mono already id
  induction xs generalizing b with
  | nil => exact nomatch listed
  | cons y xs ih =>
    have later : ∀ b, ∀ z ∈ xs, Contract E P' (f b z) fun _ => P' :=
      fun b z member => after b z (List.mem_cons_of_mem y member)
    rw [List.foldlM_cons]
    rcases List.mem_cons.mp listed with rfl | listed
    · exact (turns b).bind fun b => foldlM later b
    · exact (before b y List.mem_cons_self).bind fun b =>
        ih (fun b z member => before b z (List.mem_cons_of_mem y member)) later b listed

theorem forM {f : α → Step σ PUnit} {xs : List α}
    (each : ∀ x ∈ xs, Contract E P (f x) fun _ => P) : Contract E P (xs.forM f) fun _ => P := by
  induction xs with
  | nil => exact pure id
  | cons x xs ih =>
    exact (each x List.mem_cons_self).bind fun _ =>
      ih fun y member => each y (List.mem_cons_of_mem x member)

/-- One answer for each element, each of which is good. -/
theorem mapM {G : β → Prop} {f : α → Step σ β} {xs : List α}
    (each : ∀ x ∈ xs, Contract E P (f x) fun b s => G b ∧ P s) :
    Contract E P (xs.mapM f) fun bs s => bs.length = xs.length ∧ (∀ b ∈ bs, G b) ∧ P s := by
  induction xs with
  | nil =>
    rw [List.mapM_nil]
    exact pure fun before => ⟨rfl, (fun _ member => nomatch member), before⟩
  | cons x xs ih =>
    have ih := ih fun y member => each y (List.mem_cons_of_mem x member)
    rw [List.mapM_cons]
    refine (each x List.mem_cons_self).bind fun b => ?_
    refine of_results (fun {s bs t} before done => ?_) fun {s fault t} before failed => ?_
    · obtain ⟨rest, u, mapped, done⟩ := bind_ok done
      obtain ⟨length, all, kept⟩ := ih.ok before.2 mapped
      cases done
      exact ⟨congrArg (· + 1) length, List.forall_mem_cons.mpr ⟨before.1, all⟩, kept⟩
    · exact (ih.bind fun _ => pure (Q := fun _ _ => True) fun _ => trivial).error before.2 failed

end Contract
end Step

/-- Causes of faults that depend on which items are performed: one declares a group that is there, or
stands where it has no meaning. -/
inductive Cause.Special : Cause → Prop
  | group (id : Nat) : Special (.groupRedeclared id)
  | stray : Special .strayBreakpoint

/-- Causes of faults that few steps have: a group is declared once more, a child is claimed that is
ahead of its parent, a breakpoint is performed, or a text is read that ends. -/
inductive Cause.Grave : Cause → Prop
  | group (id : Nat) : Grave (.groupRedeclared id)
  | child : Grave .childAheadOfParent
  | stray : Grave .strayBreakpoint
  | text : Grave .unexpectedEnd

theorem Cause.Special.grave {cause : Cause} : cause.Special → cause.Grave
  | .group id => .group id
  | .stray => .stray

/-- No child has been refused. -/
abbrev Fault.Admits (fault : Fault) : Prop := fault.cause ≠ .childAheadOfParent

/-- Steps that have no other faults than these. -/
abbrev Step.Blames {σ α : Type} (E : Fault → Prop) (p : Step σ α) : Prop :=
  Step.Contract E (fun _ => True) p fun _ _ => True

/-- Steps that declare no group and claim no child. -/
abbrev Step.Sober {σ α : Type} (p : Step σ α) : Prop := p.Blames fun fault => ¬ fault.cause.Grave

section Sober
open Step (Blames Sober Contract)
variable {σ α : Type} {E : Fault → Prop}

theorem blames_failAt {offset : Nat} {cause : Cause} (allowed : E ⟨cause, offset⟩) :
    Blames E (Step.failAt offset cause : Step σ α) := .failAt allowed

theorem blames_pure (a : α) : Blames E (pure a : Step σ α) := .pure id

theorem blames_modify (f : σ → σ) : Blames E (modify f : Step σ PUnit) := .modify id

theorem blames_read {f : σ → Step σ α} (rest : ∀ s, Blames E (f s)) : Blames E (get >>= f) :=
  .read fun s _ => (rest s).start trivial

theorem blames_unless {c : Prop} [Decidable c] {offset : Nat} {cause : Cause}
    {f : PUnit → Step σ α} (allowed : E ⟨cause, offset⟩) (rest : Blames E (f ⟨⟩)) :
    Blames E (if c then Step.failAt offset cause >>= f else f ⟨⟩) :=
  .guarded allowed fun _ => rest

theorem blames_within {τ : Type} {part : σ → τ} {replace : σ → τ → σ} {step : Step τ α}
    (blames : Blames E step) : Blames E (step.within part replace) := by
  refine .of_results (fun _ _ => trivial) fun {s fault t} _ failed => ?_
  rw [Step.within_run] at failed
  cases result : step.run (part s) with
  | ok a u =>
    rw [result] at failed
    exact nomatch failed
  | error fault' u =>
    rw [result] at failed
    cases failed
    exact blames.error trivial result

theorem blames_onArena {step : Step Arena α} (blames : Blames E step) :
    Blames E (Session.onArena step) := by
  refine .of_results (fun _ _ => trivial) fun {s fault t} _ failed => ?_
  rw [Session.onArena_run] at failed
  cases result : step.run s.arena with
  | ok a u =>
    rw [result] at failed
    exact nomatch failed
  | error fault' u =>
    rw [result] at failed
    cases failed
    exact blames.error trivial result

theorem blames_on {id : TimelineId} {step : Step Timeline α} (blames : Blames E step) :
    Blames E (Arena.on id step) := by
  refine .of_results (fun _ _ => trivial) fun {arena fault arena'} _ failed => ?_
  rw [Arena.on_run] at failed
  cases result : step.run (arena.timeline id) with
  | ok a u =>
    rw [result] at failed
    exact nomatch failed
  | error fault' u =>
    rw [result] at failed
    cases failed
    exact blames.error trivial result

theorem blames_update {id : TimelineId} (change : Timeline → α × Timeline) :
    Blames E (Arena.update id change) := blames_on (.of_results (fun _ _ => trivial) nofun)

theorem admits_of_sober {p : Step σ α} (sober : Sober p) : Blames Fault.Admits p :=
  sober.allow fun other same => other (same ▸ .child)

theorem sober_burn (offset : Nat) : Sober (Session.burn offset) :=
  blames_within ((blames_modify _).bind fun _ =>
    blames_read fun _ => blames_unless nofun (blames_pure _))

theorem sober_beginTuplet (here : TimelineId) (offset size : Nat) :
    Sober (Session.onTimeline here (Timeline.beginTuplet offset size)) := by
  refine blames_onArena (blames_on (blames_read fun t =>
    blames_unless nofun (blames_unless nofun ?_)))
  exact .of_results (fun _ _ => trivial) fun _ failed => nomatch failed

theorem blames_childAt (here : TimelineId) {offset : Nat} (slot : Slot)
    (child : E ⟨.childAheadOfParent, offset⟩) : Blames E (Arena.childAt here offset slot) := by
  refine blames_read fun _ => (blames_modify _).bind fun _ => blames_read fun _ => ?_
  refine (blames_modify _).bind fun _ => blames_read fun _ => blames_unless child ?_
  exact (blames_modify _).bind fun _ => blames_pure _

theorem sober_tie (here : TimelineId) (offset : Nat) : Sober (Arena.tie here offset) := by
  refine blames_read fun _ => (blames_update _).bind fun _ => blames_read fun arena => ?_
  dsimp only
  split
  · exact Contract.bind (blames_failAt nofun) fun _ => blames_pure _
  · exact (blames_modify _).bind fun _ => blames_pure _
  · exact (blames_modify _).bind fun _ => blames_pure _
  · exact (blames_modify _).bind fun _ => (blames_modify _).bind fun _ => blames_pure _

theorem blames_commitArpeggio (here : TimelineId) {offset : Nat} (staged : Staged) (interval : Nat)
    (long : E ⟨.arpeggioTooLong, offset⟩) (child : E ⟨.childAheadOfParent, offset⟩) :
    Blames E (Arena.commitArpeggio here offset staged interval) := by
  unfold Arena.commitArpeggio
  refine (blames_update _).bind fun _ => (blames_modify _).bind fun _ => ?_
  split
  · exact (blames_modify _).bind fun _ => blames_pure _
  · refine blames_unless long ?_
    refine Contract.bind (Q := fun _ _ => True) ?_ fun _ => ?_
    · refine (Contract.mapM (G := fun _ => True) fun i _ => ?_).mono id fun _ => trivial
      exact (blames_childAt here (.voice i) child).mono id fun _ => ⟨trivial, trivial⟩
    · exact (blames_modify _).bind fun _ => (blames_modify _).bind fun _ => blames_pure _

end Sober

/-- What an extended list of definitions has is new, or was there before. -/
theorem lookup_cons {α β : Type} [BEq α] [LawfulBEq α] {key other : α} {value found : β}
    {rest : List (α × β)} (same : ((key, value) :: rest).lookup other = some found) :
    other = key ∧ value = found ∨ rest.lookup other = some found := by
  rw [List.lookup_cons] at same
  split at same
  · next alike => exact .inl ⟨eq_of_beq alike, Option.some.inj same⟩
  · exact .inr same

namespace Definitions
variable (offset : Nat) (d : Definitions)

theorem group_run (id : Nat) : (group id offset).run d =
    (d.groups.lookup id).elim (.error ⟨.noSuchGroup id, offset⟩ d) (.ok · d) := by
  simp only [group, EStateM.run_bind, EStateM.run_get]
  cases d.groups.lookup id <;> rfl

theorem template_run (name : String) : (template name offset).run d =
    (d.templates.lookup name).elim (.error ⟨.noSuchUserRange name, offset⟩ d) (.ok · d) := by
  simp only [template, EStateM.run_bind, EStateM.run_get]
  cases d.templates.lookup name <;> rfl

theorem emoji_run (symbol : String) : (emoji symbol offset).run d =
    (d.emojis.lookup symbol).elim (.error ⟨.noSuchEmoji symbol, offset⟩ d) (.ok · d) := by
  simp only [emoji, EStateM.run_bind, EStateM.run_get]
  cases d.emojis.lookup symbol <;> rfl

theorem declareGroup_run (id : Nat) (body : List Item) : (declareGroup id body offset).run d =
    if (d.groups.lookup id).isSome then .error ⟨.groupRedeclared id, offset⟩ d
    else .ok () { d with groups := (id, body) :: d.groups } := by
  simp only [declareGroup, EStateM.run_bind, EStateM.run_get]
  split <;> rfl

end Definitions

/-- A group is declared unless there is one of its number. -/
theorem Session.declareGroup_run (offset id : Nat) (body : List Item) (s : Session) :
    (onDefinitions (Definitions.declareGroup id body offset)).run s =
      if (s.definitions.groups.lookup id).isSome then .error ⟨.groupRedeclared id, offset⟩ s
      else .ok () { s with definitions :=
        { s.definitions with groups := (id, body) :: s.definitions.groups } } := by
  simp only [onDefinitions, Step.within_run, Definitions.declareGroup_run]
  by_cases declared : (s.definitions.groups.lookup id).isSome
  · simp only [if_pos declared]
  · simp only [if_neg declared]

theorem Session.declareGroup_ok {offset id : Nat} {body : List Item} {s t : Session} {a : Unit}
    (done : (onDefinitions (Definitions.declareGroup id body offset)).run s = .ok a t) :
    s.definitions.groups.lookup id = none ∧ t = { s with definitions :=
      { s.definitions with groups := (id, body) :: s.definitions.groups } } := by
  rw [declareGroup_run] at done
  split at done
  · exact nomatch done
  · next new =>
    cases done
    exact ⟨Option.not_isSome_iff_eq_none.mp new, rfl⟩

theorem Session.declareGroup_error {offset id : Nat} {body : List Item} {s t : Session}
    {fault : Fault}
    (failed : (onDefinitions (Definitions.declareGroup id body offset)).run s = .error fault t) :
    fault = ⟨.groupRedeclared id, offset⟩ ∧ t = s := by
  rw [declareGroup_run] at failed
  split at failed
  · cases failed
    exact ⟨rfl, rfl⟩
  · exact nomatch failed

end TextScore
