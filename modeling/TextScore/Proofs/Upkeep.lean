import Mathlib.Tactic.ByContra
import TextScore.Proofs.Traversal

/-! Invariants of performances. What the primitive steps keep holds after every item, and also
whenever an item inside another one is about to be performed. -/
namespace TextScore.Session
open Step (Follows)

/-- A family of invariants that the primitive steps keep, with members as in a simulation. -/
structure Upkeep (I : (measuring : Bool) → (live : List TimelineId) → Session → Prop) : Prop where
  shrink : ∀ {m live live' s}, live ⊆ live' → I m live' s → I m live s
  primitive : ∀ {m live here α} {p : Play α} {s t : Session} {a : α}, here ∈ live →
    Primitive here p → I m live s → p.run s = .ok a t → I m live t
  branch : ∀ {m live here offset index child} {s t : Session}, here ∈ live → I m live s →
    (onArena (Arena.childAt here offset (.branch index))).run s = .ok child t →
    I m (child :: live) t
  copy : ∀ {m live s}, I m live s → I true live s.measured

namespace Upkeep
variable {I : (measuring : Bool) → (live : List TimelineId) → Session → Prop} {m : Bool}
  {live : List TimelineId} {here : TimelineId} {depth : Nat}

/-- Both runs are the same one, and one that has failed goes no further. -/
def lockstep (I : (measuring : Bool) → (live : List TimelineId) → Session → Prop) (m : Bool)
    (live : List TimelineId) : Coupling Session where
  both s s' := s = s' ∧ I m live s
  alone _ _ := False

theorem follows_same {α : Type} {p : Play α} {P : Session → Prop} {Q : α → Session → Prop}
    {L : Fault → Session → Prop} {L' : α → Fault → Session → Prop}
    {meets : Fault → Fault → Prop} (reflexive : ∀ fault, meets fault fault)
    (loose : ∀ {fault fault' s}, L fault s → meets fault fault')
    (kept : ∀ {s t a}, P s → p.run s = .ok a t → Q a t)
    (left : ∀ {fault s t a}, L fault s → p.run s = .ok a t → L' a fault t) :
    Follows meets ⟨fun s s' => s = s' ∧ P s, L⟩ p p fun a => ⟨fun s s' => s = s' ∧ Q a s, L' a⟩ := by
  constructor
  · rintro s _ ⟨rfl, h⟩
    cases done : p.run s with
    | ok a t => exact ⟨rfl, rfl, kept h done⟩
    | error fault t => exact reflexive fault
  · intro fault s h
    cases done : p.run s with
    | ok a t => exact left h done
    | error fault' t => exact loose h

theorem simulation (up : Upkeep I) : Simulation Eq (lockstep I) where
  reflexive _ := rfl
  loose left := left.elim
  lone left := left.elim
  alike coupled := coupled.1 ▸ .refl _
  shrink within := ⟨fun h => ⟨h.1, up.shrink within h.2⟩, id⟩
  primitive member p :=
    follows_same (fun _ => rfl) False.elim (fun h => up.primitive member p h) False.elim
  branch member _ _ :=
    follows_same (fun _ => rfl) False.elim (fun h => up.branch member h) False.elim
  copy coupled := ⟨congrArg measured coupled.1, up.copy coupled.2⟩
  copyAlone _ left := left.elim

/-- An invariant holds after every item that is performed. -/
theorem perform (up : Upkeep I) {references ticks : Nat} {item : Item} {s t : Session}
    (member : here ∈ live) (before : I m live s)
    (done : (perform depth here references item).run s = .ok ticks t) : I m live t := by
  obtain ⟨_, _, rfl, after⟩ :=
    (up.simulation.follows_perform depth member references item).ok ⟨rfl, before⟩ done
  exact after

end Upkeep

/-- An item about to be performed. -/
structure Call where
  here : TimelineId
  references : Nat
  item : Item
  session : Session

def Performer.answer (p : Performer) (c : Call) : EStateM.Result Fault Session Nat :=
  (p c.here c.references c.item).run c.session

/-- A performer that refuses one call and otherwise answers as another one. -/
structure Refuses (call : Call) (fault : Fault) (inner refusing : Performer) : Prop where
  refused : ∃ t, refusing.answer call = .error fault t
  otherwise : ∀ other, other ≠ call → refusing.answer other = inner.answer other

/-- Performing the outer item performs the inner one: to refuse the inner call fails the outer
one. -/
def Asks (inner : Performer) (outer call : Call) : Prop :=
  ∀ fault refusing, Refuses call fault inner refusing →
    ∃ t, (performWith refusing).answer outer = .error fault t

open Classical in
theorem exists_refuses (call : Call) (fault : Fault) (inner : Performer) :
    ∃ refusing, Refuses call fault inner refusing := by
  refine ⟨fun here references item s =>
    if (⟨here, references, item, s⟩ : Call) = call then .error fault s
    else (inner here references item).run s, ⟨call.session, if_pos rfl⟩, ?_⟩
  intro other different
  exact if_neg different

/-- A call that is made belongs to any kind of calls such that nobody would notice if others were
refused. -/
theorem Asks.of_unnoticed {inner : Performer} {outer call : Call} (asks : Asks inner outer call)
    {I : Call → Prop} (meets : Fault → Fault → Prop) (Q : Nat → Coupling Session)
    (same : ∀ {fault fault'}, meets fault fault' → fault = fault')
    (unnoticed : ∀ refusing : Performer,
      (∀ other, I other → refusing.answer other = inner.answer other) →
        Coupling.Agree meets Q ((performWith inner).answer outer)
          ((performWith refusing).answer outer)) :
    I call := by
  by_contra never
  have agree (fault : Fault) : ∃ t, Coupling.Agree meets Q ((performWith inner).answer outer)
      (.error fault t) := by
    obtain ⟨refusing, refuses⟩ := exists_refuses call fault inner
    obtain ⟨t, failed⟩ := asks fault refusing refuses
    refine ⟨t, failed ▸ unnoticed refusing fun other known => refuses.otherwise other ?_⟩
    rintro rfl
    exact never known
  cases result : (performWith inner).answer outer with
  | ok ticks t =>
    obtain ⟨_, agree⟩ := agree ⟨.exhausted, 0⟩
    rw [result] at agree
    exact agree
  | error fault t =>
    obtain ⟨_, agree⟩ := agree { fault with offset := fault.offset + 1 }
    rw [result] at agree
    have offsets : fault.offset = fault.offset + 1 := congrArg Fault.offset (same agree)
    omega

namespace Upkeep
variable {I : (measuring : Bool) → (live : List TimelineId) → Session → Prop} {m : Bool}
  {live : List TimelineId} {depth : Nat} {outer call : Call}

/-- An invariant holds whenever an item inside another one is about to be performed. -/
theorem asked (up : Upkeep I) (member : outer.here ∈ live) (before : I m live outer.session)
    (asks : Asks (Session.perform depth) outer call) :
    ∃ m' live', call.here ∈ live' ∧ I m' live' call.session := by
  refine asks.of_unnoticed (I := fun other => ∃ m' live', other.here ∈ live' ∧
    I m' live' other.session) Eq (fun _ => lockstep I m live) id fun refusing alike => ?_
  have unnoticed : Performer.Follows Eq (lockstep I) (Session.perform depth) refusing := by
    intro m live here member references item
    refine ⟨?_, fun _ _ left => left.elim⟩
    rintro s _ ⟨rfl, h⟩
    have same : (refusing here references item).run s = _ :=
      alike ⟨here, references, item, s⟩ ⟨m, live, member, h⟩
    rw [same]
    exact (up.simulation.follows_perform depth member references item).both s s ⟨rfl, h⟩
  exact (up.simulation.follows_with unnoticed (m := m) member
    outer.references outer.item).both _ _ ⟨rfl, before⟩

/-- States before and after a call has been answered. A run in which the call is refused has failed
by then; the other run keeps a second invariant. -/
private def answered (I J : (measuring : Bool) → (live : List TimelineId) → Session → Prop)
    (fault : Fault) (m : Bool) (live : List TimelineId) : Coupling Session where
  both s s' := s = s' ∧ I m live s
  alone fault' s := fault' = fault ∧ m = false ∧ J m live s

private theorem simulation_answered (up : Upkeep I) (later : Upkeep J) (fault : Fault) :
    Simulation (fun f f' => f = f' ∨ f = fault) (answered I J fault) where
  reflexive _ := .inl rfl
  loose left _ := .inr left.1
  lone left := .inr fun _ => .inr left.1
  alike coupled := coupled.1 ▸ .refl _
  shrink within := ⟨And.imp_right (up.shrink within),
    And.imp_right (And.imp_right (later.shrink within))⟩
  primitive member p := follows_same (fun _ => .inl rfl) (fun left => .inr left.1)
    (fun h => up.primitive member p h)
    fun left done => ⟨left.1, left.2.1, later.primitive member p left.2.2 done⟩
  branch member _ _ := follows_same (fun _ => .inl rfl) (fun left => .inr left.1)
    (fun h => up.branch member h)
    fun left done => ⟨left.1, left.2.1, later.branch member left.2.2 done⟩
  copy coupled := ⟨congrArg measured coupled.1, up.copy coupled.2⟩
  copyAlone _ left := absurd left.2.1 Bool.noConfusion

/-- What holds once an inner item has been performed, and is kept, still holds when the item around
it has been. Items on a copy that is only measured are left out, since the copy is thrown away. -/
theorem resumed (up : Upkeep I) (later : Upkeep J)
    (marked : ∀ {m live s}, I m live s → s.measuring = m) (member : outer.here ∈ live)
    (before : I m live outer.session) (asks : Asks (Session.perform depth) outer call)
    (real : call.session.measuring = false)
    (established : ∀ {m live ticks t}, call.here ∈ live → I m live call.session →
      (Session.perform depth).answer call = .ok ticks t → J m live t)
    {ticks : Nat} {t : Session}
    (done : (performWith (Session.perform depth)).answer outer = .ok ticks t) :
    J m live t := by
  obtain ⟨refusing, refuses⟩ := exists_refuses call ⟨.exhausted, 0⟩ (Session.perform depth)
  have follows : Performer.Follows (fun f f' => f = f' ∨ f = ⟨.exhausted, 0⟩)
      (answered I J ⟨.exhausted, 0⟩) refusing (Session.perform depth) := by
    intro m live here member references item
    have same := (simulation_answered up later ⟨.exhausted, 0⟩).follows_perform depth
      member (m := m) references item
    refine ⟨?_, same.alone⟩
    rintro s _ ⟨rfl, h⟩
    by_cases asked : (⟨here, references, item, s⟩ : Call) = call
    · subst asked
      obtain ⟨u, refused⟩ := refuses.refused
      have refused : (refusing here references item).run s = _ := refused
      rw [refused]
      cases answer : (Session.perform depth here references item).run s with
      | ok ticks u => exact ⟨rfl, (marked h).symm.trans real, established member h answer⟩
      | error fault' u => exact .inr rfl
    · have unchanged : (refusing here references item).run s = _ := refuses.otherwise _ asked
      rw [unchanged]
      exact same.both s s ⟨rfl, h⟩
  have agree := ((simulation_answered up later ⟨.exhausted, 0⟩).follows_with follows member
    outer.references outer.item).both outer.session outer.session ⟨rfl, before⟩
  obtain ⟨u, failed⟩ := asks _ refusing refuses
  simp only [Performer.answer] at failed done
  rw [failed, done] at agree
  exact agree.2.2

end Upkeep

end TextScore.Session
