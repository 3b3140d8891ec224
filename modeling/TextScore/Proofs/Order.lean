import Mathlib.Tactic.ByContra
import TextScore.Proofs.Contracts
import TextScore.Proofs.Depths

/-! The order in which a performance makes its calls. Of two calls that performing an item makes, one is
answered before the other one is made, and by then gas has been burnt. -/
namespace TextScore.Session
open Step (Blames Follows)

variable {depth : Nat} {here : TimelineId} {s t : Session} {α β : Type} {call other outer : Call}

theorem blames_request {step : Step Definitions α} (request : Definitions.Request step) :
    Blames (·.cause ≠ .unexpectedEnd) step := by
  cases request with
  | declareGroup id body offset =>
    exact blames_read fun _ => blames_unless nofun (blames_modify _)
  | group | template | emoji =>
    refine blames_read fun _ => ?_
    split
    · exact blames_pure _
    · exact blames_failAt nofun

/-- Performing reads no text, so none of its steps finds that one has ended. -/
theorem Primitive.blames {p : Play α} (primitive : Primitive here p) :
    Blames (·.cause ≠ .unexpectedEnd) p := by
  have sober {p : Play α} (sober : p.Sober) : Blames (·.cause ≠ .unexpectedEnd) p :=
    sober.allow fun light same => light (same ▸ .text)
  cases primitive with
  | burn offset => exact sober (sober_burn offset)
  | change | modifiers | graces | onsets | restore => exact blames_modify _
  | beginTuplet offset size => exact sober (sober_beginTuplet here offset size)
  | reserve | rest | note => exact blames_onArena (blames_update _)
  | arpeggio => exact blames_onArena (blames_commitArpeggio _ _ _ nofun nofun)
  | tie offset => exact sober (blames_onArena (sober_tie here offset))
  | definitions request => exact blames_within (blames_request request)

/-- A fault that answers another one is the same, or one that performing may have. -/
def Answers (fault fault' : Fault) : Prop := fault = fault' ∨ fault'.cause ≠ .unexpectedEnd

/-- Whatever a run does that goes on alone. -/
def forgone : Coupling Session where
  both _ _ := False
  alone _ _ := True

theorem follows_forgone {p : Play α} (blames : Blames (·.cause ≠ .unexpectedEnd) p) :
    Follows Answers forgone p p fun _ => forgone := by
  refine ⟨fun _ _ coupled => coupled.elim, fun fault s _ => ?_⟩
  cases result : p.run s with
  | ok a t => trivial
  | error fault' t => exact .inr (blames.error trivial result)

theorem simulation_forgone : Simulation Answers fun _ _ => forgone where
  reflexive _ := .inl rfl
  loose _ played := .inr played
  alike coupled := coupled.elim
  shrink _ := .refl _
  primitive _ primitive := follows_forgone primitive.blames
  branch _ _ _ := follows_forgone (blames_onArena (blames_childAt _ _ nofun))
  lone _ := .inl trivial
  copy coupled := coupled.elim
  copyAlone coupled _ := coupled.elim

theorem perform_played {references : Nat} {item : Item} {fault : Fault}
    (failed : (perform depth here references item).run s = .error fault t) :
    fault.cause ≠ .unexpectedEnd := by
  have survives := (simulation_forgone.follows_perform depth (m := false)
    (List.mem_singleton_self here) references item).alone ⟨.exhausted, 0⟩ s trivial
  rw [failed] at survives
  rcases survives with rfl | played
  · exact nofun
  · exact played

/-- The same session in both runs, until the first one has failed so and the second one has less gas
than this. -/
def outrun (late : Fault) (n : Nat) (m : Bool) : Coupling Session where
  both s s' := s = s' ∧ s.measuring = m
  alone fault s := fault = late ∧ s.gas.remaining < n

section Outrun
variable {late : Fault} {n : Nat} {m : Bool}

theorem follows_outrun {p : Play α} (blames : Blames (·.cause ≠ .unexpectedEnd) p)
    (kept : ∀ {s a t}, p.run s = .ok a t → t.measuring = s.measuring ∧
      t.gas.remaining ≤ s.gas.remaining) :
    Follows Answers (outrun late n m) p p fun _ => outrun late n m := by
  constructor
  · rintro s _ ⟨rfl, marked⟩
    cases result : p.run s with
    | ok a t => exact ⟨rfl, rfl, (kept result).1.trans marked⟩
    | error fault t => exact .inl rfl
  · rintro fault s ⟨rfl, less⟩
    cases result : p.run s with
    | ok a t => exact ⟨rfl, Nat.lt_of_le_of_lt (kept result).2 less⟩
    | error fault t => exact .inr (blames.error trivial result)

theorem unison_outrun : Unison Answers fun m _ => outrun late n m where
  reflexive _ := .inl rfl
  loose _ played := .inr played
  alike coupled := coupled.1 ▸ .refl _
  shrink _ := .refl _
  primitive _ primitive := follows_outrun primitive.blames fun done =>
    ⟨(primitive.played done).measuring, (primitive.played done).gas⟩
  branch _ _ _ := follows_outrun (blames_onArena (blames_childAt _ _ nofun)) fun done => by
    obtain ⟨_, -, rfl⟩ := onArena_ok done
    exact ⟨rfl, Nat.le_refl _⟩

/-- Copies that are measured are the same in both runs. -/
theorem sways_outrun {inner inner' : Performer}
    (accompanies : Performer.Accompanies Answers (shared fun m _ => outrun late n m) inner inner')
    (copies : Performer.Follows Eq (Upkeep.lockstep fun _ _ s => s.measuring = true) inner inner') :
    Performer.Sways Answers (shared fun m _ => outrun late n m) inner inner' := by
  intro here here' use references offset direction target body
  refine unison_outrun.ensemble.follows_dynamics accompanies
    (fun coupled => congrArg Session.measuring coupled.2.1) ⟨?_, ?_⟩ direction target
  · rintro s _ ⟨⟨rfl, member⟩, rfl, marked⟩
    have agree := (Unison.follows_all copies member (m := true) references body).both s.measured
      s.measured ⟨rfl, rfl⟩
    rw [measure_run, measure_run]
    generalize (performAll inner here references body).run s.measured = first at agree ⊢
    generalize (performAll inner' here references body).run s.measured = second at agree ⊢
    cases first with
    | ok ticks t => cases second with
      | ok ticks' t' =>
        obtain ⟨-, rfl, -⟩ := agree
        dsimp only
        cases t.onsets with
        | none => exact .inl rfl
        | some bounds => exact ⟨rfl, ⟨rfl, member⟩, rfl, marked⟩
      | error => exact agree.elim
    | error fault t => cases second with
      | ok => exact agree.elim
      | error => exact .inl agree
  · exact fun fault s left => unison_outrun.ensemble.measure_survives accompanies references offset
      body left (.inl left)

/-- Of two performers that refuse some calls, the second one refuses only what the first one does. Of
what only the first one refuses, it blames this fault, and what is answered leaves less gas than
this; on copies nothing is refused. -/
structure Outruns (depth : Nat) (late : Fault) (n : Nat) (first second : Performer) : Prop where
  calls : ∀ c : Call, (∃ fault t t', first.answer c = .error fault t ∧
      second.answer c = .error fault t') ∨
    second.answer c = (perform depth).answer c ∧ (first.answer c = (perform depth).answer c ∨
      (∃ t, first.answer c = .error late t) ∧ ∀ {ticks t}, (perform depth).answer c = .ok ticks t →
        t.gas.remaining < n)
  below : ∀ c : Call, c.session.gas.remaining < n → second.answer c = (perform depth).answer c
  copies : ∀ c : Call, c.session.measuring = true →
    first.answer c = (perform depth).answer c ∧ second.answer c = (perform depth).answer c

namespace Outruns
variable {first second : Performer}

theorem follows (outruns : Outruns depth late n first second) :
    Performer.Follows Answers (fun m _ => outrun late n m) first second := by
  intro m live here member references item
  constructor
  · rintro s _ ⟨rfl, marked⟩
    let made : Call := ⟨here, references, item, s⟩
    have answered (p : Performer) : (p here references item).run s = p.answer made := rfl
    rw [answered, answered]
    rcases outruns.calls made with ⟨fault, t, t', failed, failed'⟩ | ⟨second, first | refused⟩
    · rw [failed, failed']
      exact .inl rfl
    · rw [first, second]
      cases result : (perform depth).answer made with
      | ok ticks t => exact ⟨rfl, rfl, (upkeep_marked.perform member rfl result).trans marked⟩
      | error fault t => exact .inl rfl
    · obtain ⟨⟨t, failed⟩, less⟩ := refused
      rw [failed, second]
      cases result : (perform depth).answer made with
      | ok ticks u => exact ⟨rfl, less result⟩
      | error fault u => exact .inr (perform_played result)
  · rintro _ s ⟨rfl, less⟩
    have answered : (second here references item).run s = _ :=
      outruns.below ⟨here, references, item, s⟩ less
    rw [answered]
    cases result : (perform depth).answer ⟨here, references, item, s⟩ with
    | ok ticks t => exact ⟨rfl, Nat.lt_trans (perform_burns result) less⟩
    | error fault t => exact .inr (perform_played result)

theorem follows_copies (outruns : Outruns depth late n first second) :
    Performer.Follows Eq (Upkeep.lockstep fun _ _ s => s.measuring = true) first second := by
  intro m live here member references item
  refine ⟨?_, fun _ _ left => left.elim⟩
  rintro s _ ⟨rfl, measured⟩
  obtain ⟨one, other⟩ := outruns.copies ⟨here, references, item, s⟩ measured
  have one : (first here references item).run s = _ := one
  have other : (second here references item).run s = _ := other
  rw [one, other]
  exact (upkeep_measured.simulation.follows_perform depth member references item).both s s
    ⟨rfl, measured⟩

theorem agree (outruns : Outruns depth late n first second) (outer : Call) :
    Coupling.Agree Answers (fun _ => outrun late n outer.session.measuring)
      ((performWith first).answer outer) ((performWith second).answer outer) := by
  have unison : Unison Answers fun m _ => outrun late n m := unison_outrun
  have accompanies := Unison.accompanies outruns.follows
  exact (Unison.of_shared (m := outer.session.measuring) (List.mem_singleton_self outer.here)
    (unison.ensemble.follows_with accompanies (sways_outrun accompanies outruns.follows_copies)
      outer.references outer.item)).both outer.session outer.session ⟨rfl, rfl⟩

end Outruns

end Outrun

/-- Two calls are refused, each with its own fault. -/
structure RefusesBoth (call other : Call) (fault fault' : Fault) (inner refusing : Performer) :
    Prop where
  first : ∃ t, refusing.answer call = .error fault t
  second : ∃ t, refusing.answer other = .error fault' t
  otherwise : ∀ c, c ≠ call → c ≠ other → refusing.answer c = inner.answer c

/-- Where one of two calls, once it has been answered, leaves less gas than the other one finds, the
refusal of the other one is what is seen. -/
theorem refused_first {fault fault' : Fault} {refusing : Performer}
    (refuses : RefusesBoth call other fault fault' (perform depth) refusing)
    (text : fault.cause = .unexpectedEnd) (asks : Asks (perform depth) outer call)
    (real : call.session.measuring = false) (real' : other.session.measuring = false)
    (late : ∀ {ticks t}, (perform depth).answer other = .ok ticks t →
      t.gas.remaining < call.session.gas.remaining) :
    ∃ t, (performWith refusing).answer outer = .error fault t := by
  obtain ⟨single, one⟩ := exists_refuses call fault (perform depth)
  have unlike {c made : Call} (measured : made.session.measuring = true)
      (real : c.session.measuring = false) : made ≠ c := by
    rintro rfl
    exact Bool.noConfusion (real.symm.trans measured)
  have outruns : Outruns depth fault' call.session.gas.remaining refusing single := by
    refine ⟨fun made => ?_, fun made less => ?_, fun made measured => ⟨?_, ?_⟩⟩
    · by_cases same : made = call
      · obtain ⟨t, failed⟩ := refuses.first
        obtain ⟨t', failed'⟩ := one.refused
        exact .inl ⟨fault, t, t', same ▸ failed, same ▸ failed'⟩
      · refine .inr ⟨one.otherwise made same, ?_⟩
        by_cases same' : made = other
        · exact .inr (same' ▸ ⟨refuses.second, late⟩)
        · exact .inl (refuses.otherwise made same same')
    · refine one.otherwise made ?_
      rintro rfl
      exact Nat.lt_irrefl _ less
    · exact refuses.otherwise made (unlike measured real) (unlike measured real')
    · exact one.otherwise made (unlike measured real)
  have agree := outruns.agree outer
  obtain ⟨u, failed⟩ := asks fault single one
  rw [failed] at agree
  generalize (performWith refusing).answer outer = result at agree ⊢
  cases result with
  | ok ticks t => exact agree.elim
  | error e t =>
    rcases agree with rfl | played
    · exact ⟨t, rfl⟩
    · exact absurd text played

theorem exists_refusesBoth (apart : call ≠ other) (fault fault' : Fault) (inner : Performer) :
    ∃ refusing, RefusesBoth call other fault fault' inner refusing := by
  obtain ⟨single, one⟩ := exists_refuses call fault inner
  obtain ⟨refusing, both⟩ := exists_refuses other fault' single
  obtain ⟨t, failed⟩ := one.refused
  refine ⟨refusing, ⟨t, (both.otherwise call apart).trans failed⟩, both.refused, ?_⟩
  exact fun c unlike unlike' => (both.otherwise c unlike').trans (one.otherwise c unlike)

theorem RefusesBoth.symm {fault fault' : Fault} {inner refusing : Performer}
    (refuses : RefusesBoth call other fault fault' inner refusing) :
    RefusesBoth other call fault' fault inner refusing :=
  ⟨refuses.second, refuses.first, fun c unlike unlike' => refuses.otherwise c unlike' unlike⟩

/-- Of two calls that performing an item makes, one finds what the other one has left. -/
theorem Asks.ordered (apart : call ≠ other) (asks : Asks (perform depth) outer call)
    (asks' : Asks (perform depth) outer other) (real : call.session.measuring = false)
    (real' : other.session.measuring = false) :
    (∃ ticks t, (perform depth).answer call = .ok ticks t ∧
      other.session.gas.remaining ≤ t.gas.remaining) ∨
    ∃ ticks t, (perform depth).answer other = .ok ticks t ∧
      call.session.gas.remaining ≤ t.gas.remaining := by
  by_contra neither
  obtain ⟨first, second⟩ := not_or.mp neither
  obtain ⟨refusing, refuses⟩ := exists_refusesBoth apart ⟨.unexpectedEnd, 0⟩ ⟨.unexpectedEnd, 1⟩
    (perform depth)
  obtain ⟨t, failed⟩ := refused_first refuses rfl asks real real' fun {ticks t} done =>
    Nat.lt_of_not_le fun more => second ⟨ticks, t, done, more⟩
  obtain ⟨t', failed'⟩ := refused_first refuses.symm rfl asks' real' real
    fun {ticks t} done => Nat.lt_of_not_le fun more => first ⟨ticks, t, done, more⟩
  cases failed.symm.trans failed'

end TextScore.Session
