import TextScore.Proofs.Acceptance
import TextScore.Proofs.Groups
import TextScore.Proofs.Halting
import TextScore.Proofs.Tracks

/-! Breakpoints outside of pitch bends. No text is read that has any, and what runs put away to play
it later comes from the text. So no run meets one. -/
namespace TextScore

/-- Whatever is performed may stand anywhere: breakpoints of a pitch bend are not performed. -/
theorem Item.Grammatical.inner {outer inner : Item} (known : outer.Grammatical .anywhere)
    (listed : inner ∈ outer.inner) (performs : outer.Performs inner) :
    inner.Grammatical .anywhere := by
  cases known with
  | range _ _ items | group _ _ items => exact items inner listed
  | graced _ _ _ main => exact List.mem_singleton.mp listed ▸ main
  | parallel _ _ items =>
    obtain ⟨branch, among, inside⟩ := List.mem_flatten.mp listed
    exact items branch among inner inside
  | @ornament _ offset kind body _ _ items => cases kind with
    | pitchBend => exact (items inner listed).moved nofun (performs offset body rfl) .anywhere
    | _ => exact (items inner listed).lift .anywhere
  | _ => exact nomatch listed

namespace Session
open Step (Contract)

variable {E : Fault → Prop} {fits : List Modifier → Item → Prop}
  {P : List Modifier → Session → Prop} {good : Node → Prop} {gas : Nat} {score : List Node}
  {fault : Fault} {t : Session}

/-- A run that fails has got to a node that fails, or to its end with a repeat left open. -/
theorem Config.Halts.blames {c : Config} {result : EStateM.Result Fault Session Unit}
    (halts : c.Halts result) (failed : result = .error fault t)
    (ends : ∀ {active s}, (ensureRepeatClosed active).run s = .error fault t → E fault)
    (steps : ∀ {active queued rest s}, Rounds c ⟨active, queued :: rest, s⟩ →
      (step active queued).run s = .error fault t → E fault) : E fault := by
  induction halts with
  | closes => exact ends failed
  | fails stuck =>
    cases failed
    exact steps .refl stuck
  | round round _ ih => exact ih failed fun rounds => steps (.head round rounds)

/-- A run of a good score fails with what its items and nodes may fail with. -/
theorem Stewardship.run_fails (steward : Stewardship fits P good) (custody : Custody E fits P)
    (begins : P [] { gas := ⟨gas⟩ }) (nodes : ∀ node ∈ score, good node)
    (failed : (run score).run { gas := ⟨gas⟩ } = .error fault t) : E fault := by
  refine (run_halts_at gas score).blames failed (fun stuck => ?_) fun {active queued rest s} rounds
    stuck => ?_
  · refine custody.fault fun special => ?_
    exact (sober_ensureRepeatClosed _).error trivial stuck special.grave
  · have meets := steward.meets begins nodes rounds
    have known : good queued.node := by
      have known := meets.queue _ List.mem_cons_self
      split at known <;> exact known
    exact (steward.step_fails custody fun same => steward.item (same ▸ known)).error meets.session
      stuck

/-- What is read is performed without stray breakpoints, and so is what it puts away. -/
theorem registry_grammatical : Registry (fun fault => fault.cause ≠ .strayBreakpoint)
    (Item.Grammatical .anywhere) (Stocked (Item.Grammatical .anywhere)) :=
  registry_stocked (fun other same => other (same ▸ .stray)) nofun Item.Grammatical.inner
    fun _ => nofun

theorem steward_grammatical : Stewardship (fun _ => Item.Grammatical .anywhere)
    (Defines (Stocked (Item.Grammatical .anywhere))) Node.Grammatical :=
  (registry_grammatical.allow fun _ => trivial).stewardship (fun known => known)
    (fun known played => by
      rcases Node.replay_cases played with rfl | ⟨offset, id, body, rfl, rfl⟩
      · exact known
      · cases known with
        | group number => exact .groupRef number)
    (fun known stocked => stocked.define known.2.2)
    fun _ stocked => ⟨stocked.groups, stocked.templates⟩

theorem run_never_strays (nodes : ∀ node ∈ score, node.Grammatical)
    (failed : (run score).run { gas := ⟨gas⟩ } = .error fault t) :
    fault.cause ≠ .strayBreakpoint :=
  steward_grammatical.run_fails registry_grammatical.custody ⟨rfl, nofun, nofun⟩ nodes failed

end Session

namespace Compiler
variable {settings : Settings} {source : String} {fault : Fault}

theorem parse_stripped {score : List Node} {stripped : Text.Stripped}
    (parsed : parse source = .ok (score, stripped)) : stripped = Text.strip source.toList := by
  simp only [parse] at parsed
  split at parsed
  · cases parsed
    rfl
  · cases parsed

/-- What is wrong with the text without comments, as it is read or as it is performed. -/
def Raises (settings : Settings) (source : String) (raised : Fault) : Prop :=
  Score.read (Text.strip source.toList).text = .error raised ∨ ∃ score t,
    Score.read (Text.strip source.toList).text = .ok score ∧
      perform settings score = .error raised t

/-- Faults of the text are taken back to the source, once. -/
theorem session_raises (failed : session settings source = .error fault) :
    ∃ raised, Raises settings source raised ∧ fault = raised.remap (Text.strip source.toList).map := by
  simp only [session, bind, Except.bind] at failed
  split at failed
  · next unread =>
    cases failed
    simp only [parse] at unread
    split at unread
    · cases unread
    · next raised read =>
      cases unread
      exact ⟨raised, .inl read, rfl⟩
  · next pair parsed =>
    split at failed
    · cases failed
    · next raised t stuck =>
      cases failed
      refine ⟨raised, .inr ⟨pair.1, t, parse_read parsed, stuck⟩, ?_⟩
      rw [parse_stripped parsed]

/-- A source fails because of its text, or its score fails. -/
theorem session_error (failed : session settings source = .error fault) :
    fault.cause.kind = .parse ∨ ∃ score raised t, fault.cause = raised.cause ∧
      Score.read (Text.strip source.toList).text = .ok score ∧
      perform settings score = .error raised t := by
  obtain ⟨raised, raises, rfl⟩ := session_raises failed
  rcases raises with read | ⟨score, t, read, stuck⟩
  · exact .inl (Score.read_fails read :)
  · exact .inr ⟨score, raised, t, rfl, read, stuck⟩

theorem tracks_error (failed : tracks settings source = .error fault) :
    session settings source = .error fault := by
  simp only [tracks, bind, Except.bind] at failed
  split at failed
  · next stuck =>
    cases failed
    exact stuck
  · cases failed

theorem highlights_error (failed : highlights settings source = .error fault) :
    session settings source = .error fault := by
  simp only [highlights, bind, Except.bind] at failed
  split at failed
  · next stuck =>
    cases failed
    exact stuck
  · exact nomatch failed

theorem midi_error (failed : midi settings source = .error fault) :
    session settings source = .error fault ∨ fault.cause = .tooManyTracks := by
  simp only [midi, tracks, bind, Except.bind] at failed
  split at failed
  · next stuck =>
    split at stuck
    · next stuck' =>
      cases stuck
      cases failed
      exact .inl stuck'
    · cases stuck
  · split at failed
    · cases failed
      exact .inr rfl
    · cases failed

theorem session_never_strays (failed : session settings source = .error fault) :
    fault.cause ≠ .strayBreakpoint := by
  rcases session_error failed with parse | ⟨score, raised, t, same, read, stuck⟩
  · intro same
    exact nomatch (same ▸ parse : Cause.strayBreakpoint.kind = .parse)
  · exact same ▸ Session.run_never_strays (Score.read_stands read).1 stuck

/-- Whatever is read is well formed and stands in its place in the text. So breakpoints outside of
pitch bends are never what a run fails with, of a score that is read or of a source. -/
theorem readings_well_formed :
    (∀ text score, Score.read text = .ok score →
      (∀ node ∈ score, node.Grammatical) ∧ Score.Placed text.length score ∧
      ∀ gas fault t, (Session.run score).run { gas := ⟨gas⟩ } = .error fault t →
        fault.cause ≠ .strayBreakpoint) ∧
    ∀ settings source fault, session settings source = .error fault ∨
        midi settings source = .error fault ∨ highlights settings source = .error fault →
      fault.cause ≠ .strayBreakpoint := by
  refine ⟨fun text score read => ?_, fun settings source fault failed => ?_⟩
  · obtain ⟨known, placed⟩ := Score.read_stands read
    exact ⟨known, placed, fun gas fault t => Session.run_never_strays known⟩
  · rcases failed with failed | failed | failed
    · exact session_never_strays failed
    · rcases midi_error failed with failed | many
      · exact session_never_strays failed
      · rw [many]
        exact nofun
    · exact session_never_strays (highlights_error failed)

/-- A tree that is not read from any text. -/
example : (Session.run [.item (.breakpoint 3 (.finite false 0 0))]).run { gas := ⟨5⟩ } matches
    .error ⟨.strayBreakpoint, 3⟩ _ := by decide +kernel

end Compiler
end TextScore
