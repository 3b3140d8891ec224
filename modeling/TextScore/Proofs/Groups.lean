import Mathlib
import TextScore.Proofs.Faults
import TextScore.Proofs.Stewardship

/-! Groups in what is played again. A repeat refers to groups that were nodes of the score, instead of
declaring them again. It does not look into other items: a group inside one is declared once more
whenever the item is played again, and that is refused. -/
namespace TextScore

def Item.IsGroup (id : Nat) : Item → Prop
  | .group _ other _ => other = id
  | _ => False

/-- No group of this number is declared in an item. -/
abbrev Item.Without (id : Nat) : Item → Prop := Item.Throughout fun item => ¬ item.IsGroup id

/-- A group of this number is declared by a node itself, if at all. -/
def Node.OnTop (id : Nat) : Node → Prop
  | .item i => ∀ inner ∈ i.inner, inner.Without id
  | .define _ _ template => ∀ i ∈ template, i.Without id
  | _ => True

/-- Items inside an item that are performed whenever the item is, and leave their definitions. -/
def Item.sure : Item → List Item
  | .range _ (.userRange _) _ => []
  | .range _ _ body | .ornament _ _ body | .group _ _ body => body
  | .graced _ _ main => [main]
  | .parallel _ (branch :: _) => branch
  | _ => []

/-- Performing an item declares a group of this number. -/
inductive Item.Declares (id : Nat) : Item → Prop
  | here {offset : Nat} {body : List Item} : Declares id (.group offset id body)
  | inner {outer inner : Item} (listed : inner ∈ outer.sure) (declares : Declares id inner) :
    Declares id outer

def Node.Declares (id : Nat) (node : Node) : Prop := ∃ item, node = .item item ∧ item.Declares id

theorem Item.Declares.not_breakpoint {id : Nat} {item : Item} (declares : item.Declares id)
    (offset : Nat) (value : Binary64) : item ≠ .breakpoint offset value := by
  rintro rfl
  cases declares with
  | inner listed => exact nomatch listed

namespace Session
open Step (Contract Sober)

/-- An invariant of definitions only. -/
abbrev Defines (C : Definitions → Prop) (stack : List Modifier) (s : Session) : Prop :=
  s.modifiers = stack ∧ C s.definitions

/-- What definitions must keep for an invariant of them to be kept by items that fit. -/
structure Registry (E : Fault → Prop) (fits : Item → Prop) (C : Definitions → Prop) : Prop where
  fault : ∀ {fault : Fault}, ¬ fault.cause.Special → E fault
  stray : ∀ {offset value}, fits (.breakpoint offset value) → E ⟨.strayBreakpoint, offset⟩
  inner : ∀ {item inner : Item}, fits item → inner ∈ item.inner → item.Performs inner → fits inner
  template : ∀ {name template d}, C d → d.templates.lookup name = some template →
    ∀ item ∈ template, fits item
  group : ∀ {id body d}, C d → d.groups.lookup id = some body → ∀ item ∈ body, fits item
  refused : ∀ {offset id body}, fits (.group offset id body) → E ⟨.groupRedeclared id, offset⟩
  declares : ∀ {offset id body d}, fits (.group offset id body) → C d →
    C { d with groups := (id, body) :: d.groups }

variable {E : Fault → Prop} {fits : Item → Prop} {C C' : Definitions → Prop}

theorem Registry.allow {E' : Fault → Prop} (registry : Registry E fits C)
    (more : ∀ {fault}, E fault → E' fault) : Registry E' fits C where
  fault other := more (registry.fault other)
  stray within := more (registry.stray within)
  inner := registry.inner
  template := registry.template
  group := registry.group
  refused within := more (registry.refused within)
  declares := registry.declares

theorem Registry.custody (registry : Registry E fits C) :
    Custody E (fun _ => fits) (Defines C) where
  fault := registry.fault
  stray := registry.stray
  inner := registry.inner
  spend _ holds := holds
  copy holds := holds
  graces _ holds := holds
  restore before holds := ⟨holds.1, before.2⟩
  stack holds := holds.1
  pop holds := ⟨rfl, holds.2⟩
  ornament within pushes holds := by
    refine ⟨fun _ listed => registry.inner within listed fun _ _ same => ?_, rfl, holds.2⟩
    cases same
    cases pushes
  template _ holds found _ _ := registry.template holds.2 found
  substitute _ _ _ holds := ⟨rfl, holds.2⟩
  declare {stack offset id body} within := by
    refine .of_results (fun {s a t} holds done => ?_) fun {s fault t} holds failed => ?_
    · obtain ⟨-, rfl⟩ := declareGroup_ok done
      exact ⟨holds.1, registry.declares within holds.2⟩
    · obtain ⟨rfl, -⟩ := declareGroup_error failed
      exact registry.refused within
  group _ holds found := registry.group holds.2 found
  tuning kept _ _ := kept.holds
  tuplet kept _ _ _ := ⟨kept.holds, fun later => later.holds⟩
  branch kept _ _ := kept.holds
  rest kept _ _ := kept.holds
  tie kept _ _ _ := kept.holds
  note _ kept _ _ _ staged := by
    obtain ⟨rfl, -⟩ := Custody.stage_ok staged
    exact kept.holds
  arpeggio kept _ _ _ _ _ staged _ := by
    obtain ⟨rfl, -⟩ := Custody.stage_ok staged
    exact kept.holds

theorem Registry.succeeds (registry : Registry E fits C) (registry' : Registry E fits C') :
    Succeeds E (fun _ => fits) (Defines C) (Defines C') :=
  ⟨registry.custody, registry'.custody, fun _ _ _ _ _ later => later.holds⟩

section Turns
variable {id : Nat} {inner : Performer} {stack : List Modifier} {m : Bool} {live : List TimelineId}
  {here : TimelineId}

/-- Where a group is declared, one invariant of definitions takes over from another. -/
structure Turning (E : Fault → Prop) (fits : Item → Prop) (C C' : Definitions → Prop) (id : Nat) :
    Prop where
  before : Registry E fits C
  after : Registry E fits C'
  turns : ∀ {body d}, C d → d.groups.lookup id = none →
    C' { d with groups := (id, body) :: d.groups }

def Performer.Turns (E : Fault → Prop) (fits : Item → Prop) (C C' : Definitions → Prop) (id : Nat)
    (inner : Performer) : Prop :=
  ∀ ⦃stack m live here⦄, here ∈ live → ∀ references {item}, fits item → item.Declares id →
    Contract E (Kept (Defines C) stack m live) (inner here references item)
      fun _ => Kept (Defines C') stack m live

namespace Turning
variable (turning : Turning E fits C C' id)
include turning

theorem succeeds : Succeeds E (fun _ => fits) (Defines C) (Defines C') :=
  turning.before.succeeds turning.after

theorem crossing {depth : Nat} (turns : Performer.Turns E fits C C' id (perform depth))
    {body : List Item} {item : Item} (listed : item ∈ body) (declares : item.Declares id) :
    Crossing E (fun _ => fits) (Defines C) (Defines C') (perform depth) body where
  before := turning.before.custody.perform depth
  after := turning.after.custody.perform depth
  turns := .inr ⟨item, listed, declares.not_breakpoint,
    fun _ _ _ _ member references within => turns member references within declares⟩

theorem declare (member : here ∈ live) {offset : Nat} {body : List Item}
    (within : fits (.group offset id body)) :
    Contract E (Kept (Defines C) stack m live)
      (onDefinitions (Definitions.declareGroup id body offset))
      fun _ => Kept (Defines C') stack m live := by
  refine .of_results (fun {s a t} kept done => ?_) fun {s fault t} kept failed => ?_
  · have tended := (kept.tended.primitive member (.definitions (.declareGroup ..)) done).2
    obtain ⟨new, rfl⟩ := declareGroup_ok done
    exact ⟨tended, kept.holds.1, turning.turns kept.holds.2 new⟩
  · obtain ⟨rfl, -⟩ := declareGroup_error failed
    exact turning.before.refused within

/-- What sounds after graces: an ornament is performed there, other items on their own. -/
theorem sound {depth : Nat} (turns : Performer.Turns E fits C C' id (perform depth))
    (member : here ∈ live) (references : Nat) {item : Item} (within : fits item)
    (declares : item.Declares id) :
    Contract E (Kept (Defines C) stack m live)
      (performWith.performSound (perform depth) here references item)
      fun _ => Kept (Defines C') stack m live := by
  have other {p : Play Nat} (performed : Contract E (Kept (Defines C) stack m live) p
      fun _ => Kept (Defines C') stack m live) := turning.after.custody.finish member performed
  cases item with
  | key | chord | tie => cases declares with
    | inner listed => exact nomatch listed
  | ornament offset kind body => cases declares with
    | inner listed declares =>
      exact other (turning.succeeds.performOrnament (turning.crossing turns listed declares) member
        references within)
  | _ => exact other (turns member references within declares)

theorem performWith {depth : Nat} (turns : Performer.Turns E fits C C' id (perform depth)) :
    Performer.Turns E fits C C' id (Session.performWith (perform depth)) := by
  intro stack m live here member references item within declares
  have before := turning.before.custody
  have plain {p : Play Nat} (performed : Contract E (Kept (Defines C) stack m live) p
      fun _ => Kept (Defines C') stack m live) :
      Contract E (fun s => Kept (Defines C) stack m live s ∧ Custody.Open here s) p
        fun _ => Kept (Defines C') stack m live := performed.mono And.left fun kept => kept
  cases item with
  | range offset kind body => cases declares with
    | inner listed declares =>
      refine before.opened member offset (plain ?_)
      cases kind with
      | userRange name => exact nomatch listed
      | _ =>
        exact turning.succeeds.range (turning.crossing turns listed declares) member references within
          nofun
  | ornament offset kind body =>
    exact before.opened member offset (plain (turning.sound turns member references within declares))
  | group offset other body => cases declares with
    | here =>
      refine before.opened member offset (plain ((turning.declare member within).bind fun _ => ?_))
      exact (turning.after.custody.perform depth).all member references fun item listed =>
        turning.after.inner within listed nofun
    | inner listed declares =>
      refine before.opened member offset (plain ((before.declared member within).bind fun _ => ?_))
      exact (turning.crossing turns listed declares).all member references fun item listed =>
        turning.before.inner within listed nofun
  | graced offset graces main => cases declares with
    | inner listed declares =>
      have declares : main.Declares id := List.mem_singleton.mp listed ▸ declares
      have prepared := (@Custody.prepareGraces _ _ _ stack m _ _ before member offset graces).bind
        fun _ => plain (turning.sound turns member references
          (turning.before.inner within List.mem_cons_self nofun) declares)
      cases main with
      | tie _ => exact before.opened member offset (before.failAt nofun)
      | _ => exact before.opened member offset prepared
  | parallel offset branches => cases declares with
    | inner listed declares =>
      refine before.opened member offset (plain ?_)
      cases branches with
      | nil => exact nomatch listed
      | cons branch branches =>
        exact turning.succeeds.parallel (turning.crossing turns listed declares) member references
          within
  | _ => cases declares with
    | inner listed => exact nomatch listed

theorem perform (depth : Nat) : Performer.Turns E fits C C' id (Session.perform depth) := by
  induction depth with
  | zero =>
    intro stack m live here member references item _ _
    have before := turning.before.custody
    exact (before.burn member _).bind fun _ => before.failAt nofun
  | succ depth ih => exact turning.performWith ih

end Turning
end Turns

theorem Registry.stewardship {good : Node → Prop} (registry : Registry (fun _ => True) fits C)
    (item : ∀ {item}, good (.item item) → fits item)
    (replay : ∀ {node again : Node}, good node → node.replay? = some again → good again)
    (define : ∀ {offset name body d}, good (.define offset name body) → C d →
      C { d with templates := (name, body) :: d.templates })
    (emojis : ∀ {d : Definitions} (emojis : List (String × Setting)), C d →
      C { d with emojis := emojis }) :
    Stewardship (fun _ => fits) (Defines C) good where
  custody := registry.custody
  item := item
  replay := replay
  begins _ _ holds := holds
  repeats _ _ holds := holds
  define known holds := ⟨holds.1, define known holds.2⟩
  emojis symbols holds := ⟨holds.1, emojis symbols holds.2⟩
  conduct _ _ _ holds := holds
  fermata _ _ holds := holds

/-- Groups and templates of items that all fit. -/
structure Stocked (fits : Item → Prop) (d : Definitions) : Prop where
  groups : ∀ {id body}, d.groups.lookup id = some body → ∀ item ∈ body, fits item
  templates : ∀ {name template}, d.templates.lookup name = some template →
    ∀ item ∈ template, fits item

/-- Groups and templates in which no group of this number is declared. -/
abbrev Without (id : Nat) : Definitions → Prop := Stocked (Item.Without id)

/-- A group of this number is declared. -/
def Declared (id : Nat) (d : Definitions) : Prop := (d.groups.lookup id).isSome

section Registries
variable {id : Nat}

theorem Stocked.declare {d : Definitions} (stocked : Stocked fits d) {number : Nat}
    {body : List Item} (each : ∀ item ∈ body, fits item) :
    Stocked fits { d with groups := (number, body) :: d.groups } where
  groups found := by
    rcases lookup_cons found with ⟨-, rfl⟩ | old
    · exact each
    · exact stocked.groups old
  templates := stocked.templates

theorem Stocked.define {d : Definitions} (stocked : Stocked fits d) {name : String}
    {template : List Item} (each : ∀ item ∈ template, fits item) :
    Stocked fits { d with templates := (name, template) :: d.templates } where
  groups := stocked.groups
  templates found := by
    rcases lookup_cons found with ⟨-, rfl⟩ | old
    · exact each
    · exact stocked.templates old

/-- Items that fit are all that definitions need to hold. -/
theorem registry_stocked (fault : ∀ {fault : Fault}, ¬ fault.cause.Special → E fault)
    (stray : ∀ {offset value}, fits (.breakpoint offset value) → E ⟨.strayBreakpoint, offset⟩)
    (inner : ∀ {item inner : Item}, fits item → inner ∈ item.inner → item.Performs inner → fits inner)
    (refused : ∀ {offset number body}, fits (.group offset number body) →
      E ⟨.groupRedeclared number, offset⟩) : Registry E fits (Stocked fits) where
  fault := fault
  stray := stray
  inner := inner
  template stocked found := stocked.templates found
  group stocked found := stocked.groups found
  refused := refused
  declares within stocked := stocked.declare fun _ listed => inner within listed nofun

/-- Items in which no group is declared below the top keep it so. -/
theorem registry_onTop (id : Nat) :
    Registry (fun _ => True) (fun item => ∀ inner ∈ item.inner, inner.Without id) (Without id) where
  fault _ := trivial
  stray _ := trivial
  inner within listed _ := (Item.throughout_iff.mp (within _ listed)).2
  template clear found item listed := (Item.throughout_iff.mp (clear.templates found item listed)).2
  group clear found item listed := (Item.throughout_iff.mp (clear.groups found item listed)).2
  refused _ := trivial
  declares within clear := clear.declare within

/-- Items in which no group is declared at all do not declare it again. -/
theorem registry_without (id : Nat) :
    Registry (fun fault => fault.cause ≠ .groupRedeclared id) (Item.Without id) (Without id) := by
  refine registry_stocked (fun other same => other (same ▸ .group id)) (fun _ => nofun)
    (fun within listed _ => (Item.throughout_iff.mp within).2 _ listed) fun within same => ?_
  cases same
  exact (Item.throughout_iff.mp within).1 rfl

theorem registry_declared (id : Nat) :
    Registry (fun _ => True) (fun _ => True) (Declared id) where
  fault _ := trivial
  stray _ := trivial
  inner _ _ _ := trivial
  template _ _ _ _ := trivial
  group _ _ _ _ := trivial
  refused _ := trivial
  declares {offset other body d} _ known := by
    rw [Declared, List.lookup_cons]
    split
    · rfl
    · exact known

/-- Any definitions, or none. -/
theorem registry_const (p : Prop) : Registry (fun _ => True) (fun _ => True) fun _ => p where
  fault _ := trivial
  stray _ := trivial
  inner _ _ _ := trivial
  template _ _ _ _ := trivial
  group _ _ _ _ := trivial
  refused _ := trivial
  declares _ holds := holds

/-- Performing what declares a group leaves it declared. -/
theorem turning_declared (id : Nat) :
    Turning (fun _ => True) (fun _ => True) (fun _ => True) (Declared id) id where
  before := registry_const True
  after := registry_declared id
  turns _ _ := by simp [Declared]

/-- Once the group is declared, performing what declares it does not succeed. -/
theorem turning_refused (id : Nat) :
    Turning (fun _ => True) (fun _ => True) (Declared id) (fun _ => False) id where
  before := registry_declared id
  after := registry_const False
  turns known none := by simp [Declared, none] at known

end Registries

section Steps
variable {id : Nat} {active : Option TimelineId} {score : List Node}

theorem steward_onTop (id : Nat) : Stewardship (fun _ item => ∀ inner ∈ item.inner, inner.Without id)
    (Defines (Without id)) (Node.OnTop id) :=
  (registry_onTop id).stewardship (fun known => known)
    (fun known played => by
      rcases Node.replay_cases played with rfl | ⟨offset, other, body, rfl, rfl⟩
      · exact known
      · exact nofun)
    (fun known clear => clear.define known) fun _ clear => ⟨clear.groups, clear.templates⟩

theorem steward_declared (id : Nat) :
    Stewardship (fun _ _ => True) (Defines (Declared id)) fun _ => True :=
  (registry_declared id).stewardship (fun _ => trivial) (fun _ _ => trivial) (fun _ known => known)
    fun _ known => known

theorem steward_const (p : Prop) :
    Stewardship (fun _ _ => True) (Defines fun _ => p) fun _ => True :=
  (registry_const p).stewardship (fun _ => trivial) (fun _ _ => trivial) (fun _ holds => holds)
    fun _ holds => holds

/-- An item that is a node, from one invariant of definitions to another. -/
theorem step_turns (turning : Turning (fun _ => True) (fun _ => True) C C' id)
    (steward : Stewardship (fun _ _ => True) (Defines C) fun _ => True)
    (steward' : Stewardship (fun _ _ => True) (Defines C') fun _ => True) {item : Item}
    (declares : item.Declares id) (again : Bool) :
    Keeps (Settled (Defines C) active) (step active ⟨.item item, again⟩)
      fun next => Settled (Defines C') next.1 := by
  rw [step_item]
  refine (steward.approach again).bind fun here => Keeps.read fun _ => ?_
  refine Keeps.bind (Q := fun _ => Settled (Defines C') (some here)) (fun s ticks t kept done => ?_)
    fun _ => Keeps.when (steward'.adjustRepeats _) (.pure fun kept => kept)
  exact (turning.perform _ List.mem_cons_self 0 trivial declares).ok kept done

/-- Groups that a node has declared stay declared, also by the time it is played again. -/
theorem succession_declared : Succession (Settled (Defines fun _ => True)) (fun _ => True)
    fun s node => ∀ id, node.Declares id → Declared id s.definitions where
  step kept _ done := (steward_const True).step trivial kept done
  lasts kept _ done known id declares := ((steward_declared id).step trivial
    ⟨kept.tended, kept.holds.1, known id declares⟩ done).holds.2
  settles {active active' queued again node s t} kept _ first played done id declares := by
    obtain ⟨item, rfl, declares⟩ := declares
    obtain ⟨node, second⟩ := queued
    obtain rfl : second = false := first
    rcases Node.replay_cases played with rfl | ⟨offset, other, body, -, same⟩
    · exact (step_turns (turning_declared id) (steward_const True) (steward_declared id) declares
        false kept done).holds.2
    · cases same
      cases declares with
      | inner listed => exact nomatch listed

/-- What is played again was a node in which the group is not declared below the top. -/
theorem succession_onTop (id : Nat) : Succession (Settled (Defines (Without id))) (Node.OnTop id)
    fun _ node => ∃ first : Node, first.OnTop id ∧ first.replay? = some node where
  step kept known done := by
    refine (steward_onTop id).step ?_ kept done
    split at known
    · obtain ⟨first, top, played⟩ := known
      exact (steward_onTop id).replay top played
    · exact known
  lasts _ _ _ known := known
  settles _ known _ played _ := ⟨_, known, played⟩

/-- Playing such a node again does not declare the group once more. -/
theorem step_spares {first node : Node} (top : first.OnTop id) (played : first.replay? = some node) :
    Contract (fun fault => fault.cause ≠ .groupRedeclared id) (Settled (Defines (Without id)) active)
      (step active ⟨node, true⟩) fun _ _ => True := by
  refine (steward_onTop id).step_fails (registry_without id).custody fun {i} same => ?_
  rcases Node.replay_cases played with rfl | ⟨offset, other, body, rfl, rfl⟩
  · subst same
    refine Item.throughout_iff.mpr ⟨fun group => ?_, top⟩
    cases i with
    | group => exact nomatch played
    | _ => exact group
  · cases same
    exact Item.throughout_iff.mpr ⟨fun group => group, nofun⟩

/-- Of all that a repeat plays again, a group is only declared again by what declares it below the top,
and that never succeeds. -/
theorem replay_declares {gas : Nat} {score : List Node} {node : Node} {rest : List Queued}
    {s : Session} (rounds : Rounds (.start gas score) ⟨active, ⟨node, true⟩ :: rest, s⟩) (id : Nat) :
    ((∀ first ∈ score, first.OnTop id) → ∀ fault t,
      (step active ⟨node, true⟩).run s = .error fault t → fault.cause ≠ .groupRedeclared id) ∧
    (node.Declares id → ∀ next t, (step active ⟨node, true⟩).run s ≠ .ok next t) := by
  have settled (C : Definitions → Prop) (holds : C {}) :
      Settled (Defines C) none { gas := ⟨gas⟩ } :=
    ⟨(held_start (P := fun _ => True) trivial gas score).tended, rfl, holds⟩
  constructor
  · intro tops fault t failed
    have meets := (succession_onTop id).rounds rounds (.start (settled _ ⟨nofun, nofun⟩) tops)
    obtain ⟨first, top, played⟩ := meets.queue _ List.mem_cons_self
    exact (step_spares top played).error meets.session failed
  · rintro ⟨item, rfl, declares⟩ next t done
    have meets := succession_declared.rounds rounds
      (.start (settled _ trivial) fun _ _ => trivial)
    have known := meets.queue _ List.mem_cons_self id ⟨item, rfl, declares⟩
    exact (step_turns (turning_refused id) (steward_declared id) (steward_const False) declares true
      ⟨meets.session.tended, meets.session.holds.1, known⟩ done).holds.2

/-- A group that is declared an octave up, and not by a node itself. -/
def octaveGroup : Item := .range 7 .octaveUp [.group 9 2 [.key ⟨10, .pitchClass 0, 0, 0⟩]]

/-- After a group that is a node: when they are played again, the first one is not declared again, and
the second one is refused. -/
theorem replay_declares_of_octave : ∃ active active' s t,
    let start : Config := .start 40 [.repeatOpen 0,
      .item (.group 3 1 [.key ⟨4, .pitchClass 0, 0, 0⟩]), .item octaveGroup, .repeatClose 14 none]
    Rounds start ⟨active, [⟨.item (.groupRef 3 1), true⟩, ⟨.item octaveGroup, true⟩], s⟩ ∧
    (∀ fault u, (step active ⟨.item (.groupRef 3 1), true⟩).run s = .error fault u →
      fault.cause ≠ .groupRedeclared 1) ∧
    Rounds start ⟨active', [⟨.item octaveGroup, true⟩], t⟩ ∧
    ∀ next u, (step active' ⟨.item octaveGroup, true⟩).run t ≠ .ok next u := by
  have played : (do
      let a ← step none ⟨.repeatOpen 0, false⟩
      let b ← step a.1 ⟨.item (.group 3 1 [.key ⟨4, .pitchClass 0, 0, 0⟩]), false⟩
      let c ← step b.1 ⟨.item octaveGroup, false⟩
      let d ← step c.1 ⟨.repeatClose 14 none, false⟩
      let e ← step d.1 ⟨.item (.groupRef 3 1), true⟩
      return [a.2, b.2, c.2, d.2, e.2] : Play (List (List Node))).run' { gas := ⟨40⟩ } =
        some [[], [], [], [.item (.groupRef 3 1), .item octaveGroup], []] := by cbv
  obtain ⟨t, played⟩ := Step.exists_of_run' played
  obtain ⟨⟨a, _⟩, _, one, played⟩ := Step.bind_ok played
  obtain ⟨⟨b, _⟩, _, two, played⟩ := Step.bind_ok played
  obtain ⟨⟨c, _⟩, _, three, played⟩ := Step.bind_ok played
  obtain ⟨⟨d, _⟩, s, four, played⟩ := Step.bind_ok played
  obtain ⟨⟨e, _⟩, _, five, played⟩ := Step.bind_ok played
  cases played
  have closed : Rounds (.start 40 [.repeatOpen 0,
      .item (.group 3 1 [.key ⟨4, .pitchClass 0, 0, 0⟩]), .item octaveGroup, .repeatClose 14 none])
      ⟨d, [⟨.item (.groupRef 3 1), true⟩, ⟨.item octaveGroup, true⟩], s⟩ :=
    .tail (.tail (.tail (.single (.node one)) (.node two)) (.node three)) (.node four)
  have referred := closed.tail (.node five)
  have key (offset number : Nat) :
      (Item.key ⟨offset, .pitchClass 0, 0, 0⟩).Without number :=
    Item.throughout_iff.mpr ⟨fun group => group, List.forall_mem_nil _⟩
  refine ⟨d, e, s, t, closed, (replay_declares closed 1).1 ?_, referred, (replay_declares referred 2).2
    ⟨octaveGroup, rfl, .inner List.mem_cons_self .here⟩⟩
  have below : (Item.group 9 2 [.key ⟨10, .pitchClass 0, 0, 0⟩]).Without 1 :=
    Item.throughout_iff.mpr ⟨(by decide : ¬ 2 = 1), List.forall_mem_singleton.mpr (key 10 1)⟩
  refine List.forall_mem_cons.mpr ⟨trivial, List.forall_mem_cons.mpr ⟨?_,
    List.forall_mem_cons.mpr ⟨?_, List.forall_mem_singleton.mpr trivial⟩⟩⟩
  · exact List.forall_mem_singleton.mpr (key 4 1)
  · exact List.forall_mem_singleton.mpr below

end Steps

end Session
end TextScore
