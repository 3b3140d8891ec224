import TextScore.Proofs.CheckedItems

/-! Runs with every operation checked. The conductor waits for what lies between its place and the
cursor, a part that is played again is cut where its first ending begins, and channels resume on
timelines that were started. -/
namespace TextScore
open Checked

namespace Repeats

/-- The place of a prima volta is one of the part that was captured. -/
def close? (offset : Nat) (count : Option Nat) (budget : Nat) : Checked Repeats (List Node) := do
  let passes := count.getD 2
  if passes = 0 then Checked.failAt offset .repeatZeroTimes
  let r ← get
  let captured := r.captured
  set { r with performed := #[], capture := none }
  match captured.toList.findIdx? Node.isPrimaVolta with
  | some volta =>
    if passes ≠ 2 then Checked.failAt offset .primaVoltaPlayedOften
    modify fun r => { r with secondaAllowed := true }
    answer (slice? captured.toList 0 volta)
  | none =>
    let more ← answer (minus? passes 1)
    if budget ≤ more * captured.size then Checked.failAt offset .exhausted
    return copies more captured.toList

theorem agrees_close (offset : Nat) (count : Option Nat) (budget : Nat) :
    Agrees (fun _ => True) (close? offset count budget) (close offset count budget) := by
  unfold close? close
  dsimp only
  refine .guarded fun passes => .read fun r _ => ?_
  refine Agrees.bind (Q := fun _ _ => True) (fun _ _ => rfl) (fun _ _ => trivial) fun _ => ?_
  have folded : (r.capture.map Capture.nodes).getD r.performed = r.captured := rfl
  rw [folded]
  cases place : r.captured.toList.findIdx? Node.isPrimaVolta with
  | some volta =>
    obtain ⟨inside, first⟩ := List.findIdx?_eq_some_iff_findIdx_eq.mp place
    have ending : r.captured.any Node.isPrimaVolta := by
      rw [← Array.any_toList, List.any_eq_true]
      exact List.findIdx_lt_length.mp (first ▸ inside)
    have cut : r.captured.toList.takeWhile (!·.isPrimaVolta) = r.captured.toList.take volta := by
      simp only [List.takeWhile_eq_take_findIdx_not, Bool.not_not, first]
    rw [if_pos ending, cut]
    refine .guarded fun _ => Agrees.bind (Q := fun _ _ => True) (.modify _) (fun _ _ => trivial)
      fun _ _ _ => ?_
    rw [slice?, if_pos ⟨Nat.zero_le _, Nat.le_of_lt inside⟩]
    rfl
  | none =>
    have plain : ¬ r.captured.any Node.isPrimaVolta := by
      rw [← Array.any_toList, List.any_eq_true]
      rintro ⟨node, listed, prima⟩
      exact Bool.false_ne_true ((List.findIdx?_eq_none_iff.mp place node listed).symm.trans prima)
    rw [if_neg plain]
    refine .defined (minus?_eq (Nat.one_le_iff_ne_zero.mpr passes)) ?_
    split
    · exact .failAt offset .exhausted
    · exact .pure _

end Repeats

namespace Conductor

def moveTo? (offset position : Nat) : Checked Conductor Unit := do
  let c ← get
  if position < c.position then Checked.failAt offset .conductorBehind
  if c.position < position then
    let wait ← answer (minus? position c.position)
    set { c with events := c.events.push (.filler wait), position := position }

theorem agrees_moveTo (offset position : Nat) :
    Agrees (fun _ => True) (moveTo? offset position) (moveTo offset position) := by
  refine .read fun c _ => .guarded fun early => ?_
  by_cases behind : c.position < position
  · rw [if_pos behind, if_pos behind]
    exact .defined (minus?_eq (Nat.le_of_lt behind)) fun _ _ => rfl
  · rw [if_neg behind, if_neg behind]
    exact .pure _

end Conductor

namespace Arena

def start? (channel : Nat) : Checked Arena TimelineId := do
  let (id, arena) ← answer ((← get).create? channel)
  set arena
  return id

/-- The first of some timelines that belongs to a channel. -/
def firstOf? (channel : Nat) (arena : Arena) : List TimelineId → Option (Option TimelineId)
  | [] => some none
  | here :: rest => do
    if (← arena.timelines[here]?).channel = channel then return some here
    firstOf? channel arena rest

theorem agrees_start (channel : Nat) :
    Agrees (fun _ => True) (start? channel) (modifyGet (create channel)) := fun arena _ => by
  have started : (start? channel).run.run arena = (answer (arena.create? channel) >>= fun (id, arena) =>
    (do set arena; return id)).run.run arena := rfl
  rw [started, create?_eq]
  rfl

theorem firstOf?_eq (channel : Nat) {arena : Arena} {ids : List TimelineId}
    (inside : ∀ id ∈ ids, id < arena.timelines.size) : arena.firstOf? channel ids =
      some (ids.find? fun here => (arena.timeline here).channel = channel) := by
  induction ids with
  | nil => rfl
  | cons here ids ih =>
    obtain ⟨first, others⟩ := List.forall_mem_cons.mp inside
    simp only [firstOf?, getElem?_timelines first, Option.bind_eq_bind, Option.bind_some,
      List.find?_cons, ih others, Option.pure_def]
    by_cases same : (arena.timeline here).channel = channel <;> simp [same]

end Arena

namespace Session
variable {α : Type}

def onConductor? (x : Checked Conductor α) : Checked Session α :=
  x.within Session.conductor fun s c => { s with conductor := c }

def startChannel? (channel : Nat) : Checked Session TimelineId := do
  let here ← onArena? (Arena.start? channel)
  modify fun s => { s with channels := s.channels.push here }
  return here

def activate? (active : Option TimelineId) : Checked Session TimelineId :=
  match active with
  | some here => return here
  | none => startChannel? 1

def declareChannel? (offset id : Nat) (resume : Bool) : Checked Session TimelineId := do
  if id = 0 ∨ 16 < id then Checked.failAt offset (.invalidChannel id)
  if resume then
    let s ← get
    match ← answer (s.arena.firstOf? id s.channels.toList.reverse) with
    | some here => return here
    | none => Checked.failAt offset (.noSuchChannel id)
  else startChannel? id

def ensureRepeatClosed? (active : Option TimelineId) : Checked Session Unit :=
  match active with
  | some here => at? here (ensureRepeatClosed (some here))
  | none => return ()

def onRepeats? (here : TimelineId) (x : Checked Repeats α) : Checked Session α :=
  onArena? (Arena.on? here (x.within Timeline.repeats fun t r => { t with repeats := r }))

def conduct? (active : Option TimelineId) (offset : Nat) (event : Conductor → Conductor) :
    Checked Session Unit := do
  let position ← match active with
    | some here => do pure (← timeline? here).position
    | none => pure 0
  onConductor? (Conductor.moveTo? offset position)
  modify fun s => { s with conductor := event s.conductor }

def globalSetting? (active : Option TimelineId) (offset : Nat) (key value : String) :
    Checked Session Unit := do
  let malformed {α : Type} : Checked Session α := Checked.failAt offset (.malformedGlobal key value)
  match key with
  | "bpm" => match bpm? value with
    | some bpm => conduct? active offset (Conductor.setTempo bpm)
    | none => malformed
  | "time-sig" => match timeSignature? value with
    | some (numerator, denominator) =>
      conduct? active offset (Conductor.setTimeSignature numerator denominator)
    | none => malformed
  | "fermata" => match fermata? value with
    | some factor => modify fun s => { s with fermata := factor }
    | none => malformed
  | _ => Checked.failAt offset (.unknownGlobal key)

def performNode? (active : Option TimelineId) (node : Node) :
    Checked Session (Option TimelineId × List Node) := do
  match node with
  | .item item =>
    let here ← activate? active
    let depth := (← get).gas.remaining + 1
    let _ ← perform? depth here 0 item
    return (some here, [])
  | .channel offset id resume =>
    ensureRepeatClosed? active
    return (some (← declareChannel? offset id resume), [])
  | .global offset key value =>
    globalSetting? active offset key value
    return (active, [])
  | .define offset name template =>
    Checked.plain (onDefinitions (Definitions.defineTemplate name template offset))
    return (active, [])
  | .declareEmoji offset symbol setting =>
    Checked.plain (onDefinitions (Definitions.declareEmoji symbol setting offset))
    return (active, [])
  | .repeatOpen offset =>
    let here ← activate? active
    onRepeats? here (Checked.plain (Repeats.start offset))
    return (some here, [])
  | .repeatClose offset count =>
    let here ← activate? active
    let budget := (← get).gas.remaining
    let again ← onRepeats? here (Repeats.close? offset count budget)
    return (some here, again)
  | .volta offset ending =>
    let here ← activate? active
    onRepeats? here (Checked.plain (Repeats.volta offset ending))
    return (some here, [])

def adjustRepeats? (active : Option TimelineId) (f : Repeats → Repeats) : Checked Session Unit :=
  match active with
  | some here => adjust? here fun t => { t with repeats := f t.repeats }
  | none => return ()

def step? (active : Option TimelineId) (queued : Queued) :
    Checked Session (Option TimelineId × List Node) := do
  let node := queued.node
  if !node.isItem then Checked.plain (burn node.offset)
  if !queued.again && !node.isSecondaVolta then adjustRepeats? active Repeats.expire
  let (active, again) ← performNode? active node
  if !queued.again then adjustRepeats? active (Repeats.record node)
  return (active, again)

def drain? : (rounds : Nat) → (active : Option TimelineId) → List Queued → Checked Session Unit
  | _, active, [] => ensureRepeatClosed? active
  | 0, _, queued :: _ => Checked.failAt queued.node.offset .exhausted
  | rounds + 1, active, queued :: rest => do
    let (active, again) ← step? active queued
    drain? rounds active (again.map (⟨·, true⟩) ++ rest)

def run? (score : List Node) : Checked Session Unit := do
  let rounds := (← get).gas.remaining + 1
  drain? rounds none (score.map (⟨·, false⟩))

variable {P : Session → Prop} {active : Option TimelineId} {here : TimelineId}

theorem agrees_startChannel (channel : Nat) :
    Agrees P (startChannel? channel) (startChannel channel) :=
  (agrees_onArena (Arena.agrees_start channel) fun _ => trivial).bind (Q := fun _ _ => True)
    (fun _ _ => trivial) fun _ => (Agrees.modify _).answered _

theorem agrees_activate (active : Option TimelineId) :
    Agrees P (activate? active) (activate active) := by
  cases active with
  | none => exact agrees_startChannel 1
  | some here => exact .pure here

theorem agrees_declareChannel (offset id : Nat) (resume : Bool) :
    Agrees (Settled Real active) (declareChannel? offset id resume)
      (declareChannel offset id resume) := by
  unfold declareChannel? declareChannel
  refine .guarded fun valid => ?_
  cases resume with
  | false => exact agrees_startChannel id
  | true =>
    refine .read fun s kept => .defined (Arena.firstOf?_eq id fun root listed => ?_) ?_
    · have started := List.mem_append_left s.arena.branches (List.mem_reverse.mp listed)
      exact kept.tended.sound.forest.lt_size (List.mem_append_left _ started)
    · unfold latest?
      cases s.channels.toList.reverse.find? fun here => (s.arena.timeline here).channel = id with
      | none => exact .failAt _ _
      | some here => exact .pure here

theorem present (kept : Settled Real (some here) s) : here < s.arena.timelines.size :=
  kept.inside List.mem_cons_self

theorem agrees_ensureRepeatClosed (active : Option TimelineId) :
    Agrees (Settled Real active) (ensureRepeatClosed? active) (ensureRepeatClosed active) := by
  cases active with
  | none => exact .pure ()
  | some here => exact agrees_at present _

theorem agrees_adjustRepeats (active : Option TimelineId) (f : Repeats → Repeats) :
    Agrees (Settled Real active) (adjustRepeats? active f) (adjustRepeats active f) := by
  cases active with
  | none => exact .pure ()
  | some here => exact agrees_adjust present _

theorem agrees_onRepeats {x : Checked Repeats α} {p : Step Repeats α}
    (agrees : Agrees (fun _ => True) x p) :
    Agrees (Settled Real (some here)) (onRepeats? here x) (onRepeats here p) :=
  agrees_onArena (R := fun arena => here < arena.timelines.size)
    (Arena.agrees_on (R := fun _ => True) id (agrees.within fun _ => trivial) fun _ => trivial)
    present

theorem agrees_conduct (active : Option TimelineId) (offset : Nat) (event : Conductor → Conductor) :
    Agrees (Settled Real active) (conduct? active offset event) (conduct active offset event) := by
  have moves (position : Nat) {P : Session → Prop} : Agrees P
      (do
        onConductor? (Conductor.moveTo? offset position)
        modify fun s => { s with conductor := event s.conductor })
      (do
        onConductor (Conductor.moveTo offset position)
        modify fun s => { s with conductor := event s.conductor }) :=
    ((Conductor.agrees_moveTo offset position).within fun _ => trivial).bind (Q := fun _ _ => True)
      (fun _ _ => trivial) fun _ => .modify _
  cases active with
  | none => exact moves 0
  | some here => exact .each fun s kept => agrees_timeline (present kept) (moves _)

theorem agrees_globalSetting (active : Option TimelineId) (offset : Nat) (key value : String) :
    Agrees (Settled Real active) (globalSetting? active offset key value)
      (globalSetting active offset key value) := by
  by_cases tempo : key = "bpm"
  · subst tempo
    unfold globalSetting? globalSetting
    dsimp only
    cases bpm? value with
    | none => exact .failAt _ _
    | some bpm => exact agrees_conduct active offset _
  by_cases meter : key = "time-sig"
  · subst meter
    unfold globalSetting? globalSetting
    dsimp only
    cases timeSignature? value with
    | none => exact .failAt _ _
    | some pair => exact agrees_conduct active offset _
  by_cases length : key = "fermata"
  · subst length
    unfold globalSetting? globalSetting
    dsimp only
    cases fermata? value with
    | none => exact .failAt _ _
    | some factor => exact .modify _
  · simp only [globalSetting?, globalSetting]
    exact .failAt _ _

theorem agrees_performNode (active : Option TimelineId) {node : Node} (known : node.WellFormed) :
    Agrees (Settled Real active) (performNode? active node) (performNode active node) := by
  have steward := stewardship_real
  cases node with
  | item item =>
    refine (agrees_activate active).bind (fun kept done => steward.activate kept done) fun here => ?_
    refine .read fun s kept => ?_
    refine Agrees.bind (Q := fun _ _ => True) ?_ (fun _ _ => trivial) fun _ => .pure _
    exact ((sure_perform _).agrees List.mem_cons_self 0 known).start kept
  | channel offset id resume =>
    refine (agrees_ensureRepeatClosed active).bind (Q := fun _ => Settled Real active)
      (fun kept done => ensureRepeatClosed_ok done ▸ kept) fun _ => ?_
    exact (agrees_declareChannel offset id resume).answered _
  | «global» offset key value => exact (agrees_globalSetting active offset key value).answered _
  | define | declareEmoji => exact (Agrees.plain _).answered _
  | repeatOpen offset =>
    refine (agrees_activate active).bind (fun kept done => steward.activate kept done) fun here => ?_
    exact (agrees_onRepeats (.plain (Repeats.start offset))).answered _
  | repeatClose offset count =>
    refine (agrees_activate active).bind (fun kept done => steward.activate kept done) fun here => ?_
    refine .read fun s kept => Agrees.answered ?_ _
    exact (agrees_onRepeats (Repeats.agrees_close offset count _)).start kept
  | volta offset ending =>
    refine (agrees_activate active).bind (fun kept done => steward.activate kept done) fun here => ?_
    exact (agrees_onRepeats (.plain (Repeats.volta offset ending))).answered _

theorem agrees_step (active : Option TimelineId) {queued : Queued} (known : queued.node.WellFormed) :
    Agrees (Settled Real active) (step? active queued) (step active queued) := by
  have steward := stewardship_real
  unfold step? step
  refine .when (.plain _) (fun kept done => steward.burn _ kept done) ?_
  refine .when (agrees_adjustRepeats active _) (fun kept done => steward.adjustRepeats _ kept done) ?_
  refine (agrees_performNode active known).bind
    (fun kept done => steward.performNode known kept done) fun next => ?_
  obtain ⟨active', again⟩ := next
  exact .when (agrees_adjustRepeats active' _)
    (fun kept done => steward.adjustRepeats _ kept done) (.pure _)

theorem agrees_drain (rounds : Nat) (active : Option TimelineId) (queue : List Queued) :
    Agrees (fun s => (⟨active, queue, s⟩ : Config).Meets (Settled Real) Node.WellFormed
      fun _ => Node.WellFormed) (drain? rounds active queue) (drain rounds active queue) := by
  induction rounds generalizing active queue with
  | zero =>
    cases queue with
    | nil => exact (agrees_ensureRepeatClosed active).mono Config.Meets.session
    | cons queued rest => exact .failAt _ _
  | succ rounds ih =>
    cases queue with
    | nil => exact (agrees_ensureRepeatClosed active).mono Config.Meets.session
    | cons queued rest =>
      refine .each fun s meets => ?_
      have known : queued.node.WellFormed := by
        simpa only [ite_self] using meets.queue queued List.mem_cons_self
      refine ((agrees_step active known).start meets.session).bind
        (Q := fun next t => (⟨next.1, next.2.map (⟨·, true⟩) ++ rest, t⟩ : Config).Meets
          (Settled Real) Node.WellFormed fun _ => Node.WellFormed)
        (fun same done => ?_) fun next => ih next.1 _
      subst same
      exact stewardship_real.succession.rounds (.single (.node done)) meets

/-- Whatever well-formed score is performed, every operation on the way is defined. -/
theorem agrees_run {score : List Node} (known : ∀ node ∈ score, node.WellFormed) {gas : Nat}
    (begins : Real [] { gas := ⟨gas⟩ }) :
    Agrees (fun s => s = { gas := ⟨gas⟩ }) (run? score) (run score) := by
  refine .read fun s same => (agrees_drain _ none _).start ?_
  subst same
  exact .start ⟨(held_start (P := fun _ => True) trivial gas score).tended, begins⟩ known

end Session
end TextScore
