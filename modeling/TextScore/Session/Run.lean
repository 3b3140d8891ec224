import TextScore.Session.Perform

/-! Running a score. Nodes are taken from a queue; a repeat that closes puts what it plays again in
front of the rest. -/
namespace TextScore.Session

structure Queued where
  node : Node
  /-- Put into the queue by a repeat. -/
  again : Bool

def startChannel (channel : Nat) : Play TimelineId := do
  let here ← onArena (modifyGet (Arena.create channel))
  modify fun s => { s with channels := s.channels.push here }
  return here

/-- The active timeline; without a channel so far, channel 1 begins. -/
def activate (active : Option TimelineId) : Play TimelineId :=
  match active with
  | some here => return here
  | none => startChannel 1

/-- The latest timeline that a channel started. -/
def latest? (s : Session) (channel : Nat) : Option TimelineId :=
  s.channels.toList.reverse.find? fun here => (s.arena.timeline here).channel = channel

def declareChannel (offset id : Nat) (resume : Bool) : Play TimelineId := do
  if id = 0 ∨ 16 < id then Step.failAt offset (.invalidChannel id)
  if resume then
    match latest? (← get) id with
    | some here => return here
    | none => Step.failAt offset (.noSuchChannel id)
  else startChannel id

def ensureRepeatClosed (active : Option TimelineId) : Play Unit := do
  if let some here := active then
    match (← timeline here).repeats.ensureClosed with
    | .ok () => return
    | .error fault => throw fault

def onRepeats {α : Type} (here : TimelineId) (step : Step Repeats α) : Play α :=
  onTimeline here (Timeline.onRepeats step)

/-- Performs a node and answers the timeline that is active after it and the nodes that it plays
again. -/
def performNode (active : Option TimelineId) (node : Node) :
    Play (Option TimelineId × List Node) := do
  match node with
  | .item item =>
    let here ← activate active
    let depth := (← get).gas.remaining + 1
    let _ ← perform depth here 0 item
    return (some here, [])
  | .channel offset id resume =>
    ensureRepeatClosed active
    return (some (← declareChannel offset id resume), [])
  | .global offset key value =>
    globalSetting active offset key value
    return (active, [])
  | .define offset name template =>
    onDefinitions (Definitions.defineTemplate name template offset)
    return (active, [])
  | .declareEmoji offset symbol setting =>
    onDefinitions (Definitions.declareEmoji symbol setting offset)
    return (active, [])
  | .repeatOpen offset =>
    let here ← activate active
    onRepeats here (Repeats.start offset)
    return (some here, [])
  | .repeatClose offset count =>
    let here ← activate active
    let budget := (← get).gas.remaining
    let again ← onRepeats here (Repeats.close offset count budget)
    return (some here, again)
  | .volta offset ending =>
    let here ← activate active
    onRepeats here (Repeats.volta offset ending)
    return (some here, [])

def adjustRepeats (active : Option TimelineId) (f : Repeats → Repeats) : Play Unit := do
  if let some here := active then adjust here fun t => { t with repeats := f t.repeats }

/-- One node from the queue. Nodes played again leave the repeats as they are. -/
def step (active : Option TimelineId) (queued : Queued) :
    Play (Option TimelineId × List Node) := do
  let node := queued.node
  if !node.isItem then burn node.offset
  if !queued.again && !node.isSecondaVolta then adjustRepeats active Repeats.expire
  let (active, again) ← performNode active node
  if !queued.again then adjustRepeats active (Repeats.record node)
  return (active, again)

/-- Each round burns gas, so the gas left bounds the rounds. -/
def drain : (rounds : Nat) → (active : Option TimelineId) → List Queued → Play Unit
  | _, active, [] => ensureRepeatClosed active
  | 0, _, queued :: _ => Step.failAt queued.node.offset .exhausted
  | rounds + 1, active, queued :: rest => do
    let (active, again) ← step active queued
    drain rounds active (again.map (⟨·, true⟩) ++ rest)

def run (score : List Node) : Play Unit := do
  let rounds := (← get).gas.remaining + 1
  drain rounds none (score.map (⟨·, false⟩))

end TextScore.Session
