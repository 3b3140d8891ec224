import TextScore.Score.Basic
import TextScore.Step

/-! Repeats and voltas of one timeline. Nodes are recorded as they are performed, so that a close
can hand back what is to be played again. -/
namespace TextScore

/-- An open repeat and what has been performed since. -/
structure Capture where
  offset : Nat
  nodes : Array Node

structure Repeats where
  /-- Performed since the start of the timeline or the last close. -/
  performed : Array Node := #[]
  capture : Option Capture := none
  /-- The last node closed a repeat with a prima volta. -/
  secondaAllowed : Bool := false

def Node.isPrimaVolta : Node → Bool
  | .volta _ .prima => true
  | _ => false

def Node.isSecondaVolta : Node → Bool
  | .volta _ .seconda => true
  | _ => false

/-- What playing a node again means. Groups are referred to, since a second declaration would
fail; marks that steer the run are left out. -/
def Node.replay? : Node → Option Node
  | .item (.group offset id _) => some (.item (.groupRef offset id))
  | .item i => some (.item i)
  | .global offset key value => some (.global offset key value)
  | .volta offset .prima => some (.volta offset .prima)
  | _ => none

namespace Repeats

def record (node : Node) (r : Repeats) : Repeats :=
  match node.replay? with
  | none => r
  | some again => { r with
      performed := r.performed.push again
      capture := r.capture.map fun c => { c with nodes := c.nodes.push again } }

def start (offset : Nat) : Step Repeats Unit := do
  if (← get).capture.isSome then Step.failAt offset .repeatAlreadyOpen
  modify fun r => { r with capture := some ⟨offset, #[]⟩, secondaAllowed := false }

/-- So many copies one after the other. -/
def copies (count : Nat) (nodes : List Node) : List Node :=
  if nodes.isEmpty then [] else (List.replicate count nodes).flatten

/-- Hands back the nodes to play again, for `count` passes in all. Without an open repeat the part
since the start or the last close is repeated. A part with a prima volta is played again up to it.
Every node played again will burn gas, so more of them than the budget allows fail at once. -/
def close (offset : Nat) (count : Option Nat) (budget : Nat) : Step Repeats (List Node) := do
  let passes := count.getD 2
  if passes = 0 then Step.failAt offset .repeatZeroTimes
  let r ← get
  let captured := (r.capture.map Capture.nodes).getD r.performed
  set { r with performed := #[], capture := none }
  if captured.any Node.isPrimaVolta then
    if passes ≠ 2 then Step.failAt offset .primaVoltaPlayedOften
    modify fun r => { r with secondaAllowed := true }
    return captured.toList.takeWhile (!·.isPrimaVolta)
  else if budget ≤ (passes - 1) * captured.size then Step.failAt offset .exhausted
  else return copies (passes - 1) captured.toList

def volta (offset : Nat) : Volta → Step Repeats Unit
  | .prima => do match (← get).capture with
    | none => Step.failAt offset .unexpectedPrimaVolta
    | some c => if c.nodes.any Node.isPrimaVolta then Step.failAt offset .duplicatePrimaVolta
  | .seconda => do
    if !(← get).secondaAllowed then Step.failAt offset .unexpectedSecondaVolta
    modify fun r => { r with secondaAllowed := false }

/-- The second ending must follow its close directly. -/
def expire (r : Repeats) : Repeats := { r with secondaAllowed := false }

def ensureClosed (r : Repeats) : Except Fault Unit :=
  match r.capture with
  | none => .ok ()
  | some c => .error ⟨.incompleteRepeat, c.offset⟩

end Repeats
end TextScore
