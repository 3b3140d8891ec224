import TextScore.Proofs.Twins

/-! What repeats do with the nodes that they are handed, and when two of them do the same. -/
namespace TextScore

/-- What is played again is itself played again as it is. -/
theorem Node.replay?_replay? {node again : Node} (played : node.replay? = some again) :
    again.replay? = some again := by
  cases node with
  | item item => cases item <;> cases played <;> rfl
  | volta offset ending =>
    cases ending with
    | prima =>
      cases played
      rfl
    | seconda => exact nomatch played
  | «global» =>
    cases played
    rfl
  | _ => exact nomatch played

namespace Repeats
variable {r r' : Repeats}

/-- Repeats that will do the same, as long as only a repeat that is open is closed, or if both have
recorded the same in all. -/
structure Alike (exact : Prop) (r r' : Repeats) : Prop where
  capture : r'.capture = r.capture
  seconda : r'.secondaAllowed = r.secondaAllowed
  performed : exact → r'.performed = r.performed
  replayed : ∀ c, r.capture = some c → ∀ node ∈ c.nodes, node.replay?.isSome

theorem alike_new (exact : Prop) : Alike exact {} {} :=
  ⟨rfl, rfl, fun _ => rfl, fun _ none => nomatch none⟩

variable {exact : Prop}

theorem Alike.expire (alike : Alike exact r r') : Alike exact r.expire r'.expire :=
  ⟨alike.capture, rfl, alike.performed, alike.replayed⟩

theorem Alike.record (alike : Alike exact r r') (node : Node) :
    Alike exact (r.record node) (r'.record node) := by
  unfold Repeats.record
  cases played : node.replay? with
  | none => exact alike
  | some again =>
    constructor
    · simp only [alike.capture]
    · exact alike.seconda
    · intro real
      simp only [alike.performed real]
    · intro c captured node member
      dsimp only at captured
      cases before : r.capture with
      | none => simp only [before, Option.map_none, reduceCtorEq] at captured
      | some c' =>
        rw [before] at captured
        cases captured
        rcases Array.mem_push.mp member with listed | rfl
        · exact alike.replayed c' before node listed
        · rw [Node.replay?_replay? played]
          rfl

theorem isSome_capture_record (node : Node) (r : Repeats) :
    (r.record node).capture.isSome = r.capture.isSome := by
  unfold Repeats.record
  cases node.replay? with
  | none => rfl
  | some again => exact Option.isSome_map

theorem secondaAllowed_record (node : Node) (r : Repeats) :
    (r.record node).secondaAllowed = r.secondaAllowed := by
  unfold record
  cases node.replay? <;> rfl

theorem start_run (offset : Nat) (r : Repeats) : (start offset).run r =
    if r.capture.isSome then .error ⟨.repeatAlreadyOpen, offset⟩ r
    else .ok () { r with capture := some ⟨offset, #[]⟩, secondaAllowed := false } := by
  simp only [start, EStateM.run_bind, EStateM.run_get]
  split <;> rfl

/-- What a close plays again. -/
def captured (r : Repeats) : Array Node := (r.capture.map Capture.nodes).getD r.performed

theorem close_run (offset : Nat) (count : Option Nat) (budget : Nat) (r : Repeats) :
    (close offset count budget).run r =
      if count.getD 2 = 0 then .error ⟨.repeatZeroTimes, offset⟩ r
      else if r.captured.any Node.isPrimaVolta then
        if count.getD 2 ≠ 2 then
          .error ⟨.primaVoltaPlayedOften, offset⟩ { r with performed := #[], capture := none }
        else .ok (r.captured.toList.takeWhile (!·.isPrimaVolta))
          { r with performed := #[], capture := none, secondaAllowed := true }
      else if budget ≤ (count.getD 2 - 1) * r.captured.size then
        .error ⟨.exhausted, offset⟩ { r with performed := #[], capture := none }
      else .ok (copies (count.getD 2 - 1) r.captured.toList)
        { r with performed := #[], capture := none } := by
  have folded : (r.capture.map Capture.nodes).getD r.performed = r.captured := rfl
  simp only [close]
  by_cases none : count.getD 2 = 0
  · rw [if_pos none, if_pos none]
    rfl
  rw [if_neg none, if_neg none]
  simp only [EStateM.run_bind, EStateM.run_get, EStateM.run_set, folded]
  by_cases ending : r.captured.any Node.isPrimaVolta
  · rw [if_pos ending, if_pos ending]
    split <;> rfl
  · rw [if_neg ending, if_neg ending]
    split <;> rfl

theorem volta_run (offset : Nat) (ending : Volta) (r : Repeats) : (volta offset ending).run r =
    match ending with
    | .prima => match r.capture with
      | none => .error ⟨.unexpectedPrimaVolta, offset⟩ r
      | some c =>
        if c.nodes.any Node.isPrimaVolta then .error ⟨.duplicatePrimaVolta, offset⟩ r
        else .ok () r
    | .seconda =>
      if r.secondaAllowed then .ok () { r with secondaAllowed := false }
      else .error ⟨.unexpectedSecondaVolta, offset⟩ r := by
  cases ending with
  | prima =>
    simp only [volta, EStateM.run_bind, EStateM.run_get]
    cases r.capture with
    | none => rfl
    | some c =>
      dsimp only
      split <;> rfl
  | seconda =>
    simp only [volta, EStateM.run_bind, EStateM.run_get]
    cases r.secondaAllowed <;> rfl

theorem volta_capture {offset : Nat} {ending : Volta} {q : Repeats}
    (passed : (volta offset ending).run r = .ok () q) : q.capture = r.capture := by
  rw [volta_run] at passed
  cases ending with
  | prima => cases opened : r.capture with
    | none =>
      rw [opened] at passed
      exact nomatch passed
    | some c =>
      rw [opened] at passed
      dsimp only at passed
      split at passed
      · exact nomatch passed
      · cases passed
        exact opened
  | seconda =>
    dsimp only at passed
    split at passed
    · cases passed
      rfl
    · exact nomatch passed

/-- Repeats that are alike, until the first run has run out of gas. -/
def mates (exact : Prop) : Coupling Repeats where
  both := Alike exact
  alone fault _ := fault.cause = .exhausted

variable {exact : Prop}

theorem agree_start (alike : Alike exact r r') (offset : Nat) :
    Coupling.Agree Session.Excused (fun _ => mates exact) ((start offset).run r)
      ((start offset).run r') := by
  rw [start_run, start_run, alike.capture]
  by_cases already : r.capture.isSome
  · rw [if_pos already, if_pos already]
    exact .inr rfl
  · rw [if_neg already, if_neg already]
    refine ⟨rfl, rfl, rfl, alike.performed, fun c opened node member => ?_⟩
    cases opened
    exact absurd member (Array.not_mem_empty node)

theorem agree_volta (alike : Alike exact r r') (offset : Nat) (ending : Volta) :
    Coupling.Agree Session.Excused (fun _ => mates exact) ((volta offset ending).run r)
      ((volta offset ending).run r') := by
  rw [volta_run, volta_run, alike.capture, alike.seconda]
  cases ending with
  | prima => cases r.capture with
    | none => exact .inr rfl
    | some c =>
      dsimp only
      by_cases second : c.nodes.any Node.isPrimaVolta
      · rw [if_pos second, if_pos second]
        exact .inr rfl
      · rw [if_neg second, if_neg second]
        exact ⟨rfl, alike⟩
  | seconda =>
    dsimp only
    by_cases allowed : r.secondaAllowed
    · rw [if_pos allowed, if_pos allowed]
      exact ⟨rfl, rfl, rfl, alike.performed, alike.replayed⟩
    · rw [if_neg allowed, if_neg allowed]
      exact .inr rfl

theorem Alike.captured (alike : Alike exact r r') (closable : exact ∨ r.capture.isSome) :
    r'.captured = r.captured := by
  unfold Repeats.captured
  rw [alike.capture]
  rcases closable with real | opened
  · rw [alike.performed real]
  · cases some : r.capture with
    | none => simp only [some, Option.isSome_none, Bool.false_eq_true] at opened
    | some c => rfl

theorem mem_close {offset budget : Nat} {count : Option Nat} {q q' : Repeats} {again : List Node}
    (closed : (close offset count budget).run q = .ok again q') :
    ∀ node ∈ again, node ∈ q.captured := by
  intro node listed
  rw [close_run] at closed
  split at closed
  · exact nomatch closed
  split at closed
  · split at closed
    · exact nomatch closed
    · cases closed
      exact Array.mem_toList_iff.mp ((List.takeWhile_sublist _).subset listed)
  split at closed
  · exact nomatch closed
  · cases closed
    unfold copies at listed
    split at listed
    · exact nomatch listed
    · obtain ⟨copy, copied, listed⟩ := List.mem_flatten.mp listed
      rw [(List.mem_replicate.mp copied).2] at listed
      exact Array.mem_toList_iff.mp listed

theorem Alike.replayed_captured (alike : Alike exact r r') (opened : r.capture.isSome) :
    ∀ node ∈ r.captured, node.replay?.isSome := by
  intro node member
  unfold Repeats.captured at member
  cases some : r.capture with
  | none => simp only [some, Option.isSome_none, Bool.false_eq_true] at opened
  | some c =>
    rw [some] at member
    exact alike.replayed c some node member

/-- A larger budget does not hurt. -/
theorem agree_close (alike : Alike exact r r') (closable : exact ∨ r.capture.isSome) (offset : Nat)
    (count : Option Nat) {budget budget' : Nat} (more : budget ≤ budget') :
    Coupling.Agree Session.Excused (fun _ => mates exact) ((close offset count budget).run r)
      ((close offset count budget').run r') := by
  have closed (allowed : Bool) : Alike exact ⟨#[], none, allowed⟩ ⟨#[], none, allowed⟩ :=
    ⟨rfl, rfl, fun _ => rfl, fun _ none => nomatch none⟩
  rw [close_run, close_run, alike.captured closable, alike.seconda]
  by_cases none : count.getD 2 = 0
  · rw [if_pos none, if_pos none]
    exact .inr rfl
  rw [if_neg none, if_neg none]
  by_cases ending : r.captured.any Node.isPrimaVolta
  · rw [if_pos ending, if_pos ending]
    by_cases often : count.getD 2 ≠ 2
    · rw [if_pos often]
      exact .inr rfl
    · rw [if_neg often]
      exact ⟨rfl, closed true⟩
  rw [if_neg ending, if_neg ending]
  by_cases short : budget ≤ (count.getD 2 - 1) * r.captured.size
  · rw [if_pos short]
    split
    · exact .inl rfl
    · exact rfl
  · rw [if_neg short, if_neg (by omega)]
    exact ⟨rfl, closed r.secondaAllowed⟩

end Repeats
end TextScore
