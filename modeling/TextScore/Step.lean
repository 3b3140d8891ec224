import TextScore.Error

/-! Steps on a state that may fail. A failed step keeps whatever it changed before it failed. -/
namespace TextScore

abbrev Step (σ α : Type) := EStateM Fault σ α

namespace Step
variable {σ τ α : Type}

def failAt (offset : Nat) (cause : Cause) : Step σ α := throw ⟨cause, offset⟩

/-- A step on a part of the state. -/
def within (part : σ → τ) (replace : σ → τ → σ) (step : Step τ α) : Step σ α := fun s =>
  match step.run (part s) with
  | .ok a t => .ok a (replace s t)
  | .error fault t => .error fault (replace s t)

theorem within_run (part : σ → τ) (replace : σ → τ → σ) (step : Step τ α) (s : σ) :
    (step.within part replace).run s = match step.run (part s) with
      | .ok a t => .ok a (replace s t)
      | .error fault t => .error fault (replace s t) := rfl

end Step
end TextScore
