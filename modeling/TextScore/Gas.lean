import TextScore.Step

/-! The work budget. Each node and each item that is performed burns one unit, and burning the
last unit already fails, so a run that succeeds has gas left. -/
namespace TextScore

structure Gas where
  remaining : Nat
  deriving DecidableEq, Repr

namespace Gas

def standard : Nat := 100000

def burn (offset : Nat) : Step Gas Unit := do
  modify fun gas => ⟨gas.remaining - 1⟩
  if (← get).remaining = 0 then Step.failAt offset .exhausted

theorem burn_run (offset : Nat) (gas : Gas) : (burn offset).run gas =
    if gas.remaining - 1 = 0 then .error ⟨.exhausted, offset⟩ ⟨gas.remaining - 1⟩
    else .ok () ⟨gas.remaining - 1⟩ := by
  simp only [burn, EStateM.run_bind, EStateM.run_modify, EStateM.run_get]
  split <;> rfl

end Gas
end TextScore
