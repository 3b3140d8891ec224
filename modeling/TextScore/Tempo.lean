import TextScore.Binary64.Arithmetic
import TextScore.Duration

/-! From ticks to milliseconds. Tempo changes cut the time before a tick into segments of one
tempo each. -/
namespace TextScore.Tempo

/-- Holds until the first change. -/
def standard : Binary64 := .ofNat 120

/-- Lengths and tempos of the stretches from tick `start` to `tick`, of which the first has tempo
`current`. A change at the tick itself comes too late. -/
def segments {τ : Type} (start : Nat) (current : τ) (tick : Nat) : List (Nat × τ) → List (Nat × τ)
  | [] => [(tick - start, current)]
  | (position, next) :: changes =>
    if tick ≤ position then [(tick - start, current)]
    else (position - start, current) :: segments position next tick changes

def msPerTick (bpm : Binary64) : Binary64 := .ofNat 60000 / .ofNat Duration.ticksPerBeat / bpm

def ms (changes : List (Nat × Binary64)) (tick : Nat) : Binary64 :=
  (segments 0 standard tick changes).foldl
    (fun total (length, bpm) => total + .ofNat length * msPerTick bpm) (.ofNat 0)

end TextScore.Tempo
