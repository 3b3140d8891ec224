import TextScore.Text.Numeral

/-! Note lengths in ticks. A beat is a quarter note of 128 ticks. `4` is a quarter note, `d4` and
`dd4` are dotted once and twice, `T12` is twelve ticks. -/
namespace TextScore.Duration

def ticksPerBeat : Nat := 128

/-- Largest number that a tick count in a score can be. -/
def greatest : Nat := 4294967295

/-- The length of `1 / denominator` of a whole note, if that is a whole number of ticks. -/
def fraction? (denominator : Nat) : Option Nat :=
  let whole := 4 * ticksPerBeat
  if denominator ≠ 0 ∧ whole % denominator = 0 then some (whole / denominator) else none

def ofText? (text : String) : Option Nat :=
  match text.toList with
  | 'T' :: rest => Text.natural? greatest (String.ofList rest)
  | 'd' :: 'd' :: rest =>
    ((Text.natural? greatest (String.ofList rest)).bind fraction?).map fun n => n + n / 2 + n / 4
  | 'd' :: rest =>
    ((Text.natural? greatest (String.ofList rest)).bind fraction?).map fun n => n + n / 2
  | rest => (Text.natural? greatest (String.ofList rest)).bind fraction?

end TextScore.Duration
