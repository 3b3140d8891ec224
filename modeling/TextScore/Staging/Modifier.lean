import TextScore.Duration
import TextScore.Staging.Basic
import TextScore.Staging.Ramp

/-! Modifiers: what the ornaments around a key or chord do to its drafts. The stack holds the
innermost ornament first, and that one acts first. -/
namespace TextScore

inductive Modifier where
  | fermata (factor : Binary64)
  | staccato
  | sforzando
  | trill
  | dynamics (ramp : Ramp)
  /-- Placeholders sound `base`, shifted by octaves counted from `octave`. -/
  | substitute (base : Nat) (octave : Int)
  deriving DecidableEq, Repr

namespace Modifier

def graceLength : Nat := 8
def staccatoLength : Nat := 16
def trillLength : Nat := 16
def sforzandoVelocity : Nat := 100
def arpeggioSpacing : Nat := 8
def staccatoSpacing : Nat := 4

/-- A duration times a factor, rounded first to binary64 and then to a tick count. An infinite
factor leaves no duration at nothing. -/
def stretch (factor : Binary64) (duration : Nat) : Nat :=
  match factor with
  | .finite false mantissa exponent =>
    let product := Rounding.toBinary ((duration : Rat) * Binary64.magnitude mantissa exponent)
    min Duration.greatest (Rounding.halfUp product).toNat
  | .infinite false => if duration = 0 then 0 else Duration.greatest
  | _ => 0

/-- Cuts the last note that is no grace to the length of a staccato, and says by how much. -/
def clip : List Draft → Option (List Draft × Nat)
  | [] => none
  | draft :: rest => match clip rest with
    | some (rest, cut) => some (draft :: rest, cut)
    | none =>
      if draft.grace then none
      else
        let cut := draft.duration - staccatoLength
        some ({ draft with duration := draft.duration - cut } :: rest, cut)

/-- Even strokes are as written, odd ones sound the neighbours. -/
def stroke (draft : Draft) (index : Nat) : Draft :=
  { draft with
    pitches := if index % 2 = 0 then draft.pitches
      else draft.pitches.map fun p => (Pitch.neighbour? p).getD p
    duration := trillLength }

/-- The strokes of a trill, as many as fit; graces stay as they are. -/
def strokes (draft : Draft) : List Draft :=
  if draft.grace then [draft]
  else (List.range (draft.duration / trillLength)).map (stroke draft)

/-- What a trill leaves of a note. -/
def leftover (draft : Draft) : Nat :=
  if draft.grace then 0 else draft.duration % trillLength

def apply (onset : Nat) (staged : Staged) : Modifier → Staged
  | fermata factor =>
    { staged with notes := staged.notes.map fun d =>
        if d.grace then d else { d with duration := stretch factor d.duration } }
  | staccato => match clip staged.notes with
    | some (notes, cut) => ⟨notes, staged.rest + cut⟩
    | none => staged
  | sforzando =>
    { staged with notes := staged.notes.map fun d => { d with velocity := sforzandoVelocity } }
  | trill => ⟨staged.notes.flatMap strokes, staged.rest + Draft.sum leftover staged.notes⟩
  | dynamics ramp =>
    let shade (d : Draft) (tick : Nat) : Draft := { d with velocity := ramp.velocity tick }
    { staged with notes := List.zipWith shade staged.notes (Draft.onsets onset staged.notes) }
  | substitute .. => staged

def applyAll (stack : List Modifier) (onset : Nat) (staged : Staged) : Staged :=
  stack.foldl (apply onset) staged

/-- The innermost substitution. -/
def substitution? (stack : List Modifier) : Option (Nat × Int) :=
  stack.findSome? fun
    | substitute base octave => some (base, octave)
    | _ => none

/-- Ticks between the voices of an arpeggio. -/
def arpeggioInterval (stack : List Modifier) : Nat :=
  if stack.contains staccato then staccatoSpacing else arpeggioSpacing

end Modifier
end TextScore
