/-! Key letters, pitch classes and MIDI pitches. Pitch classes count semitones from C, and C of
octave 4 is pitch 60. -/
namespace TextScore.Pitch

/-- Highest MIDI pitch; data bytes of MIDI messages have seven bits. -/
def highest : Nat := 127

/-- Small letters are naturals and capitals are their sharps. Solfège syllables are naturals,
sharps and flats. -/
def class? : Char → Option Nat
  | 'c' | '도' => some 0
  | 'C' | '돗' | '렢' => some 1
  | 'd' | '레' => some 2
  | 'D' | '렛' | '밒' => some 3
  | 'e' | '미' => some 4
  | 'f' | '파' => some 5
  | 'F' | '팟' | '솚' => some 6
  | 'g' | '솔' => some 7
  | 'G' | '솘' | '랖' => some 8
  | 'a' | '라' => some 9
  | 'A' | '랏' | '싶' => some 10
  | 'b' | '시' => some 11
  | _ => none

/-- Only pitches from 0 to `highest` exist. -/
def ofInt? (n : Int) : Option Nat :=
  if 0 ≤ n ∧ n ≤ Int.ofNat highest then some n.toNat else none

def midi? (octave : Int) (pitchClass : Nat) (semitones : Int) : Option Nat :=
  ofInt? ((octave + 1) * 12 + Int.ofNat pitchClass + semitones)

/-- The neighbour that a trill alternates with: a semitone above E, B and the sharps, a whole tone
above the other naturals. -/
def neighbour? (pitch : Nat) : Option Nat :=
  let step := if pitch % 12 ∈ [1, 3, 4, 6, 8, 10, 11] then 1 else 2
  if pitch + step ≤ highest then some (pitch + step) else none

end TextScore.Pitch
