import TextScore.Duration
import TextScore.Pitch
import TextScore.Score.Basic
import TextScore.Score.Cursor
import TextScore.Text.Numeral

/-! The smallest constructs of a score: words, numbers, keys, chords and settings. None of them
holds items. -/
namespace TextScore.Score
open Reader

def isWordChar (c : Char) : Bool := c.isAlphanum || c ∈ ['_', '.', '/', '-']

/-- Any character outside Latin-1 may be part of an emoji shortcut. -/
def isEmoji (c : Char) : Bool := 0xFF < c.toNat

def word : Reader String := do
  let cs ← takeWhile isWordChar
  if cs.isEmpty then fail (.expectedWord (← peek)) else return String.ofList cs

def emojiSymbol : Reader String := do
  let cs ← takeWhile isEmoji
  if cs.isEmpty then fail .expectedEmoji else return String.ofList cs

def number : Reader Nat := do
  let start ← offset
  let cs ← takeWhile Char.isDigit
  if cs.isEmpty then fail (.expectedDigits (← peek))
  else if Duration.greatest < Text.digitsValue cs then
    failAt start (.numberTooLarge (String.ofList cs))
  else return Text.digitsValue cs

def key : Reader Key := do
  let start ← offset
  let marks ← takeWhile (· ∈ ['^', 'v'])
  let tone ← match ← peek with
    | none => fail .unexpectedEnd
    | some 'x' => pure Tone.placeholder
    | some c => match Pitch.class? c with
      | some pitchClass => pure (Tone.pitchClass pitchClass)
      | none => fail (.unexpectedCharacter c)
  skip 1
  let accidentals ← takeWhile (· ∈ ['+', '-'])
  return {
    offset := start
    tone := tone
    octave := Int.ofNat (marks.count '^') - Int.ofNat (marks.count 'v')
    semitones := Int.ofNat (accidentals.count '+') - Int.ofNat (accidentals.count '-') }

def chord (limit : Nat) : Reader Chord := do
  let start ← offset
  expect '['
  let arpeggio := (← peek) = some '|'
  if arpeggio then skip 1
  let keys ← collect limit do
    skipBlanks
    match ← peek with
    | none => failAt start .unclosedChord
    | some ']' => skip 1; return none
    | some _ => return some (← key)
  return ⟨start, arpeggio, keys⟩

def setting : Reader Setting := do
  let start ← offset
  expect '('
  let key ← word
  expect '='
  let value ← word
  expect ')'
  return ⟨start, key, value⟩

/-- A bracket, a word and `=` begin a setting; any other bracket begins a range. -/
def startsSetting : List Char → Bool
  | '(' :: rest =>
    !(rest.takeWhile isWordChar).isEmpty && (rest.dropWhile isWordChar).head? == some '='
  | _ => false

end TextScore.Score
