import TextScore.Error
import TextScore.Text.Blank

/-! Reading a score character by character. A cursor holds the characters still unread and the
offset of the first of them; a reader moves it forward or fails. -/
namespace TextScore

structure Cursor where
  offset : Nat
  rest : List Char

abbrev Reader (α : Type) := StateT Cursor (Except Fault) α

namespace Reader

def offset : Reader Nat := return (← get).offset

def peek : Reader (Option Char) := return (← get).rest.head?

def failAt {α : Type} (offset : Nat) (cause : Cause) : Reader α := throw ⟨cause, offset⟩

def fail {α : Type} (cause : Cause) : Reader α := do failAt (← offset) cause

def skip (count : Nat) : Reader Unit :=
  modify fun c => ⟨c.offset + count, c.rest.drop count⟩

def takeWhile (p : Char → Bool) : Reader (List Char) := do
  let taken := (← get).rest.takeWhile p
  skip taken.length
  return taken

theorem drop_length_takeWhile (p : Char → Bool) (cs : List Char) :
    cs.drop (cs.takeWhile p).length = cs.dropWhile p := by
  induction cs with
  | nil => rfl
  | cons c cs ih => by_cases h : p c <;> simp [h, ih]

/-- A reader that takes a run of characters moves past exactly that run. -/
theorem run_takeWhile (p : Char → Bool) (c : Cursor) :
    (takeWhile p).run c =
      .ok (c.rest.takeWhile p,
        ⟨c.offset + (c.rest.takeWhile p).length, c.rest.dropWhile p⟩) := by
  rw [← drop_length_takeWhile p c.rest]
  rfl

def skipBlanks : Reader Unit := do
  let _ ← takeWhile Text.isBlank

def expect (wanted : Char) : Reader Unit := do
  let found ← peek
  if found = some wanted then skip 1 else fail (.expectedCharacter wanted found)

/-- Collects what `step` reads until it reads nothing. `limit` bounds the rounds; callers give one
above the number of characters left, of which each round reads at least one. -/
def collect {α : Type} (limit : Nat) (step : Reader (Option α)) : Reader (List α) :=
  match limit with
  | 0 => fail .unexpectedEnd
  | limit + 1 => do
    match ← step with
    | none => return []
    | some a => return a :: (← collect limit step)

end Reader

end TextScore
