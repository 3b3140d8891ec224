/-! What one key or chord is about to play: drafts of notes in the order they sound, and the
silence after them. Durations are natural numbers: sums of ticks past 32 bits are set aside. -/
namespace TextScore

structure Draft where
  pitches : List Nat
  duration : Nat
  velocity : Nat
  grace : Bool
  deriving DecidableEq, Repr

/-- The total of a number over drafts. -/
def Draft.sum (f : Draft → Nat) : List Draft → Nat
  | [] => 0
  | draft :: rest => f draft + sum f rest

/-- The onset of each draft when the first one sounds at `start`. -/
def Draft.onsets (start : Nat) : List Draft → List Nat
  | [] => []
  | draft :: rest => start :: onsets (start + draft.duration) rest

theorem Draft.sum_append (f : Draft → Nat) (ds es : List Draft) :
    Draft.sum f (ds ++ es) = Draft.sum f ds + Draft.sum f es := by
  induction ds with
  | nil => simp only [List.nil_append, Draft.sum, Nat.zero_add]
  | cons d ds ih => simp only [List.cons_append, Draft.sum, ih, Nat.add_assoc]

theorem Draft.length_onsets (start : Nat) (ds : List Draft) :
    (Draft.onsets start ds).length = ds.length := by
  induction ds generalizing start with
  | nil => rfl
  | cons d ds ih => simp only [Draft.onsets, List.length_cons, ih]

structure Staged where
  notes : List Draft
  rest : Nat
  deriving DecidableEq, Repr

def Staged.ticks (s : Staged) : Nat := Draft.sum Draft.duration s.notes + s.rest

end TextScore
