/-! Whole numbers as text: a run of ASCII digits, and a sign where one is allowed. -/
namespace TextScore.Text

/-- The value of a run of digits, most significant first. -/
def digitsValue (digits : List Char) : Nat :=
  digits.foldl (fun n c => 10 * n + (c.toNat - '0'.toNat)) 0

/-- A nonempty run of digits and nothing else. -/
def digits? (text : List Char) : Option Nat :=
  if text ≠ [] ∧ text.all Char.isDigit then some (digitsValue text) else none

/-- Splits off a leading sign and says whether it was a minus. -/
def sign : List Char → Bool × List Char
  | '+' :: rest => (false, rest)
  | '-' :: rest => (true, rest)
  | rest => (false, rest)

/-- Digits after an optional sign. -/
def signed? (text : List Char) : Option Int :=
  (digits? (sign text).2).map fun n => if (sign text).1 then -Int.ofNat n else Int.ofNat n

/-- A number from 0 to `bound`; a leading plus is allowed, a minus is not. -/
def natural? (bound : Nat) (text : String) : Option Nat :=
  let digits := match text.toList with
    | '+' :: rest => rest
    | rest => rest
  (digits? digits).filter (· ≤ bound)

/-- A number from `-bound - 1` to `bound`. -/
def integer? (bound : Nat) (text : String) : Option Int :=
  (signed? text.toList).filter fun n => -Int.ofNat bound - 1 ≤ n ∧ n ≤ Int.ofNat bound

end TextScore.Text
