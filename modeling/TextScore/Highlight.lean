import TextScore.Binary64.Shortest
import TextScore.Session.Basic
import TextScore.Tempo

/-! Highlights: when each note sounds, and where in the score it stands. -/
namespace TextScore

structure Highlight where
  offset : Nat
  startMs : Binary64
  endMs : Binary64
  deriving DecidableEq, Repr

namespace Highlight

def ofNote (changes : List (Nat × Binary64)) (n : Note) : Highlight :=
  ⟨n.offset, Tempo.ms changes n.start, Tempo.ms changes (n.start + n.duration)⟩

def precedes (a b : Highlight) : Bool :=
  a.startMs.orderKey < b.startMs.orderKey ∨
    a.startMs.orderKey = b.startMs.orderKey ∧ a.offset ≤ b.offset

/-- By start, then by offset; otherwise in the order of the timelines and their logs. -/
def ofArena (arena : Arena) (conductor : Conductor) : List Highlight :=
  let notes := arena.timelines.toList.flatMap Timeline.notes
  (notes.map (ofNote conductor.tempos.toList)).mergeSort precedes

/-- The decimal point stands after so many digits; from 0.00001 up to below 10^16 a number is
written with a point only, and else with an exponent and its sign. -/
def writeDigits (digits : List Char) (point : Int) : List Char :=
  if -5 < point ∧ point ≤ 16 then
    if point ≤ 0 then ['0', '.'] ++ List.replicate point.natAbs '0' ++ digits
    else if digits.length ≤ point.toNat then
      digits ++ List.replicate (point.toNat - digits.length) '0' ++ ['.', '0']
    else digits.take point.toNat ++ ['.'] ++ digits.drop point.toNat
  else
    let mantissa := match digits with
      | first :: rest => if rest.isEmpty then [first] else first :: '.' :: rest
      | [] => []
    let sign := if point < 1 then '-' else '+'
    mantissa ++ ['e', sign] ++ (point - 1).natAbs.repr.toList

/-- The shortest digits that read back; what is not finite has no JSON number. -/
def jsonNumber (x : Binary64) : String :=
  match x with
  | .finite negative mantissa exponent =>
    let digits := if mantissa = 0 then ['0', '.', '0'] else
      let d := Binary64.shortest mantissa exponent
      let written := d.digits.repr.toList
      writeDigits written (Int.ofNat written.length + d.exponent)
    String.ofList (if negative then '-' :: digits else digits)
  | _ => "null"

def jsonLines (h : Highlight) : String :=
  "  \x7b\n    \"offset\": " ++ h.offset.repr ++ ",\n    \"start_ms\": " ++ jsonNumber h.startMs ++
    ",\n    \"end_ms\": " ++ jsonNumber h.endMs ++ "\n  \x7d"

/-- A JSON array, indented by two blanks. -/
def json (highlights : List Highlight) : String :=
  if highlights.isEmpty then "[]"
  else "[\n" ++ String.intercalate ",\n" (highlights.map jsonLines) ++ "\n]"

end Highlight
end TextScore
