import TextScore.Error

/-! Comments. `/=` hides the rest of its line and `=/` hides everything before it on its line.
What is left keeps the offset each character had, so that a place in the stripped text can be
shown in the source. -/
namespace TextScore.Text

/-- Source offsets of the characters of a text, then that of its end. -/
abbrev OffsetMap := Array Nat

/-- Offsets past the end belong to the last entry; an empty map changes nothing. -/
def OffsetMap.source (map : OffsetMap) (offset : Nat) : Nat :=
  (map[offset]?.or map.back?).getD offset

/-- A character and its offset in the source. -/
abbrev Placed := Char × Nat

/-- What follows the last `=/` of a line, if it has one. -/
def afterOpener? : List Placed → Option (List Placed)
  | a :: b :: rest =>
    (afterOpener? (b :: rest)).or (if a.1 = '=' ∧ b.1 = '/' then some rest else none)
  | _ => none

/-- What precedes the first `/=` of a line. -/
def beforeCloser : List Placed → List Placed
  | a :: b :: rest => if a.1 = '/' ∧ b.1 = '=' then [] else a :: beforeCloser (b :: rest)
  | line => line

theorem beforeCloser_isPrefix (line : List Placed) : beforeCloser line <+: line := by
  fun_induction beforeCloser line with
  | case1 => exact List.nil_prefix
  | case2 a b rest _ ih => exact List.cons_prefix_cons.mpr ⟨rfl, ih⟩
  | case3 => exact List.prefix_refl _

theorem isSuffix_of_afterOpener? {line rest : List Placed} (h : afterOpener? line = some rest) :
    rest <:+ line := by
  induction line with
  | nil => cases h
  | cons a tail ih =>
    cases tail with
    | nil => cases h
    | cons b more =>
      simp only [afterOpener?, Option.or_eq_some_iff] at h
      rcases h with later | ⟨_, here⟩
      · exact (ih later).trans (List.suffix_cons a _)
      · split at here
        · cases here
          exact (List.suffix_cons b _).trans (List.suffix_cons a _)
        · cases here

def stripLine (line : List Placed) : List Placed :=
  beforeCloser ((afterOpener? line).getD line)

theorem stripLine_sublist (line : List Placed) : (stripLine line).Sublist line := by
  refine (beforeCloser_isPrefix _).sublist.trans ?_
  cases h : afterOpener? line with
  | none => exact List.Sublist.refl _
  | some rest => exact (isSuffix_of_afterOpener? h).sublist

def stripLines (text : List Placed) : List Placed :=
  let line := text.takeWhile (·.1 ≠ '\n')
  match _cut : text.dropWhile (·.1 ≠ '\n') with
  | [] => stripLine line
  | newline :: rest => stripLine line ++ newline :: stripLines rest
termination_by text.length
decreasing_by
  have := (List.dropWhile_sublist (l := text) (·.1 ≠ '\n')).length_le
  rw [_cut] at this
  simp only [List.length_cons] at this
  omega

structure Stripped where
  kept : List Placed
  sourceLength : Nat

def strip (source : List Char) : Stripped := ⟨stripLines source.zipIdx, source.length⟩

namespace Stripped

def text (s : Stripped) : List Char := s.kept.map Prod.fst

def map (s : Stripped) : OffsetMap := (s.kept.map Prod.snd ++ [s.sourceLength]).toArray

def sourceOffset (s : Stripped) (offset : Nat) : Nat := s.map.source offset

end Stripped
end Text

open Text (OffsetMap)

def Fault.remap (map : OffsetMap) (fault : Fault) : Fault :=
  { fault with offset := map.source fault.offset }

def Diagnostic.remap (map : OffsetMap) (d : Diagnostic) : Diagnostic :=
  { d with offset := map.source d.offset }

end TextScore
