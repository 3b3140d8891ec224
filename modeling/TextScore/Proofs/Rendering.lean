import TextScore.Proofs.Grammar

/-! Scores as text. Where a score may be spelled in several ways the spelling says which way is taken;
siblings stand one blank apart. -/
namespace TextScore
open Score

/-- How the signs of a score that have no text of their own are spelled. -/
structure Spelling where
  letter : (pitchClass : Nat) → Char
  tie : Char
  rest : Char
  decimal : Binary64 → List Char
  letter_class : ∀ n ≤ 11, Pitch.class? (letter n) = some n
  tie_eq : tie = '~' ∨ tie = 'ㅡ'
  rest_eq : rest = '_' ∨ rest = 'ㅇ'
  decimal_spells : ∀ {value text}, Spells text value → Spells (decimal value) value

open Classical in
/-- Latin letters for notes, and for each breakpoint some text that spells it. -/
noncomputable def Spelling.latin : Spelling where
  letter n := ['c', 'C', 'd', 'D', 'e', 'f', 'F', 'g', 'G', 'a', 'A', 'b'].getD n 'x'
  tie := '~'
  rest := '_'
  decimal value := if spelled : ∃ text, Spells text value then spelled.choose else []
  letter_class := by decide
  tie_eq := .inl rfl
  rest_eq := .inl rfl
  decimal_spells {value text} spells := by
    have spelled : ∃ text, Spells text value := ⟨text, spells⟩
    rw [dif_pos spelled]
    exact spelled.choose_spec

/-- Texts one blank apart. -/
def spaced (texts : List (List Char)) : List Char := [' '].intercalate texts

def digits (n : Nat) : List Char := Nat.toDigits 10 n

/-- A mark as often as a number says, another one if the number is negative. -/
def marks (up down : Char) (n : Int) : List Char :=
  if 0 ≤ n then List.replicate n.toNat up else List.replicate (-n).toNat down

def Tone.render (sp : Spelling) : Tone → Char
  | .pitchClass n => sp.letter n
  | .placeholder => 'x'

def Key.render (sp : Spelling) (k : Key) : List Char :=
  marks '^' 'v' k.octave ++ k.tone.render sp :: marks '+' '-' k.semitones

def Chord.render (sp : Spelling) (c : Chord) : List Char :=
  '[' :: (if c.arpeggio then ['|'] else []) ++ spaced (c.keys.map (Key.render sp)) ++ [']']

def Setting.render (s : Setting) : List Char :=
  '(' :: s.key.toList ++ '=' :: s.value.toList ++ [')']

/-- Everything in front of the body of a range. -/
def RangeKind.opening : RangeKind → List Char
  | .octaveUp => ['(', '^']
  | .octaveDown => ['(', 'v']
  | .tuplet size => '(' :: digits size
  | .sustain => ['(', 's']
  | .userRange name => ['\x7b', '\x7b'] ++ name.toList ++ ['\x7d', '\x7d', ' ', '(']

def Ornament.mark : Ornament → Char
  | .staccato => '.'
  | .fermata => '~'
  | .sforzando => '!'
  | .trill => 't'
  | .pitchBend => 'p'
  | .crescendo _ => '+'
  | .decrescendo _ => '-'

/-- Everything after the body of an ornament. -/
def Ornament.closing : Ornament → List Char
  | .crescendo target | .decrescendo target => ' ' :: digits target ++ ['>']
  | _ => ['>']

mutual

def Item.render (sp : Spelling) : Item → List Char
  | .setting s => s.render
  | .range _ kind body => kind.opening ++ spaced (renderAll sp body) ++ [')']
  | .key k => k.render sp
  | .chord c => c.render sp
  | .ornament _ kind body =>
    ['<', kind.mark, ' '] ++ spaced (renderAll sp body) ++ kind.closing
  | .tie _ => [sp.tie]
  | .breakpoint _ value => '(' :: sp.decimal value ++ [')']
  | .graced _ graces main => ['[', '>'] ++ spaced (renderAll sp graces) ++ ']' :: main.render sp
  | .group _ id body => '\x7b' :: digits id ++ ' ' :: spaced (renderAll sp body) ++ ['\x7d']
  | .groupRef _ id => ['\x7b', '='] ++ digits id ++ ['\x7d']
  | .parallel _ branches =>
    ['[', '['] ++ [' ', '|', ' '].intercalate (renderBranches sp branches) ++ [']', ']']
  | .emoji _ symbol => '(' :: symbol.toList ++ [')']
  | .rest _ => [sp.rest]

def renderAll (sp : Spelling) : List Item → List (List Char)
  | [] => []
  | item :: items => item.render sp :: renderAll sp items

def renderBranches (sp : Spelling) : List (List Item) → List (List Char)
  | [] => []
  | branch :: branches => spaced (renderAll sp branch) :: renderBranches sp branches

end

theorem renderAll_eq (sp : Spelling) (items : List Item) :
    renderAll sp items = items.map (Item.render sp) := by
  induction items with
  | nil => rfl
  | cons item items ih => rw [renderAll, ih, List.map_cons]

theorem renderBranches_eq (sp : Spelling) (branches : List (List Item)) :
    renderBranches sp branches = branches.map fun branch => spaced (branch.map (Item.render sp)) := by
  induction branches with
  | nil => rfl
  | cons branch branches ih => rw [renderBranches, ih, renderAll_eq, List.map_cons]

def Volta.digit : Volta → Char
  | .prima => '1'
  | .seconda => '2'

def Node.render (sp : Spelling) : Node → List Char
  | .global _ key value => ['(', '('] ++ key.toList ++ '=' :: value.toList ++ [')', ')']
  | .channel _ id resume => '#' :: (if resume then ['~'] else []) ++ digits id
  | .define _ name template => ['\x7b', '\x7b'] ++ name.toList ++ ['\x7d', '\x7d', ' ', '\x7b'] ++
    spaced (template.map (Item.render sp)) ++ ['\x7d']
  | .repeatOpen _ => ['|', ':']
  | .repeatClose _ count => [':', '|'] ++ count.elim [] digits
  | .volta _ ending => ['/', ending.digit]
  | .declareEmoji _ symbol setting =>
    ['(', '('] ++ symbol.toList ++ ['=', ' '] ++ setting.render ++ [' ', ')', ')']
  | .item i => i.render sp

/-- The text of a score. -/
def Score.render (sp : Spelling) (score : List Node) : List Char :=
  spaced (score.map (Node.render sp))

end TextScore
