import TextScore.Score.Item

/-! The grammar of scores as trees: which items stand where, and what their words, numbers and bodies
are like. -/
namespace TextScore

/-- Where an item stands. Inside an ornament fewer forms of items may stand than elsewhere, and
directly inside a pitch bend breakpoints besides. -/
inductive Site
  | anywhere | ornament | bend
  deriving DecidableEq, Repr

def Ornament.site : Ornament → Site
  | .pitchBend => .bend
  | _ => .ornament

namespace Score

def Word (s : String) : Prop := s.toList ≠ [] ∧ ∀ c ∈ s.toList, isWordChar c

def Symbol (s : String) : Prop := s.toList ≠ [] ∧ ∀ c ∈ s.toList, isEmoji c

instance (s : String) : Decidable (Word s) :=
  decidable_of_iff (s.toList ≠ [] ∧ s.toList.all isWordChar) (and_congr_right fun _ => List.all_eq_true)

instance (s : String) : Decidable (Symbol s) :=
  decidable_of_iff (s.toList ≠ [] ∧ s.toList.all isEmoji) (and_congr_right fun _ => List.all_eq_true)

/-- Text that spells the value of a breakpoint. -/
def Spells (text : List Char) (value : Binary64) : Prop :=
  text ≠ [] ∧ (∀ c ∈ text, isDecimalChar c) ∧ Text.decimal? (String.ofList text) = some value

end Score

open Score

def Key.Grammatical (k : Key) : Prop := ∀ n, k.tone = .pitchClass n → n ≤ 11

def Setting.Grammatical (s : Setting) : Prop := Word s.key ∧ Word s.value

instance (s : Setting) : Decidable s.Grammatical := inferInstanceAs (Decidable (_ ∧ _))

def RangeKind.Grammatical : RangeKind → Prop
  | .tuplet size => size = 3 ∨ size = 5 ∨ size = 7
  | .userRange name => Word name
  | _ => True

def Ornament.Grammatical : Ornament → Prop
  | .crescendo target | .decrescendo target => target ≤ 127
  | _ => True

/-- What graces are made of. -/
def Item.IsGrace : Item → Prop
  | .key _ | .chord _ | .range .. => True
  | _ => False

/-- What graces may stand before. -/
def Item.IsSound : Item → Prop
  | .key _ | .chord _ | .ornament .. | .tie _ => True
  | _ => False

inductive Item.Grammatical : Site → Item → Prop
  | setting {site : Site} {s : Setting} (words : s.Grammatical) : Grammatical site (.setting s)
  | range {site : Site} {offset : Nat} {kind : RangeKind} {body : List Item}
    (known : kind.Grammatical) (nonempty : body ≠ []) (items : ∀ i ∈ body, Grammatical .anywhere i) :
    Grammatical site (.range offset kind body)
  | key {site : Site} {k : Key} (known : k.Grammatical) : Grammatical site (.key k)
  | chord {site : Site} {c : Chord} (keys : ∀ k ∈ c.keys, k.Grammatical) :
    Grammatical site (.chord c)
  | ornament {site : Site} {offset : Nat} {kind : Ornament} {body : List Item}
    (known : kind.Grammatical) (nonempty : body ≠ []) (items : ∀ i ∈ body, Grammatical kind.site i) :
    Grammatical site (.ornament offset kind body)
  | tie {site : Site} {offset : Nat} : Grammatical site (.tie offset)
  | breakpoint {offset : Nat} {value : Binary64} (spelled : ∃ text, Spells text value) :
    Grammatical .bend (.breakpoint offset value)
  | graced {offset : Nat} {graces : List Item} {main : Item} (forms : ∀ i ∈ graces, i.IsGrace)
    (items : ∀ i ∈ graces, Grammatical .anywhere i) (sound : main.IsSound)
    (known : Grammatical .anywhere main) : Grammatical .anywhere (.graced offset graces main)
  | group {offset id : Nat} {body : List Item} (number : id ≤ Duration.greatest)
    (nonempty : body ≠ []) (items : ∀ i ∈ body, Grammatical .anywhere i) :
    Grammatical .anywhere (.group offset id body)
  | groupRef {site : Site} {offset id : Nat} (number : id ≤ Duration.greatest) :
    Grammatical site (.groupRef offset id)
  | parallel {offset : Nat} {branches : List (List Item)} (several : 2 ≤ branches.length)
    (nonempty : ∀ branch ∈ branches, branch ≠ [])
    (items : ∀ branch ∈ branches, ∀ i ∈ branch, Grammatical .anywhere i) :
    Grammatical .anywhere (.parallel offset branches)
  | emoji {offset : Nat} {symbol : String} (known : Symbol symbol) :
    Grammatical .anywhere (.emoji offset symbol)
  | rest {site : Site} {offset : Nat} : Grammatical site (.rest offset)

def Node.Grammatical : Node → Prop
  | .global _ key value => Word key ∧ Word value
  | .channel _ id _ => id ≤ Duration.greatest
  | .define _ name template => Word name ∧ template ≠ [] ∧
    ∀ i ∈ template, i.Grammatical .anywhere
  | .repeatClose _ count => ∀ n ∈ count, n ≤ Duration.greatest
  | .declareEmoji _ symbol setting => Symbol symbol ∧ setting.Grammatical
  | .item i => i.Grammatical .anywhere
  | .repeatOpen _ | .volta .. => True

def Key.placeless (k : Key) : Key := { k with offset := 0 }

def Chord.placeless (c : Chord) : Chord := ⟨0, c.arpeggio, c.keys.map Key.placeless⟩

def Setting.placeless (s : Setting) : Setting := { s with offset := 0 }

mutual

/-- The item without its place in a text. -/
def Item.placeless : Item → Item
  | .setting s => .setting s.placeless
  | .range _ kind body => .range 0 kind (allPlaceless body)
  | .key k => .key k.placeless
  | .chord c => .chord c.placeless
  | .ornament _ kind body => .ornament 0 kind (allPlaceless body)
  | .tie _ => .tie 0
  | .breakpoint _ value => .breakpoint 0 value
  | .graced _ graces main => .graced 0 (allPlaceless graces) main.placeless
  | .group _ id body => .group 0 id (allPlaceless body)
  | .groupRef _ id => .groupRef 0 id
  | .parallel _ branches => .parallel 0 (branchesPlaceless branches)
  | .emoji _ symbol => .emoji 0 symbol
  | .rest _ => .rest 0

def allPlaceless : List Item → List Item
  | [] => []
  | item :: items => item.placeless :: allPlaceless items

def branchesPlaceless : List (List Item) → List (List Item)
  | [] => []
  | branch :: branches => allPlaceless branch :: branchesPlaceless branches

end

theorem allPlaceless_eq (items : List Item) : allPlaceless items = items.map Item.placeless := by
  induction items with
  | nil => rfl
  | cons item items ih => rw [allPlaceless, ih, List.map_cons]

theorem branchesPlaceless_eq (branches : List (List Item)) :
    branchesPlaceless branches = branches.map (List.map Item.placeless) := by
  induction branches with
  | nil => rfl
  | cons branch branches ih => rw [branchesPlaceless, ih, allPlaceless_eq, List.map_cons]

def Node.placeless : Node → Node
  | .global _ key value => .global 0 key value
  | .channel _ id resume => .channel 0 id resume
  | .define _ name template => .define 0 name (template.map Item.placeless)
  | .repeatOpen _ => .repeatOpen 0
  | .repeatClose _ count => .repeatClose 0 count
  | .volta _ ending => .volta 0 ending
  | .declareEmoji _ symbol setting => .declareEmoji 0 symbol setting.placeless
  | .item i => .item i.placeless

end TextScore
