import TextScore.Binary64.Basic

/-! The tree of a score. Every item carries the offset of its first character in the text that
was read, so that a fault can point at it. -/
namespace TextScore

/-- What a key sounds. A placeholder takes the pitch of the key that invokes its template. -/
inductive Tone where
  | pitchClass (semitonesFromC : Nat)
  | placeholder
  deriving DecidableEq, Repr

/-- A key with its octave marks and accidentals summed up. -/
structure Key where
  offset : Nat
  tone : Tone
  octave : Int
  semitones : Int
  deriving DecidableEq, Repr

structure Chord where
  offset : Nat
  arpeggio : Bool
  keys : List Key
  deriving DecidableEq, Repr

/-- `(key=value)`; what keys and values mean is decided when the setting is performed. -/
structure Setting where
  offset : Nat
  key : String
  value : String
  deriving DecidableEq, Repr

inductive RangeKind where
  | octaveUp
  | octaveDown
  /-- So many notes in the time of two. -/
  | tuplet (size : Nat)
  | sustain
  /-- Plays a template once for each key of the body. -/
  | userRange (name : String)
  deriving DecidableEq, Repr

inductive Ornament where
  | staccato | fermata | sforzando | trill | pitchBend
  | crescendo (target : Nat)
  | decrescendo (target : Nat)
  deriving DecidableEq, Repr

inductive Item where
  | setting (setting : Setting)
  | range (offset : Nat) (kind : RangeKind) (body : List Item)
  | key (key : Key)
  | chord (chord : Chord)
  | ornament (offset : Nat) (kind : Ornament) (body : List Item)
  | tie (offset : Nat)
  /-- A point of a pitch-bend curve. -/
  | breakpoint (offset : Nat) (value : Binary64)
  /-- Grace notes before a key, a chord, an ornament or a tie. -/
  | graced (offset : Nat) (graces : List Item) (main : Item)
  | group (offset : Nat) (id : Nat) (body : List Item)
  | groupRef (offset : Nat) (id : Nat)
  /-- Branches that sound together; the first one stays on the timeline it stands on. -/
  | parallel (offset : Nat) (branches : List (List Item))
  | emoji (offset : Nat) (symbol : String)
  | rest (offset : Nat)

def Item.offset : Item → Nat
  | .setting s => s.offset
  | .key k => k.offset
  | .chord c => c.offset
  | .range offset .. | .ornament offset .. | .tie offset | .breakpoint offset _
  | .graced offset .. | .group offset .. | .groupRef offset _ | .parallel offset _
  | .emoji offset _ | .rest offset => offset

/-- The ending of a first pass, and that of the second pass. -/
inductive Volta where
  | prima | seconda
  deriving DecidableEq, Repr

/-- What stands at the top level of a score. -/
inductive Node where
  | global (offset : Nat) (key value : String)
  /-- Starts a timeline of a channel, or resumes the latest one it has. -/
  | channel (offset : Nat) (id : Nat) (resume : Bool)
  | define (offset : Nat) (name : String) (template : List Item)
  | repeatOpen (offset : Nat)
  /-- Without a count the repeated part sounds twice. -/
  | repeatClose (offset : Nat) (count : Option Nat)
  | volta (offset : Nat) (ending : Volta)
  | declareEmoji (offset : Nat) (symbol : String) (setting : Setting)
  | item (item : Item)

def Node.isItem : Node → Bool
  | .item _ => true
  | _ => false

def Node.offset : Node → Nat
  | .item i => i.offset
  | .global offset .. | .channel offset .. | .define offset .. | .repeatOpen offset
  | .repeatClose offset _ | .volta offset _ | .declareEmoji offset .. => offset

end TextScore
