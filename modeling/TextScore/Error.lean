/-! What can go wrong with a score. A `Cause` is one reason; its wording and its kind are decided
here and nowhere else. A `Fault` places a cause at a character, and a `Diagnostic` is the text
that a reader of the score sees. -/
namespace TextScore

inductive ErrorKind where
  /-- The text does not match the grammar. -/
  | parse
  /-- A well-formed score that breaks a rule of performance. -/
  | semantic
  /-- An item stands where it has no meaning. -/
  | structural
  /-- The gas budget ran out. -/
  | resource
  deriving DecidableEq, Repr

def ErrorKind.name : ErrorKind → String
  | .parse => "Parse"
  | .semantic => "Semantic"
  | .structural => "Structural"
  | .resource => "Resource"

/-- A bracketed run of items, as named in messages. -/
inductive Enclosure where
  | range | group | definition | invocation
  deriving DecidableEq, Repr

def Enclosure.name : Enclosure → String
  | .range => "range"
  | .group => "group"
  | .definition => "user-defined range"
  | .invocation => "user-defined range invocation"

def Enclosure.closer : Enclosure → Char
  | .range | .invocation => ')'
  | .group | .definition => '\x7d'

inductive Direction where
  | crescendo | decrescendo
  deriving DecidableEq, Repr

def Direction.name : Direction → String
  | .crescendo => "crescendo"
  | .decrescendo => "decrescendo"

inductive Cause where
  -- grammar
  | unexpectedEnd
  | unexpectedCharacter (found : Char)
  | expectedCharacter (wanted : Char) (found : Option Char)
  | expectedWord (found : Option Char)
  | expectedDigits (found : Option Char)
  | expectedEmoji
  | numberTooLarge (digits : String)
  | malformedDecimal (text : String)
  | unknownRange (found : Option Char)
  | unknownOrnament (found : Option Char)
  | unclosed (what : Enclosure)
  | emptyBody (what : Enclosure)
  | unclosedParallel
  | uselessParallel
  | emptyBranch
  | unclosedGrace
  | unclosedChord
  | unclosedOrnament
  | emptyOrnament
  | targetOutOfRange
  -- definitions
  | groupRedeclared (id : Nat)
  | noSuchGroup (id : Nat)
  | userRangeRedefined (name : String)
  | noSuchUserRange (name : String)
  | emojiRedeclared (symbol : String)
  | noSuchEmoji (symbol : String)
  | nestedTooDeeply
  -- settings
  | malformedGlobal (key value : String)
  | unknownGlobal (key : String)
  | malformedSetting (key value : String)
  | unknownSetting (key : String)
  | quantizationInTuplet
  -- channels, repeats and the conductor
  | invalidChannel (id : Nat)
  | noSuchChannel (id : Nat)
  | repeatAlreadyOpen
  | repeatZeroTimes
  | primaVoltaPlayedOften
  | unexpectedPrimaVolta
  | duplicatePrimaVolta
  | unexpectedSecondaVolta
  | incompleteRepeat
  | conductorBehind
  -- notes
  | songTooLong
  | pitchOutOfRange
  | emptyChord
  | emptyGrace
  | graceOnTie
  | graceWithoutNote
  | graceTooLong
  | graceRangeKind
  | graceItem
  | invokedWithoutKey (name : String)
  | malformedTie
  | arpeggioTooLong
  | tupletInTuplet
  | tupletTooShort (size : Nat)
  | uselessDynamics (direction : Direction) (start target : Nat)
  | dynamicsWithoutNote
  | branchesDiffer (expected found : Nat)
  | childAheadOfParent
  -- items without a meaning where they stand
  | unresolvedPlaceholder
  | strayBreakpoint
  -- what a file can hold
  | tooManyTracks
  -- gas
  | exhausted
  deriving DecidableEq, Repr

namespace Cause

def kind : Cause → ErrorKind
  | unexpectedEnd | unexpectedCharacter _ | expectedCharacter .. | expectedWord _
  | expectedDigits _ | expectedEmoji | numberTooLarge _ | malformedDecimal _ | unknownRange _
  | unknownOrnament _ | unclosed _ | emptyBody _ | unclosedParallel | uselessParallel
  | emptyBranch | unclosedGrace | unclosedChord | unclosedOrnament | emptyOrnament
  | targetOutOfRange => .parse
  | unresolvedPlaceholder | strayBreakpoint | tooManyTracks => .structural
  | exhausted => .resource
  | _ => .semantic

/-- How a message names the character it met. -/
def found : Option Char → String
  | some c => String.ofList ['\'', c, '\'']
  | none => "end of input"

def message : Cause → String
  | unexpectedEnd => "Unexpected end of input"
  | unexpectedCharacter c => "Unexpected character: " ++ c.toString
  | expectedCharacter wanted c => "Expected " ++ found (some wanted) ++ ", got " ++ found c
  | expectedWord c => "Expected a word, got " ++ found c
  | expectedDigits c => "Expected digits, got " ++ found c
  | expectedEmoji => "Expected an emoji"
  | numberTooLarge digits => "Number too large: " ++ digits
  | malformedDecimal text => "Malformed decimal: " ++ text
  | unknownRange c => "Unknown range type: " ++ found c
  | unknownOrnament c => "Unknown diacritic: " ++ found c
  | unclosed what => "Unclosed " ++ what.name ++ ": expected " ++ found (some what.closer)
  | emptyBody what => "Empty " ++ what.name
  | unclosedParallel => "Unclosed parallelization"
  | uselessParallel => "Useless parallel"
  | emptyBranch => "Empty parallel branch"
  | unclosedGrace => "Unclosed grace"
  | unclosedChord => "Unclosed chord"
  | unclosedOrnament => "Unclosed diacritic"
  | emptyOrnament => "Empty diacritic"
  | targetOutOfRange => "Velocity out of range"
  | groupRedeclared id => "Already declared group: " ++ id.repr
  | noSuchGroup id => "No such group: " ++ id.repr
  | userRangeRedefined name => "Already defined UDR: " ++ name
  | noSuchUserRange name => "No such UDR: " ++ name
  | emojiRedeclared symbol => "Already declared emoji: " ++ symbol
  | noSuchEmoji symbol => "No such emoji: " ++ symbol
  | nestedTooDeeply => "Too many nested references"
  | malformedGlobal key value =>
    "Malformed global configuration: ((" ++ key ++ "=" ++ value ++ "))"
  | unknownGlobal key => "Unknown global configuration: " ++ key
  | malformedSetting key value => "Malformed local configuration: (" ++ key ++ "=" ++ value ++ ")"
  | unknownSetting key => "Unknown local configuration: " ++ key
  | quantizationInTuplet => "Quantization can not change inside a tuplet"
  | invalidChannel id => "Invalid channel ID: " ++ id.repr
  | noSuchChannel id => "No such channel: " ++ id.repr
  | repeatAlreadyOpen => "Already opened repeat"
  | repeatZeroTimes => "Malformed repeat: 0"
  | primaVoltaPlayedOften => "Prima volta can exist only if the repeat is played twice"
  | unexpectedPrimaVolta => "Unexpected prima volta"
  | duplicatePrimaVolta => "Duplicated prima volta"
  | unexpectedSecondaVolta => "Unexpected seconda volta"
  | incompleteRepeat => "Incomplete repeat"
  | conductorBehind => "Global variables can not intersect each other"
  | songTooLong => "Song is too long"
  | pitchOutOfRange => "Pitch out of range"
  | emptyChord => "Empty chord"
  | emptyGrace => "Empty grace"
  | graceOnTie => "Grace notes can not decorate a tie"
  | graceWithoutNote => "Grace notes have nothing to decorate"
  | graceTooLong => "Grace notes are longer than the note"
  | graceRangeKind => "Only octave ranges can appear in grace notes"
  | graceItem => "Grace notes can only contain keys and chords"
  | invokedWithoutKey name => "User range " ++ name ++ " can only be invoked with single keys"
  | malformedTie => "Malformed tie"
  | arpeggioTooLong => "Arpeggio is longer than its chord"
  | tupletInTuplet => "Tuplets can not be folded"
  | tupletTooShort size => "Quantization is too short for a " ++ size.repr ++ "-tuplet"
  | uselessDynamics direction start target =>
    "Useless " ++ direction.name ++ ": " ++ start.repr ++ " to " ++ target.repr
  | dynamicsWithoutNote => "Dynamics without any note"
  | branchesDiffer expected found =>
    "Parallel branches differ in length: " ++ expected.repr ++ " and " ++ found.repr ++ " ticks"
  | childAheadOfParent => "Child can not be longer than its parent"
  | unresolvedPlaceholder => "Unresolved placeholder pitch"
  | strayBreakpoint => "Breakpoint outside of a pitch bend"
  | tooManyTracks => "Failed to write MIDI: track count exceeds 16 bit range"
  | exhausted => "Not enough gas"

end Cause

/-- A cause at a character offset of the text that was read. -/
structure Fault where
  cause : Cause
  offset : Nat
  deriving DecidableEq, Repr

structure Diagnostic where
  kind : ErrorKind
  message : String
  offset : Nat
  deriving DecidableEq, Repr

def Fault.diagnostic (fault : Fault) : Diagnostic :=
  ⟨fault.cause.kind, fault.cause.message, fault.offset⟩

namespace Diagnostic

/-- Running out of gas has one wording. -/
def ofKind (kind : ErrorKind) (message : String) (offset : Nat) : Diagnostic :=
  match kind with
  | .resource => (Fault.mk .exhausted offset).diagnostic
  | kind => ⟨kind, message, offset⟩

def display (d : Diagnostic) : String :=
  "#" ++ d.offset.repr ++ " " ++ d.kind.name ++ ": " ++ d.message

/-- Two lines: an arrow above the character, then thirty characters of the score from ten before
it, with line breaks shown as blanks. -/
def excerpt (d : Diagnostic) (source : String) : String :=
  let start := d.offset - 10
  let context := (source.toList.drop start).take 30
  let shown := context.map fun c => if c = '\n' ∨ c = '\r' then ' ' else c
  String.ofList (List.replicate (d.offset - start) ' ' ++ "↓ here\n".toList ++ shown)

end Diagnostic
end TextScore
