import TextScore.Text.Numeral

/-! Command line options. Anything that does not begin with a dash is notation. A value is the rest
of its word or the next word, which must not look like an option; no option is given twice. -/
namespace TextScore.Command

structure Options where
  words : List String := []
  file : Option String := none
  output : Option String := none
  gas : Option Nat := none
  timeline : Bool := false

/-- What a command line asks for. -/
inductive Request where
  | compile (options : Options)
  | help
  | version
  | misuse

inductive Switch where
  | file | output | gas | timeline | help | version
  deriving DecidableEq, Repr

namespace Switch

def ofName? : String → Option Switch
  | "file" => some file
  | "output" => some output
  | "gas" => some gas
  | "timeline" => some timeline
  | "help" => some help
  | "version" => some version
  | _ => none

def ofLetter? : Char → Option Switch
  | 'f' => some file
  | 'o' => some output
  | 'h' => some help
  | 'V' => some version
  | _ => none

def takesValue : Switch → Bool
  | file | output | gas => true
  | timeline | help | version => false

end Switch

namespace Options

/-- Keeps the value of a switch, unless it has one or the value is none. -/
def keep? (o : Options) (switch : Switch) (value : String) : Option Options :=
  match switch with
  | .file => if o.file.isNone ∧ value ≠ "" then some { o with file := some value } else none
  | .output => if o.output.isNone ∧ value ≠ "" then some { o with output := some value } else none
  | .gas =>
    if o.gas.isNone then
      (Text.natural? 18446744073709551615 value).map fun n => { o with gas := some n }
    else none
  | _ => none

/-- Notation comes from the words or from a file, not from both. -/
def request (o : Options) : Request :=
  if o.file.isSome ∧ o.words ≠ [] then .misuse else .compile o

end Options

def looksLikeSwitch (word : String) : Bool :=
  match word.toList with
  | '-' :: _ :: _ => true
  | _ => false

/-- A switch by its name, with the value after an equals sign. -/
def named? (text : List Char) : Option (Switch × Option String) :=
  let value := match text.dropWhile (· ≠ '=') with
    | [] => none
    | _ :: value => some (String.ofList value)
  (Switch.ofName? (String.ofList (text.takeWhile (· ≠ '=')))).map fun switch => (switch, value)

/-- A switch by its letter. The rest of the word is its value, with or without an equals sign. -/
def lettered? (letter : Char) (rest : List Char) : Option (Switch × Option String) :=
  (Switch.ofLetter? letter).map fun switch =>
    if switch.takesValue then match rest with
      | [] => (switch, none)
      | '=' :: value => (switch, some (String.ofList value))
      | value => (switch, some (String.ofList value))
    else (switch, none)

def switch? (word : String) : Option (Switch × Option String) :=
  match word.toList with
  | '-' :: '-' :: name => named? name
  | '-' :: letter :: rest => lettered? letter rest
  | _ => none

/-- Reads a command line; after two dashes all words are notation. -/
def read (o : Options) : List String → Request
  | [] => o.request
  | word :: rest =>
    if word = "--" then { o with words := o.words ++ rest }.request
    else if !looksLikeSwitch word then read { o with words := o.words ++ [word] } rest
    else match switch? word, rest with
      | some (.help, none), _ => .help
      | some (.version, none), _ => .version
      | some (.timeline, none), rest =>
        if o.timeline then .misuse else read { o with timeline := true } rest
      | some (switch, some value), rest => match o.keep? switch value with
        | some o => read o rest
        | none => .misuse
      | some (switch, none), value :: rest =>
        if looksLikeSwitch value then .misuse
        else match o.keep? switch value with
          | some o => read o rest
          | none => .misuse
      | _, _ => .misuse

end TextScore.Command
