import TextScore.Command.Options
import TextScore.Compiler
import TextScore.Settings.Reader

/-! The command: compiles notation to a MIDI file, or prints its highlights. Files are reached
through operations that are given to it, so that it runs on any file system. -/
namespace TextScore.Command

inductive FileError where
  | notFound
  | isDirectory
  | notDirectory
  | nameTooLong
  | noSpace
  | other (text : String)
  deriving DecidableEq, Repr

def FileError.message : FileError → String
  | notFound => "No such file or directory (os error 2)"
  | isDirectory => "Is a directory (os error 21)"
  | notDirectory => "Not a directory (os error 20)"
  | nameTooLong => "File name too long (os error 36)"
  | noSpace => "No space left on device (os error 28)"
  | other text => text

structure Files (m : Type → Type) where
  read : (path : String) → m (Except FileError String)
  write : (path : String) → (content : List UInt8) → m (Except FileError Unit)
  /-- The settings file of the user, if there is one. -/
  settings : m (Option String)

structure Outcome where
  exit : Nat
  stdout : String := ""
  stderr : String := ""
  log : List String := []

def lines (ls : List String) : String := String.join (ls.map (· ++ "\n"))

def failure (messages : List String) : Outcome := { exit := 1, stderr := lines messages }

def usage : String :=
  lines ["Compile text music notation to MIDI", "",
    "Usage: scorch [OPTIONS] [NOTATION]...", "",
    "  -f, --file <FILE>      Read notation from a file instead",
    "  -o, --output <OUTPUT>  Output MIDI file [default: output.mid]",
    "      --gas <GAS>        Gas budget (overrides ~/.scorch/config.yaml)",
    "      --timeline         Print note timing as JSON instead of writing MIDI",
    "  -h, --help             Print help",
    "  -V, --version          Print version"]

def versionLine : String := lines ["scorch 0.1.0"]

def misuse : Outcome := { exit := 2, stderr := usage }

def report (source : String) (fault : Fault) : Outcome :=
  failure [fault.diagnostic.display, fault.diagnostic.excerpt source]

variable {m : Type → Type} [Monad m]

/-- The notation: a file, or the words with a blank between them. -/
def source (files : Files m) (o : Options) : m (Except Outcome String) := do
  match o.file with
  | some path => match ← files.read path with
    | .ok text => return .ok text
    | .error e => return .error (failure ["failed to read " ++ path ++ ": " ++ e.message])
  | none =>
    if o.words.isEmpty then return .error (failure ["nothing to compile: pass notation or --file"])
    else return .ok (String.intercalate " " o.words)

/-- A budget on the command line goes before that of the settings file. -/
def settings (files : Files m) (o : Options) : m Settings := do
  let settings := ((← files.settings).bind Settings.ofYaml?).getD {}
  return { gas := o.gas.getD settings.gas }

def write (files : Files m) (path : String) (bytes : List UInt8) : m Outcome := do
  match ← files.write path bytes with
  | .ok () => return {
      exit := 0
      log := ["scorch: written bytes=" ++ bytes.length.repr ++ " output=" ++ path] }
  | .error e => return failure ["failed to write " ++ path ++ ": " ++ e.message]

def compile (files : Files m) (o : Options) : m Outcome := do
  match ← source files o with
  | .error outcome => return outcome
  | .ok source =>
    let settings ← settings files o
    if o.timeline then
      match Compiler.highlights settings source with
      | .ok highlights => return { exit := 0, stdout := lines [Highlight.json highlights] }
      | .error fault => return report source fault
    else match Compiler.midi settings source with
      | .ok bytes => write files (o.output.getD "output.mid") bytes
      | .error fault => return report source fault

def run (files : Files m) (args : List String) : m Outcome :=
  match read {} args with
  | .compile o => compile files o
  | .help => return { exit := 0, stdout := usage }
  | .version => return { exit := 0, stdout := versionLine }
  | .misuse => return misuse

end TextScore.Command
