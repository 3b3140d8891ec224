import TextScore.Session.Basic
import TextScore.Text.Decimal

/-! What settings mean. Local ones change the playing state of a timeline; global ones go to the
conductor at the cursor of the timeline that is active, or change the length of fermatas. -/
namespace TextScore.Session

/-- A number that fits a MIDI data byte. -/
def dataByte? (text : String) : Option Nat := Text.natural? 127 text

/-- The parts before and after the first slash. -/
def splitAtSlash? (text : String) : Option (String × String) :=
  match text.toList.dropWhile (· ≠ '/') with
  | [] => none
  | _ :: rest => some (String.ofList (text.toList.takeWhile (· ≠ '/')), String.ofList rest)

def octave? (text : String) : Option Int :=
  (Text.integer? 2147483647 text).filter fun n => -1 ≤ n ∧ n ≤ 9

def transpose? (text : String) : Option Int :=
  (Text.integer? 2147483647 text).filter fun n => n.natAbs ≤ 127

/-- The longest note is 64 beats. -/
def quantization? (text : String) : Option Nat :=
  (Duration.ofText? text).filter fun q => 1 ≤ q ∧ q ≤ 64 * Duration.ticksPerBeat

/-- A program, and a bank after a slash. -/
def instrument? (text : String) : Option (Nat × Option Nat) :=
  match splitAtSlash? text with
  | none => (dataByte? text).map fun program => (program, none)
  | some (program, bank) => do
    let program ← dataByte? program
    let bank ← dataByte? bank
    return (program, some bank)

def sustainController : Nat := 64

/-- What a setting does to the timeline it stands on. -/
def settingChange (t : Timeline) (key value : String) : Except Cause (Timeline → Timeline) :=
  let ofOption {α : Type} (read : Option α) (change : α → Timeline → Timeline) :=
    match read with
    | some a => Except.ok (change a)
    | none => Except.error (Cause.malformedSetting key value)
  match key with
  | "o" => ofOption (octave? value) fun o t => { t with state := { t.state with octave := o } }
  | "p" => ofOption (instrument? value) fun (program, bank) => Timeline.setInstrument program bank
  | "q" =>
    if t.inTuplet then .error .quantizationInTuplet
    else ofOption (quantization? value) fun q t =>
      { t with state := { t.state with quantization := q } }
  | "s" => ofOption (dataByte? value) fun pedal => Timeline.setController sustainController pedal
  | "t" => ofOption (transpose? value) fun n t =>
    { t with state := { t.state with transpose := n } }
  | "v" => ofOption (dataByte? value) fun v t => { t with state := { t.state with velocity := v } }
  | _ => .error (.unknownSetting key)

def applySetting (here : TimelineId) (s : Setting) (offset : Nat) : Play Unit := do
  match settingChange (← timeline here) s.key s.value with
  | .ok change => adjust here change
  | .error cause => Step.failAt offset cause

/-- A finite number of beats per minute above zero. -/
def bpm? (text : String) : Option Binary64 :=
  (Text.decimal? text).filter (·.isPositive)

def isPowerOfTwo (n : Nat) : Bool := n ≠ 0 ∧ n = 1 <<< n.log2

/-- Beats in a bar over the kind of note that beats, which is a power of two. -/
def timeSignature? (text : String) : Option (Nat × Nat) := do
  let (numerator, denominator) ← splitAtSlash? text
  let numerator ← (Text.natural? 255 numerator).filter (0 < ·)
  let denominator ← (Text.natural? 255 denominator).filter isPowerOfTwo
  return (numerator, denominator)

def fermata? (text : String) : Option Binary64 :=
  (Text.decimal? text).filter (·.isPositiveUpTo 16)

/-- An event of the conductor at the cursor of the active timeline, at the start if there is
none. -/
def conduct (active : Option TimelineId) (offset : Nat) (event : Conductor → Conductor) :
    Play Unit := do
  let position ← match active with
    | some here => pure (← timeline here).position
    | none => pure 0
  onConductor (Conductor.moveTo offset position)
  modify fun s => { s with conductor := event s.conductor }

def globalSetting (active : Option TimelineId) (offset : Nat) (key value : String) :
    Play Unit := do
  let malformed {α : Type} : Play α := Step.failAt offset (.malformedGlobal key value)
  match key with
  | "bpm" => match bpm? value with
    | some bpm => conduct active offset (Conductor.setTempo bpm)
    | none => malformed
  | "time-sig" => match timeSignature? value with
    | some (numerator, denominator) =>
      conduct active offset (Conductor.setTimeSignature numerator denominator)
    | none => malformed
  | "fermata" => match fermata? value with
    | some factor => modify fun s => { s with fermata := factor }
    | none => malformed
  | _ => Step.failAt offset (.unknownGlobal key)

end TextScore.Session
