import TextScore.Settings.Basic
import TextScore.Yaml.Node

/-! Reading settings: a mapping of which only the gas budget matters. -/
namespace TextScore.Settings

def inRadix? (radix : Nat) (text : List Char) : Option Nat :=
  if text.isEmpty then none
  else text.foldlM (fun n c =>
    ((Yaml.Scan.hexDigit? c).filter (· < radix)).map (radix * n + ·)) 0

/-- A whole number. Hexadecimal, octal and binary numbers have a mark in front; a decimal one with
a leading zero is a string. -/
def unsigned? (text : List Char) : Option Nat :=
  let digits := match text with
    | '+' :: rest => rest
    | rest => rest
  match digits with
  | '0' :: 'x' :: rest => inRadix? 16 rest
  | '0' :: 'o' :: rest => inRadix? 8 rest
  | '0' :: 'b' :: rest => inRadix? 2 rest
  | ['0'] => some 0
  | '0' :: _ => none
  | _ => inRadix? 10 digits

def greatestGas : Nat := 18446744073709551615

/-- Quotes make a string; a plain text may be a number, whatever its tag, and so may a literal block
with the tag of whole numbers. -/
def mayBeNumber (s : Yaml.Scalar) : Bool :=
  s.style = .plain || s.style = .literal && s.tag = some "tag:yaml.org,2002:int".toList

def gas? (s : Yaml.Scalar) : Option Nat :=
  if mayBeNumber s then (unsigned? s.text).filter (· ≤ greatestGas) else none

/-- Unknown keys are ignored, but each key is a scalar. A budget that is no number or is given twice
spoils the whole. -/
def ofDocument? (document : Yaml.Document) : Option Settings :=
  match document.root with
  | none => some {}
  | some (.scalar s) => if s.isEmpty then some {} else none
  | some (.mapping entries) => do
    let keyed ← entries.mapM fun (key, value) => return ((← document.scalar? key).text, value)
    match keyed.filter fun (key, _) => key = "gas".toList with
    | [] => return {}
    | [(_, value)] => return { gas := ← (document.scalar? value).bind gas? }
    | _ => none
  | some _ => none

def ofYaml? (text : String) : Option Settings := do ofDocument? (← Yaml.Document.ofText? text)

end TextScore.Settings
