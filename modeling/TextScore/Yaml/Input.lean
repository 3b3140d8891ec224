import TextScore.Text.Numeral

/-! The unread part of a YAML text and where it begins. Lines and columns decide the structure of
a text, so that every step forward counts them. -/
namespace TextScore.Yaml

def isBreak (c : Char) : Bool := c ∈ ['\n', '\r', '\u0085', '\u2028', '\u2029']

def isBlank (c : Char) : Bool := c = ' ' || c = '\t'

/-- Words end before a blank, a line break and the end of the text. -/
def endsWord (next : Option Char) : Bool := next.all fun c => isBlank c || isBreak c

/-- Characters of anchors, of tag handles and of the names of directives. -/
def isNameChar (c : Char) : Bool := c.isAlphanum || c = '_' || c = '-'

/-- Control characters may stand nowhere, not even in a comment. -/
def isPrintable (c : Char) : Bool :=
  c ∈ ['\t', '\n', '\r', '\u0085'] || ' ' ≤ c && c ≤ '~' ||
    '\u00a0' ≤ c && c ≠ '\ufffe' && c ≠ '\uffff'

structure Input where
  rest : List Char
  index : Nat := 0
  line : Nat := 0
  column : Nat := 0

/-- Three equal characters at the start of a line begin or end a document. -/
def Input.atMark (input : Input) (c : Char) : Bool :=
  input.column = 0 && input.rest.take 3 = [c, c, c] && endsWord input.rest[3]?

def Input.atDocumentMark (input : Input) : Bool := input.atMark '-' || input.atMark '.'

abbrev Scan (α : Type) := StateT Input Option α

namespace Scan

def next : Scan (Option Char) := return (← get).rest.head?

def skip (count : Nat) : Scan Unit := modify fun input =>
  { input with
    rest := input.rest.drop count
    index := input.index + count
    column := input.column + count }

def takeWhile (p : Char → Bool) : Scan (List Char) := do
  let taken := (← get).rest.takeWhile p
  skip taken.length
  return taken

def expect (c : Char) : Scan Unit := do
  if (← next) = some c then skip 1 else failure

def newLine (width : Nat) : Scan Unit := modify fun input =>
  { rest := input.rest.drop width, index := input.index + width, line := input.line + 1 }

/-- Reads a line break, if one is next. The line separator and the paragraph separator keep their
form. -/
def lineBreak : Scan (List Char) := do
  match (← get).rest with
  | '\r' :: '\n' :: _ => newLine 2; return ['\n']
  | c :: _ =>
    if isBreak c then
      newLine 1
      return [if c = '\u2028' ∨ c = '\u2029' then c else '\n']
    else return []
  | [] => return []

/-- Nothing but blanks and a comment may follow on the line. -/
def endOfLine : Scan Unit := do
  let _ ← takeWhile isBlank
  if (← next) = some '#' then
    let _ ← takeWhile fun c => !isBreak c
  if (← next).all isBreak then
    let _ ← lineBreak
  else failure

def hexDigit? (c : Char) : Option Nat :=
  if c.isDigit then some (c.toNat - '0'.toNat)
  else if 'a' ≤ c ∧ c ≤ 'f' then some (c.toNat - 'a'.toNat + 10)
  else if 'A' ≤ c ∧ c ≤ 'F' then some (c.toNat - 'A'.toNat + 10)
  else none

/-- A number of so many hexadecimal digits. -/
def hexadecimal (width : Nat) : Scan Nat := do
  let digits := (← get).rest.take width
  if digits.length < width then failure
  skip width
  digits.foldlM (fun n c => (hexDigit? c).map (16 * n + ·)) 0

end Scan
end TextScore.Yaml
