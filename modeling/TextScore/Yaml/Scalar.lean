import TextScore.Yaml.Input

/-! Scalars: plain, quoted and block texts. A text that goes on over several lines is folded: one
line break counts as a blank, and of several the first is dropped. -/
namespace TextScore.Yaml

inductive Style
  | plain | quoted | literal | folded
  deriving DecidableEq, Repr

/-- `tag` is the whole name of the type that was asked for. -/
structure Scalar where
  style : Style
  text : List Char
  tag : Option (List Char) := none
  deriving DecidableEq, Repr

/-- A scalar that is not written stands for nothing. -/
def Scalar.empty : Scalar := ⟨.plain, [], none⟩

def Scalar.isEmpty (s : Scalar) : Bool := s.style = .plain && s.text.isEmpty

namespace Scan

/-- What stands between two words of a scalar, and whether it holds a line break. -/
structure Gap where
  broken : Bool := false
  text : List Char := []

/-- Joins what lies between two lines: the first line break and the others. -/
def joint (first others : List Char) : List Char :=
  if first = ['\n'] then if others.isEmpty then [' '] else others else first ++ others

/-- Reads blanks and line breaks. Blanks around a line break do not count, and left of `indent` no
tab may stand. Here and below `limit` exceeds the number of characters left. -/
def gap (limit indent : Nat) (broken : Bool) (blanks first others : List Char) : Scan Gap :=
  match limit with
  | 0 => failure
  | limit + 1 => do
    let input ← get
    match input.rest with
    | c :: _ =>
      if isBlank c then
        if broken && c = '\t' && input.column < indent then failure
        skip 1
        gap limit indent broken (if broken then blanks else blanks ++ [c]) first others
      else if isBreak c then
        let found ← lineBreak
        if broken then gap limit indent true [] first (others ++ found)
        else gap limit indent true [] found []
      else return ⟨broken, if broken then joint first others else blanks⟩
    | [] => return ⟨broken, if broken then joint first others else blanks⟩

/-- In flow collections plain texts end before these. -/
def isFlowMark (c : Char) : Bool := c ∈ [',', '[', ']', '\x7b', '\x7d']

/-- A word of a plain text. Inside flow collections a colon may not touch a mark. -/
def plainWord? (inFlow : Bool) : List Char → Option (List Char)
  | [] => some []
  | c :: rest =>
    if isBlank c || isBreak c then some []
    else if inFlow && c = ':' && rest.head?.any fun c => isFlowMark c || c = '?' then none
    else if c = ':' && endsWord rest.head? || inFlow && isFlowMark c then some []
    else (plainWord? inFlow rest).map (c :: ·)

/-- Goes on with a plain text after a gap. The answer ends with the gap after the last word. -/
def plainWords (limit indent : Nat) (inFlow : Bool) (text : List Char) (before : Gap) :
    Scan (List Char × Gap) :=
  match limit with
  | 0 => failure
  | limit + 1 => do
    let input ← get
    if input.atDocumentMark || input.rest.head? = some '#' then return (text, before)
    let word ← plainWord? inFlow input.rest
    skip word.length
    if word.isEmpty then return (text, before)
    let text := text ++ before.text ++ word
    if (← next).all fun c => !(isBlank c || isBreak c) then return (text, {})
    let after ← gap limit indent false [] [] []
    if !inFlow && (← get).column < indent then return (text, after)
    plainWords limit indent inFlow text after

/-- A plain text and whether a line ended after it. Outside of flow collections its lines stand at
`indent` or deeper. -/
def plain (limit indent : Nat) (inFlow : Bool) : Scan (List Char × Bool) := do
  let (text, after) ← plainWords limit indent inFlow [] {}
  return (text, after.broken)

/-- The character that a backslash and a letter stand for. -/
def escape : Scan Char := do
  let some c ← next | failure
  skip 1
  match c with
  | '0' => return '\x00'
  | 'a' => return '\x07'
  | 'b' => return '\x08'
  | 't' => return '\t'
  | '\t' => return '\t'
  | 'n' => return '\n'
  | 'v' => return '\x0b'
  | 'f' => return '\x0c'
  | 'r' => return '\r'
  | 'e' => return '\x1b'
  | ' ' => return ' '
  | '"' => return '"'
  | '/' => return '/'
  | '\\' => return '\\'
  | 'N' => return '\u0085'
  | '_' => return '\u00a0'
  | 'L' => return '\u2028'
  | 'P' => return '\u2029'
  | _ =>
    let width ← if c = 'x' then pure 2 else if c = 'u' then pure 4
      else if c = 'U' then pure 8 else failure
    let code ← hexadecimal width
    if code.isValidChar then return Char.ofNat code else failure

/-- A word inside quotes, and whether an escaped line break ended it. A single quote is written
twice; between double quotes a backslash escapes. `read` holds the
characters so far, the last one first. -/
def quotedWord (limit : Nat) (quote : Char) (read : List Char) : Scan (List Char × Bool) :=
  match limit with
  | 0 => failure
  | limit + 1 => do
    match (← get).rest with
    | [] => return (read.reverse, false)
    | c :: rest =>
      if isBlank c || isBreak c then return (read.reverse, false)
      else if c = quote then
        if quote = '\'' ∧ rest.head? = some quote then
          skip 2
          quotedWord limit quote (quote :: read)
        else return (read.reverse, false)
      else if quote = '"' ∧ c = '\\' then
        skip 1
        if rest.head?.any isBreak then
          let _ ← lineBreak
          return (read.reverse, true)
        else
          let escaped ← escape
          quotedWord limit quote (escaped :: read)
      else
        skip 1
        quotedWord limit quote (c :: read)

def quotedWords (limit : Nat) (quote : Char) (text : List Char) : Scan (List Char) :=
  match limit with
  | 0 => failure
  | limit + 1 => do
    let input ← get
    if input.atDocumentMark || input.rest.isEmpty then failure
    let (word, broken) ← quotedWord (limit + 1) quote []
    if (← next) = some quote then
      skip 1
      return text ++ word
    let after ← gap (limit + 1) 0 broken [] [] []
    quotedWords limit quote (text ++ word ++ after.text)

/-- Reads from the opening quote to the closing one. -/
def quoted (limit : Nat) (quote : Char) : Scan (List Char) := do
  skip 1
  quotedWords limit quote []

/-- What a block text keeps of the line breaks at its end. -/
inductive Chomping
  | strip | clip | keep

def chomping? : Scan (Option Chomping) := do
  match ← next with
  | some '+' => skip 1; return some .keep
  | some '-' => skip 1; return some .strip
  | _ => return none

/-- How far a block text is indented, if that is given. -/
def indentation? : Scan (Option Nat) := do
  match ← next with
  | some c =>
    if c = '0' then failure
    if c.isDigit then
      skip 1
      return some (c.toNat - '0'.toNat)
    else return none
  | none => return none

def blockHeader : Scan (Chomping × Option Nat) := do
  match ← chomping? with
  | some chomping => return (chomping, ← indentation?)
  | none => match ← indentation? with
    | some indent => return ((← chomping?).getD .clip, some indent)
    | none => return (.clip, none)

/-- Reads empty lines and the indentation of the line after them. Returns the line breaks and the
greatest column that was met. -/
def emptyLines (limit : Nat) (indent : Option Nat) (breaks : List Char) (deepest : Nat) :
    Scan (List Char × Nat) :=
  match limit with
  | 0 => failure
  | limit + 1 => do
    let input ← get
    let spaces := (input.rest.takeWhile (· = ' ')).length
    skip ((indent.map fun indent => min spaces (indent - input.column)).getD spaces)
    let input ← get
    let deepest := max deepest input.column
    if indent.all (input.column < ·) && input.rest.head? = some '\t' then failure
    if input.rest.head?.any isBreak then
      let found ← lineBreak
      emptyLines limit indent (breaks ++ found) deepest
    else return (breaks, deepest)

/-- The lines of a block text, the line break after the last of them, and the further ones. In a
folded text a break between two lines that begin with no blank counts as a blank. -/
def blockLines (limit : Nat) (folds : Bool) (indent : Nat) (text first others : List Char)
    (blank : Bool) : Scan (List Char × List Char × List Char) :=
  match limit with
  | 0 => failure
  | limit + 1 => do
    let input ← get
    if input.column ≠ indent || input.rest.isEmpty then return (text, first, others)
    let startsBlank := input.rest.head?.any isBlank
    let between :=
      if folds && first = ['\n'] && !blank && !startsBlank then
        if others.isEmpty then [' '] else others
      else first ++ others
    let line ← takeWhile fun c => !isBreak c
    let found ← lineBreak
    let (more, _) ← emptyLines (limit + 1) (some indent) [] 0
    blockLines limit folds indent (text ++ between ++ line) found more startsBlank

/-- A block text after its mark. `outer` is the least indentation that it may have. -/
def block (limit : Nat) (folds : Bool) (outer : Nat) : Scan (List Char) := do
  skip 1
  let (chomping, relative) ← blockHeader
  endOfLine
  let given := relative.map (outer - 1 + ·)
  let (breaks, deepest) ← emptyLines limit given [] 0
  let indent := given.getD (max deepest (max outer 1))
  let (text, first, others) ← blockLines limit folds indent [] [] breaks false
  match chomping with
  | .strip => return text
  | .clip => return text ++ first
  | .keep => return text ++ first ++ others

end Scan
end TextScore.Yaml
