import TextScore.Yaml.Scalar
import TextScore.Yaml.Tag

/-! Tokens of a YAML text. Indentation opens and closes blocks, and a colon makes the scalar or
collection in front of it a key, on the same line and at most 1024 characters back. -/
namespace TextScore.Yaml

inductive Token
  | directive (d : Scan.Directive)
  | documentStart | documentEnd
  | blockSequence | blockMapping | blockEnd
  | openSequence | closeSequence | openMapping | closeMapping
  | item | comma | key | value
  | alias (name : List Char)
  | anchor (name : List Char)
  | tag (handle suffix : List Char)
  | scalar (style : Style) (text : List Char)
  deriving DecidableEq, Repr

/-- What a colon would make a key. `token` counts the tokens before it. A key that stands where
its block is indented has to be one. -/
structure PossibleKey where
  token : Nat
  index : Nat
  line : Nat
  column : Nat
  required : Bool

/-- `blocks` are the columns of the open blocks, and `keys` the possible keys of the open flow
collections and of what is around them, both from the inside out. The newest of the `count` tokens
is the first. -/
structure Lexer where
  input : Input
  blocks : List Int := [-1]
  keys : List (Option PossibleKey) := [none]
  keyAllowed : Bool := true
  tokens : List Token := []
  count : Nat := 0

namespace Lexer

def inFlow (l : Lexer) : Bool := 1 < l.keys.length

def indent (l : Lexer) : Int := l.blocks.headD (-1)

/-- The first column inside of the innermost block. -/
def inside (l : Lexer) : Nat := (l.indent + 1).toNat

/-- Puts a token behind the first `place` ones. -/
def insert (l : Lexer) (place : Nat) (token : Token) : Lexer :=
  let newer := l.count - place
  { l with
    tokens := l.tokens.take newer ++ token :: l.tokens.drop newer
    count := l.count + 1 }

def emit (l : Lexer) (token : Token) : Lexer := l.insert l.count token

end Lexer

abbrev Lexing (α : Type) := StateT Lexer Option α

namespace Lexing

def scan {α : Type} (step : Scan α) : Lexing α := fun l =>
  (step.run l.input).map fun (a, input) => (a, { l with input := input })

def emit (token : Token) : Lexing Unit := modify fun l => l.emit token

def allowKey (allowed : Bool) : Lexing Unit := modify fun l => { l with keyAllowed := allowed }

def dropKey : Lexing Unit := do
  let l ← get
  if (l.keys.head?.join).any PossibleKey.required then failure
  set { l with keys := none :: l.keys.drop 1 }

/-- What is read next may turn out to be a key. -/
def saveKey : Lexing Unit := do
  let l ← get
  if l.keyAllowed then
    dropKey
    let key := {
      token := l.count
      index := l.input.index
      line := l.input.line
      column := l.input.column
      required := !l.inFlow && l.indent = Int.ofNat l.input.column }
    set { l with keys := some key :: l.keys.drop 1 }

def expired (input : Input) (key : PossibleKey) : Bool :=
  key.line < input.line || key.index + 1024 < input.index

def expireKeys : Lexing Unit := do
  let l ← get
  if l.keys.any fun key => key.any fun key => expired l.input key && key.required then failure
  set { l with keys := l.keys.map (Option.filter fun key => !expired l.input key) }

/-- Opens a block at a column that is deeper than the innermost one. Its token takes the place
`place`. -/
def openBlock (column place : Nat) (token : Token) : Lexing Unit := modify fun l =>
  if !l.inFlow && l.indent < Int.ofNat column then
    { l.insert place token with blocks := Int.ofNat column :: l.blocks }
  else l

/-- Closes the blocks that are deeper than a column. -/
def closeBlocks (column : Int) : Lexing Unit := modify fun l =>
  if l.inFlow then l
  else
    let kept := l.blocks.dropWhile (column < ·)
    let ends := List.replicate (l.blocks.length - kept.length) Token.blockEnd
    { ends.foldl Lexer.emit l with blocks := kept }

/-- Skips blanks, comments and line breaks. A tab does not indent what may be a key, and a byte
order mark may stand in front of everything. -/
def skipGap (limit : Nat) : Lexing Unit :=
  match limit with
  | 0 => failure
  | limit + 1 => do
    let l ← get
    if l.input.index = 0 ∧ l.input.rest.head? = some '\ufeff' then scan (Scan.skip 1)
    let _ ← scan <| Scan.takeWhile fun c => c = ' ' || (l.inFlow || !l.keyAllowed) && c = '\t'
    if (← scan Scan.next) = some '#' then
      let _ ← scan <| Scan.takeWhile fun c => !isBreak c
    if (← scan Scan.next).any isBreak then
      let _ ← scan Scan.lineBreak
      if !l.inFlow then allowKey true
      skipGap limit

def directive (limit : Nat) : Lexing Unit := do
  closeBlocks (-1)
  dropKey
  allowKey false
  emit (.directive (← scan (Scan.directive limit)))

def documentMark (token : Token) : Lexing Unit := do
  closeBlocks (-1)
  dropKey
  allowKey false
  scan (Scan.skip 3)
  emit token

def openFlow (token : Token) : Lexing Unit := do
  saveKey
  modify fun l => { l with keys := none :: l.keys }
  allowKey true
  scan (Scan.skip 1)
  emit token

def closeFlow (token : Token) : Lexing Unit := do
  dropKey
  modify fun l => if l.inFlow then { l with keys := l.keys.drop 1 } else l
  allowKey false
  scan (Scan.skip 1)
  emit token

def comma : Lexing Unit := do
  dropKey
  allowKey true
  scan (Scan.skip 1)
  emit .comma

/-- Opens a block where a key may stand, unless a flow collection is open. -/
def openBlockHere (token : Token) : Lexing Unit := do
  let l ← get
  if !l.inFlow then
    if !l.keyAllowed then failure
    openBlock l.input.column l.count token

def item : Lexing Unit := do
  openBlockHere .blockSequence
  dropKey
  allowKey true
  scan (Scan.skip 1)
  emit .item

def key : Lexing Unit := do
  openBlockHere .blockMapping
  dropKey
  allowKey (!(← get).inFlow)
  scan (Scan.skip 1)
  emit .key

/-- A colon turns what came before it into a key. If that is none, a key was marked as such. -/
def value : Lexing Unit := do
  let l ← get
  match l.keys.head?.join with
  | some key =>
    set { l.insert key.token .key with keys := none :: l.keys.drop 1, keyAllowed := false }
    openBlock key.column key.token .blockMapping
  | none =>
    openBlockHere .blockMapping
    allowKey (!l.inFlow)
  scan (Scan.skip 1)
  emit .value

/-- Reads a part of a node that may be or begin a key. -/
def part (step : Scan Token) : Lexing Unit := do
  saveKey
  allowKey false
  emit (← scan step)

def block (limit : Nat) (style : Style) : Lexing Unit := do
  dropKey
  allowKey true
  let l ← get
  emit (.scalar style (← scan (Scan.block limit (style = .folded) l.inside)))

def plain (limit : Nat) : Lexing Unit := do
  saveKey
  allowKey false
  let l ← get
  let (text, broken) ← scan (Scan.plain limit l.inside l.inFlow)
  if broken then allowKey true
  emit (.scalar .plain text)

/-- No plain text begins with one of these. -/
def isIndicator (c : Char) : Bool :=
  isBlank c || Scan.isFlowMark c || c ∈ ['#', '&', '*', '!', '|', '>', '\'', '"', '%', '@', '\x60']

/-- Reads the token that begins with `c`. -/
def token (limit : Nat) (c : Char) (following : Option Char) : Lexing Unit := do
  let l ← get
  if l.input.column = 0 ∧ c = '%' then directive limit
  else if l.input.atMark '-' then documentMark .documentStart
  else if l.input.atMark '.' then documentMark .documentEnd
  else if c = '[' then openFlow .openSequence
  else if c = '\x7b' then openFlow .openMapping
  else if c = ']' then closeFlow .closeSequence
  else if c = '\x7d' then closeFlow .closeMapping
  else if c = ',' then comma
  else if c = '-' ∧ endsWord following then item
  else if c = '?' ∧ (l.inFlow ∨ endsWord following) then key
  else if c = ':' ∧ (l.inFlow ∨ endsWord following) then value
  else if c = '*' then part (return .alias (← Scan.anchorName))
  else if c = '&' then part (return .anchor (← Scan.anchorName))
  else if c = '!' then part do
    let (handle, suffix) ← Scan.tag limit l.inFlow
    return .tag handle suffix
  else if c = '|' ∧ !l.inFlow then block limit .literal
  else if c = '>' ∧ !l.inFlow then block limit .folded
  else if c = '"' ∨ c = '\'' then part (return .scalar .quoted (← Scan.quoted limit c))
  else if isIndicator c then failure
  else plain limit

/-- Reads to the end of the text. Each round reads at least one character, and `limit` exceeds the
number of characters left. -/
def tokens (limit : Nat) : Lexing Unit :=
  match limit with
  | 0 => failure
  | limit + 1 => do
    skipGap (limit + 1)
    expireKeys
    let input := (← get).input
    closeBlocks (Int.ofNat input.column)
    match input.rest with
    | [] =>
      closeBlocks (-1)
      dropKey
    | c :: rest =>
      token (limit + 1) c rest.head?
      tokens limit

end Lexing

def tokens? (text : String) : Option (List Token) :=
  let rest := text.toList
  if rest.all isPrintable then
    let read := (Lexing.tokens (rest.length + 1)).run { input := { rest := rest } }
    read.map fun (_, l) => l.tokens.reverse
  else none

end TextScore.Yaml
