import TextScore.Score.Token
import TextScore.Text.Decimal

/-! Reading items. Each construct begins with its own mark, so one or two characters decide what
comes next. Readers of constructs that hold items are given the reader of those items; `nested`
closes the knot by a bound on the depth, which the length of the text always meets. -/
namespace TextScore.Score
open Reader

/-- Inside an ornament fewer forms of item are read than elsewhere. -/
inductive Place where
  | anywhere | ornament
  deriving DecidableEq, Repr

/-- Items up to the closing bracket, at least one. -/
def enclosed (limit : Nat) (item : Reader Item) (what : Enclosure) : Reader (List Item) := do
  let start ← offset
  let items ← collect limit do
    skipBlanks
    match ← peek with
    | none => failAt start (.unclosed what)
    | some c => if c = what.closer then skip 1; return none else return some (← item)
  if items.isEmpty then failAt start (.emptyBody what) else return items

def rangeKind? : Char → Option RangeKind
  | '^' => some .octaveUp
  | 'v' => some .octaveDown
  | '3' => some (.tuplet 3)
  | '5' => some (.tuplet 5)
  | '7' => some (.tuplet 7)
  | 's' => some .sustain
  | _ => none

def range (body : Enclosure → Reader (List Item)) : Reader Item := do
  let start ← offset
  expect '('
  let mark ← peek
  match mark.bind rangeKind? with
  | none => fail (.unknownRange mark)
  | some kind =>
    skip 1
    return .range start kind (← body .range)

def userRangeName : Reader String := do
  expect '\x7b'
  expect '\x7b'
  let name ← word
  expect '\x7d'
  expect '\x7d'
  return name

def invocation (body : Enclosure → Reader (List Item)) : Reader Item := do
  let start ← offset
  let name ← userRangeName
  skipBlanks
  expect '('
  return .range start (.userRange name) (← body .invocation)

def groupRef : Reader Item := do
  let start ← offset
  expect '\x7b'
  expect '='
  let id ← number
  expect '\x7d'
  return .groupRef start id

def group (body : Enclosure → Reader (List Item)) : Reader Item := do
  let start ← offset
  expect '\x7b'
  let id ← number
  return .group start id (← body .group)

def emojiRef : Reader Item := do
  let start ← offset
  expect '('
  let symbol ← emojiSymbol
  expect ')'
  return .emoji start symbol

def rest : Reader Item := do
  let start ← offset
  skip 1
  return .rest start

/-- Cuts a list at its bars; there is one branch more than there are bars. -/
def splitAtBars : List (Option Item) → List (List Item)
  | [] => [[]]
  | none :: rest => [] :: splitAtBars rest
  | some item :: rest => match splitAtBars rest with
    | [] => [[item]]
    | branch :: branches => (item :: branch) :: branches

def parallel (limit : Nat) (item : Reader Item) : Reader Item := do
  let start ← offset
  expect '['
  expect '['
  let parts ← collect limit do
    skipBlanks
    match (← get).rest with
    | [] => failAt start .unclosedParallel
    | ']' :: ']' :: _ => skip 2; return none
    | '|' :: _ => skip 1; return some none
    | _ => return some (some (← item))
  let branches := splitAtBars parts
  if branches.length < 2 then failAt start .uselessParallel
  else if branches.any List.isEmpty then failAt start .emptyBranch
  else return .parallel start branches

def graces (limit : Nat) (body : Enclosure → Reader (List Item)) : Reader (List Item) := do
  let start ← offset
  expect '['
  expect '>'
  collect limit do
    skipBlanks
    match (← get).rest with
    | [] => failAt start .unclosedGrace
    | ']' :: _ => skip 1; return none
    | '[' :: _ => return some (.chord (← chord limit))
    | '(' :: _ => return some (← range body)
    | '\x7b' :: '\x7b' :: _ => return some (← invocation body)
    | _ => return some (.key (← key))

def plainOrnament? : Char → Option Ornament
  | '.' => some .staccato
  | '~' => some .fermata
  | '!' => some .sforzando
  | 't' => some .trill
  | 'p' => some .pitchBend
  | _ => none

def isDecimalChar (c : Char) : Bool := c.isDigit || c = '-' || c = '.'

/-- Only decimal characters between brackets make a breakpoint. -/
def startsBreakpoint : List Char → Bool
  | '(' :: rest =>
    !(rest.takeWhile isDecimalChar).isEmpty && (rest.dropWhile isDecimalChar).head? == some ')'
  | _ => false

def breakpoint : Reader Item := do
  let start ← offset
  expect '('
  let text := String.ofList (← takeWhile (· ≠ ')'))
  expect ')'
  match Text.decimal? text with
  | some value => return .breakpoint start value
  | none => failAt start (.malformedDecimal text)

def plainBody (limit : Nat) (item : Reader Item) (kind : Ornament) (start : Nat) :
    Reader Item := do
  let body ← collect limit do
    skipBlanks
    match (← get).rest with
    | [] => failAt start .unclosedOrnament
    | '>' :: _ => skip 1; return none
    | cs =>
      if kind = .pitchBend ∧ startsBreakpoint cs then return some (← breakpoint)
      else return some (← item)
  if body.isEmpty then failAt start .emptyOrnament else return .ornament start kind body

/-- The body of a crescendo or decrescendo ends with the velocity it leads to. -/
def dynamicsBody (limit : Nat) (item : Reader Item) (kind : Nat → Ornament) (start : Nat) :
    Reader Item := do
  let body ← collect limit do
    skipBlanks
    match ← peek with
    | none => failAt start .unclosedOrnament
    | some c => if c.isDigit then return none else return some (← item)
  let targetOffset ← offset
  let target ← number
  expect '>'
  if 127 < target then failAt targetOffset .targetOutOfRange
  else if body.isEmpty then failAt start .emptyOrnament
  else return .ornament start (kind target) body

def ornament (limit : Nat) (item : Reader Item) : Reader Item := do
  let start ← offset
  expect '<'
  match ← peek with
  | some '+' => skip 1; dynamicsBody limit item .crescendo start
  | some '-' => skip 1; dynamicsBody limit item .decrescendo start
  | mark => match mark.bind plainOrnament? with
    | some kind => skip 1; plainBody limit item kind start
    | none => fail (.unknownOrnament mark)

/-- An ornament, a chord, a tie or a key. -/
def sound (limit : Nat) (inner : Place → Reader Item) : Reader Item := do
  match ← peek with
  | some '<' => ornament limit (inner .ornament)
  | some '[' => return .chord (← chord limit)
  | some '~' | some 'ㅡ' =>
    let start ← offset
    skip 1
    return .tie start
  | _ => return .key (← key)

def itemAnywhere (limit : Nat) (inner : Place → Reader Item) : Reader Item := do
  let body := enclosed limit (inner .anywhere)
  let start ← offset
  match (← get).rest with
  | [] => fail .unexpectedEnd
  | '(' :: more =>
    if more.head?.any isEmoji then emojiRef
    else if startsSetting ('(' :: more) then return .setting (← setting)
    else range body
  | '\x7b' :: '\x7b' :: _ => invocation body
  | '\x7b' :: '=' :: _ => groupRef
  | '\x7b' :: _ => group body
  | '[' :: '[' :: _ => parallel limit (inner .anywhere)
  | '[' :: '>' :: _ =>
    let graces ← graces limit body
    return .graced start graces (← sound limit inner)
  | '_' :: _ | 'ㅇ' :: _ => rest
  | _ => sound limit inner

def itemInOrnament (limit : Nat) (inner : Place → Reader Item) : Reader Item := do
  let body := enclosed limit (inner .anywhere)
  match (← get).rest with
  | '\x7b' :: '\x7b' :: _ => invocation body
  | '\x7b' :: _ => groupRef
  | '(' :: more =>
    if startsSetting ('(' :: more) then return .setting (← setting) else range body
  | '_' :: _ | 'ㅇ' :: _ => rest
  | _ => sound limit inner

/-- Each level of nesting reads at least one character, so with `limit` not below the number of
characters left the bound is met only at the end of the text. -/
def nested : (limit : Nat) → Place → Reader Item
  | 0, _ => fail .unexpectedEnd
  | limit + 1, .anywhere => itemAnywhere (limit + 1) (nested limit)
  | limit + 1, .ornament => itemInOrnament (limit + 1) (nested limit)

end TextScore.Score
