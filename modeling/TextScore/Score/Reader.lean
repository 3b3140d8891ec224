import TextScore.Score.Item

/-! Reading a whole score: nodes with blanks between them. -/
namespace TextScore.Score
open Reader

def global : Reader Node := do
  let start ← offset
  expect '('
  expect '('
  let key ← word
  expect '='
  let value ← word
  expect ')'
  expect ')'
  return .global start key value

def declareEmoji : Reader Node := do
  let start ← offset
  expect '('
  expect '('
  let symbol ← emojiSymbol
  expect '='
  skipBlanks
  let value ← setting
  skipBlanks
  expect ')'
  expect ')'
  return .declareEmoji start symbol value

/-- A name in double braces defines a template if a brace follows, and invokes one otherwise. -/
def definition (limit : Nat) : Reader Node := do
  let start ← get
  let name ← userRangeName
  skipBlanks
  if (← peek) = some '\x7b' then
    skip 1
    return .define start.offset name (← enclosed limit (nested limit .anywhere) .definition)
  else
    set start
    return .item (← nested limit .anywhere)

def channel : Reader Node := do
  let start ← offset
  expect '#'
  let resume := (← peek) = some '~'
  if resume then skip 1
  return .channel start (← number) resume

def repeatClose : Reader Node := do
  let start ← offset
  skip 2
  if (← peek).any Char.isDigit then return .repeatClose start (some (← number))
  else return .repeatClose start none

def node (limit : Nat) : Reader Node := do
  let start ← offset
  match (← get).rest with
  | '(' :: '(' :: more => if more.head?.any isEmoji then declareEmoji else global
  | '\x7b' :: '\x7b' :: _ => definition limit
  | '|' :: ':' :: _ => skip 2; return .repeatOpen start
  | ':' :: '|' :: _ => repeatClose
  | '/' :: '1' :: _ => skip 2; return .volta start .prima
  | '/' :: '2' :: _ => skip 2; return .volta start .seconda
  | '#' :: _ => channel
  | _ => return .item (← nested limit .anywhere)

def nodes (limit : Nat) : Reader (List Node) :=
  collect limit do
    skipBlanks
    if (← peek).isNone then return none else return some (← node limit)

def read (text : List Char) : Except Fault (List Node) :=
  (nodes (text.length + 1)).run' ⟨0, text⟩

end TextScore.Score
