import TextScore.Yaml.Token

/-! Nodes of a YAML document. An anchor gives a node a number, and an alias refers to a number.
Aliases are looked up after the whole document has been read. -/
namespace TextScore.Yaml

inductive Node
  | scalar (s : Scalar)
  | alias (number : Nat)
  | sequence (items : List Node)
  | mapping (entries : List (Node × Node))

def Node.empty : Node := .scalar .empty

/-- `anchors` numbers the names seen so far. `places` holds, newest first, the scalars that the
numbers refer to; it has nothing for a collection. -/
structure Composition where
  tokens : List Token
  handles : List (List Char × List Char)
  anchors : List (List Char × Nat) := []
  places : List (Nat × Option Scalar) := []

abbrev Composing (α : Type) := StateT Composition Option α

namespace Composing

def next : Composing (Option Token) := return (← get).tokens.head?

def advance : Composing Unit := modify fun c => { c with tokens := c.tokens.drop 1 }

def take : Composing (Option Token) := do
  let token ← next
  advance
  return token

structure Properties where
  anchor : Option (List Char) := none
  tag : Option (List Char) := none

/-- A new name gets the number of names before it, and so does a name that is used again. -/
def record (p : Properties) (scalar : Option Scalar) : Composing Unit :=
  match p.anchor with
  | none => return
  | some name => modify fun c =>
    let number := c.anchors.length
    { c with
      anchors := (name, number) :: c.anchors.filter (·.1 ≠ name)
      places := (number, scalar) :: c.places }

def scalar (p : Properties) (style : Style) (text : List Char) : Composing Node := do
  let s := ⟨style, text, p.tag⟩
  record p (some s)
  return .scalar s

/-- A node of which only the properties are written. -/
def bare (p : Properties) : Composing Node := do
  if p.anchor.isNone && p.tag.isNone then failure
  scalar p .plain []

def anchor : Composing (Option (List Char)) := do
  match ← next with
  | some (.anchor name) => advance; return some name
  | _ => return none

def tag : Composing (Option (List Char)) := do
  match ← next with
  | some (.tag handle suffix) =>
    advance
    if handle.isEmpty then return some suffix
    let start ← (← get).handles.lookup handle
    return some (start ++ suffix)
  | _ => return none

/-- An anchor and a tag, in any order. -/
def properties : Composing Properties := do
  match ← anchor with
  | some name => return ⟨some name, ← tag⟩
  | none =>
    let tag ← tag
    return ⟨← anchor, tag⟩

/-- A node, unless one of the tokens that may stand in its place is next. -/
def orEmpty (ends : List Token) (node : Composing Node) : Composing Node := do
  if (← next).any (· ∈ ends) then return .empty else node

/-- A value after its colon. A key alone has an empty value. -/
def valueAfter (ends : List Token) (node : Composing Node) : Composing Node := do
  if (← next) = some .value then
    advance
    orEmpty ends node
  else return .empty

mutual

/-- Reads a node. As a key or value of a block it may be a list that is no deeper than the block.
`limit` exceeds twice the number of tokens left. -/
def node (limit : Nat) (inBlock besideKey : Bool) : Composing Node :=
  match limit with
  | 0 => failure
  | limit + 1 => do
    match ← next with
    | some (.alias name) =>
      advance
      let number ← (← get).anchors.lookup name
      return .alias number
    | _ =>
      let p ← properties
      match ← next with
      | some (.scalar style text) => advance; scalar p style text
      | some .openSequence => record p none; advance; return .sequence (← flowItems limit true)
      | some .openMapping => record p none; advance; return .mapping (← flowEntries limit true)
      | some .item =>
        if besideKey then
          record p none
          return .sequence (← itemsBesideKey limit)
        else bare p
      | some .blockSequence =>
        if inBlock then
          record p none
          advance
          return .sequence (← blockItems limit)
        else bare p
      | some .blockMapping =>
        if inBlock then
          record p none
          advance
          return .mapping (← blockEntries limit)
        else bare p
      | _ => bare p

def blockItems (limit : Nat) : Composing (List Node) :=
  match limit with
  | 0 => failure
  | limit + 1 => do
    match ← take with
    | some .item =>
      let item ← orEmpty [.item, .blockEnd] (node limit true false)
      return item :: (← blockItems limit)
    | some .blockEnd => return []
    | _ => failure

def itemsBesideKey (limit : Nat) : Composing (List Node) :=
  match limit with
  | 0 => failure
  | limit + 1 => do
    if (← next) = some .item then
      advance
      let item ← orEmpty [.item, .key, .value, .blockEnd] (node limit true false)
      return item :: (← itemsBesideKey limit)
    else return []

def blockEntries (limit : Nat) : Composing (List (Node × Node)) :=
  match limit with
  | 0 => failure
  | limit + 1 => do
    match ← take with
    | some .key =>
      let key ← orEmpty [.key, .value, .blockEnd] (node limit true true)
      let value ← valueAfter [.key, .value, .blockEnd] (node limit true true)
      return (key, value) :: (← blockEntries limit)
    | some .blockEnd => return []
    | _ => failure

/-- The items of a flow sequence; one that has a key is a mapping of its own. A pair without a key
passes over the token that shows this. -/
def flowItems (limit : Nat) (first : Bool) : Composing (List Node) :=
  match limit with
  | 0 => failure
  | limit + 1 => do
    if !first && (← next) ≠ some .closeSequence then
      if (← take) ≠ some .comma then failure
    match ← next with
    | some .closeSequence => advance; return []
    | some .key =>
      advance
      let ends := [.comma, .closeSequence]
      let key ←
        if (← next).any (· ∈ Token.value :: ends) then
          advance
          pure .empty
        else node limit false false
      let value ← valueAfter ends (node limit false false)
      return .mapping [(key, value)] :: (← flowItems limit false)
    | _ =>
      let item ← node limit false false
      return item :: (← flowItems limit false)

def flowEntries (limit : Nat) (first : Bool) : Composing (List (Node × Node)) :=
  match limit with
  | 0 => failure
  | limit + 1 => do
    if !first && (← next) ≠ some .closeMapping then
      if (← take) ≠ some .comma then failure
    match ← next with
    | some .closeMapping => advance; return []
    | some .key =>
      advance
      let ends := [.comma, .closeMapping]
      let key ← orEmpty (.value :: ends) (node limit false false)
      let value ← valueAfter ends (node limit false false)
      return (key, value) :: (← flowEntries limit false)
    | _ =>
      let key ← node limit false false
      return (key, .empty) :: (← flowEntries limit false)

end

end Composing

/-- A document without content has no root. -/
structure Document where
  root : Option Node
  places : List (Nat × Option Scalar)

namespace Document

/-- Handles that need no directive. -/
def standardHandles : List (List Char × List Char) :=
  [("!".toList, "!".toList), ("!!".toList, "tag:yaml.org,2002:".toList)]

/-- The handles that the directives of a document allow. At most one of them gives the version,
which is 1.1 or 1.2, and none gives a handle again. -/
def handles? (directives : List Scan.Directive) : Option (List (List Char × List Char)) :=
  let versions := directives.filterMap fun
    | .version major minor => some (major, minor)
    | _ => none
  let handles := directives.filterMap fun
    | .tagHandle handle uri => some (handle, uri)
    | _ => none
  let names := handles.map Prod.fst
  if versions ∈ [[], [(1, 1)], [(1, 2)]] ∧ names.eraseDups.length = names.length then
    some (handles ++ standardHandles)
  else none

def leadingDirectives : List Token → List Scan.Directive × List Token
  | .directive d :: rest => (d :: (leadingDirectives rest).1, (leadingDirectives rest).2)
  | rest => ([], rest)

/-- The only document of a text. Directives need a mark where the document starts. -/
def ofTokens? (tokens : List Token) : Option Document := do
  let (directives, tokens) := leadingDirectives tokens
  let handles ← handles? directives
  match tokens with
  | [] => if directives.isEmpty then return ⟨none, []⟩ else none
  | first :: rest =>
    let started := first = .documentStart
    if !started && !directives.isEmpty then none
    let tokens := if started then rest else tokens
    let whole := Composing.node (2 * tokens.length + 3) true false
    let root := if started && tokens.head?.all (· = .documentEnd) then return .empty else whole
    let (root, after) ← root.run { tokens := tokens, handles := handles }
    if after.tokens.all (· = .documentEnd) then return ⟨some root, after.places⟩ else none

def ofText? (text : String) : Option Document := do ofTokens? (← tokens? text)

/-- The scalar that a node is or refers to. -/
def scalar? (document : Document) : Node → Option Scalar
  | .scalar s => some s
  | .alias number => (document.places.lookup number).join
  | _ => none

end Document
end TextScore.Yaml
