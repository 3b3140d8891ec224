import TextScore.Yaml.Input

/-! Tags, anchors and directives. A tag names the type of a node: a handle stands for the beginning
of the name, and the rest follows. An octet that is escaped counts as the character of its number;
none of the others goes beyond ASCII. -/
namespace TextScore.Yaml.Scan

/-- Characters of a name. Commas and square brackets occur only where angle brackets or a line
bound it. -/
def isUriChar (bounded : Bool) (c : Char) : Bool :=
  isNameChar c || c ∈ ";/?:@&=+$.!~*'()".toList || bounded && c ∈ [',', '[', ']']

def octet : Scan Nat := do
  expect '%'
  hexadecimal 2

/-- The octets of one escaped character. -/
def escapedOctets : Scan (List Nat) := do
  let lead ← octet
  let more ←
    if lead < 0x80 then pure 0
    else if 0xC0 ≤ lead ∧ lead < 0xE0 then pure 1
    else if 0xE0 ≤ lead ∧ lead < 0xF0 then pure 2
    else if 0xF0 ≤ lead ∧ lead < 0xF8 then pure 3
    else failure
  let trail ← (List.replicate more ()).mapM fun _ => octet
  if trail.all fun n => 0x80 ≤ n && n < 0xC0 then return lead :: trail else failure

/-- The rest of a name. `limit` exceeds the number of characters left. -/
def uriChars (limit : Nat) (bounded : Bool) (text : List Char) : Scan (List Char) :=
  match limit with
  | 0 => failure
  | limit + 1 => do
    match ← next with
    | some c =>
      if c = '%' then
        let octets ← escapedOctets
        uriChars limit bounded (text ++ octets.map Char.ofNat)
      else if isUriChar bounded c then
        skip 1
        uriChars limit bounded (text ++ [c])
      else return text
    | none => return text

def uri (limit : Nat) (bounded : Bool) : Scan (List Char) := do
  let text ← uriChars limit bounded []
  if text.isEmpty then failure else return text

/-- An exclamation mark, a name and perhaps a second mark. -/
def handle : Scan (List Char) := do
  expect '!'
  let name ← takeWhile isNameChar
  if (← next) = some '!' then
    skip 1
    return '!' :: name ++ ['!']
  else return '!' :: name

def isHandle (text : List Char) : Bool := 1 < text.length && text.getLast? = some '!'

/-- A tag as a handle and the rest of its name. Without a second mark the handle is a single one,
and a mark alone is a whole name. -/
def tag (limit : Nat) (inFlow : Bool) : Scan (List Char × List Char) := do
  let found ←
    if (← get).rest[1]? = some '<' then
      skip 2
      let name ← uri limit true
      expect '>'
      pure ([], name)
    else
      let start ← handle
      if isHandle start then pure (start, ← uri limit false)
      else
        let rest := start.drop 1 ++ (← uriChars limit false [])
        pure (if rest.isEmpty then ([], ['!']) else (['!'], rest))
  let after ← next
  if endsWord after || inFlow && after = some ',' then return found else failure

/-- The name of an anchor, after the mark in front of it. -/
def anchorName : Scan (List Char) := do
  skip 1
  let name ← takeWhile isNameChar
  let after ← next
  let ends := endsWord after || after.any (· ∈ ['?', ':', ',', ']', '\x7d', '%', '@', '\x60'])
  if name.isEmpty || !ends then failure else return name

/-- A part of a version: up to nine digits. -/
def versionNumber : Scan Nat := do
  let digits ← takeWhile Char.isDigit
  if digits.isEmpty || 9 < digits.length then failure else return Text.digitsValue digits

inductive Directive
  | version (major minor : Nat)
  | tagHandle (handle uri : List Char)
  deriving DecidableEq, Repr

/-- A line that begins with a percent sign. No other kinds are known. -/
def directive (limit : Nat) : Scan Directive := do
  skip 1
  let name ← takeWhile isNameChar
  if !endsWord (← next) then failure
  let _ ← takeWhile isBlank
  let found ←
    if name = "YAML".toList then
      let major ← versionNumber
      expect '.'
      let minor ← versionNumber
      pure (Directive.version major minor)
    else if name = "TAG".toList then
      let handle ← handle
      if !(isHandle handle || handle = ['!']) then failure
      if !(← next).any isBlank then failure
      let _ ← takeWhile isBlank
      let uri ← uri limit true
      if !endsWord (← next) then failure
      pure (Directive.tagHandle handle uri)
    else failure
  endOfLine
  return found

end TextScore.Yaml.Scan
