import TextScore.Command.Run

/-! A file system held in memory, with the rules by which a path leads to one of its files. Names
are walked from the root, or from the working directory if the path does not begin with a slash;
every name but the last must lead to a directory. -/
namespace TextScore.Command

/-- The names on the way from the root. -/
abbrev Place := List String

inductive FileEntry where
  | directory
  | regular (content : List UInt8)
  /-- A device that reads as nothing and forgets what is written to it. -/
  | sink
  /-- A device without room for anything. -/
  | full
  deriving DecidableEq, Repr

/-- Directories on the way to an entry need no entry of their own. -/
structure FileTree where
  entries : List (Place × FileEntry)

namespace FileTree

/-- The working directory, which is also the home directory. -/
def home : Place := ["tmp", "home"]

def settingsPlace : Place := home ++ [".scorch", "config.yaml"]

/-- Files in the working directory, next to the devices. -/
def ofFiles (files : List (Place × List UInt8)) : FileTree :=
  ⟨[(home, .directory), (["dev", "null"], .sink), (["dev", "full"], .full)] ++
    files.map fun (place, content) => (home ++ place, .regular content)⟩

def find? (place : Place) (t : FileTree) : Option FileEntry :=
  match t.entries.lookup place with
  | some e => some e
  | none => if t.entries.any fun (p, _) => place.isPrefixOf p then some .directory else none

/-- The longest name, and the longest path less one, in bytes. -/
def longestName : Nat := 255
def longestPath : Nat := 4096

def names (path : String) : List String := (path.splitOn "/").filter (· ≠ "")

def start (path : String) : Place := if path.startsWith "/" then [] else home

def endsInSlash (path : String) : Bool := path.endsWith "/"

def isDirectory (t : FileTree) (place : Place) : Bool := t.find? place = some .directory

/-- Where a name leads from a directory. -/
def enter (t : FileTree) (here : Place) (name : String) : Except FileError Place :=
  if !t.isDirectory here then .error .notDirectory
  else if name = "." then .ok here
  else if name = ".." then .ok here.dropLast
  else if longestName < name.utf8ByteSize then .error .nameTooLong
  else if (t.find? (here ++ [name])).isNone then .error .notFound
  else .ok (here ++ [name])

def follow (t : FileTree) (path : String) (names : List String) : Except FileError Place :=
  if longestPath ≤ path.utf8ByteSize then .error .nameTooLong
  else names.foldlM t.enter (start path)

def contents (path : String) (t : FileTree) : Except FileError (List UInt8) := do
  let place ← t.follow path (names path)
  if t.isDirectory place then throw .isDirectory
  if endsInSlash path then throw .notDirectory
  match t.find? place with
  | some (.regular content) => return content
  | _ => return []

def read (path : String) (t : FileTree) : Except FileError String := do
  match String.fromUTF8? ⟨(← t.contents path).toArray⟩ with
  | some text => return text
  | none => throw (.other "stream did not contain valid UTF-8")

/-- What a place holds after it was written to. -/
def put (place : Place) (content : List UInt8) (t : FileTree) : Except FileError FileTree :=
  match t.find? place with
  | none => .ok ⟨t.entries ++ [(place, .regular content)]⟩
  | some (.regular _) =>
    .ok ⟨t.entries.map fun (p, e) => (p, if p = place then .regular content else e)⟩
  | some .directory => .error .isDirectory
  | some .sink => .ok t
  | some .full => .error .noSpace

/-- The last name may be new. Dots and a slash at the end name a directory, new or not, and a
directory cannot be written to. -/
def write (path : String) (content : List UInt8) (t : FileTree) : Except FileError FileTree := do
  let here ← t.follow path (names path).dropLast
  if !t.isDirectory here then throw .notDirectory
  match (names path).getLast? with
  | none => throw .isDirectory
  | some name =>
    if endsInSlash path ∨ name = "." ∨ name = ".." then throw .isDirectory
    if longestName < name.utf8ByteSize then throw .nameTooLong
    t.put (here ++ [name]) content

def operations : Files (StateM FileTree) where
  read path := return (← get).read path
  write path content := do
    match (← get).write path content with
    | .ok t => set t; return .ok ()
    | .error e => return .error e
  settings := do
    match (← get).find? settingsPlace with
    | some (.regular content) => return String.fromUTF8? ⟨content.toArray⟩
    | _ => return none

end FileTree
end TextScore.Command
