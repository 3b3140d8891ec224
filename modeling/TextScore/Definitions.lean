import TextScore.Score.Basic
import TextScore.Step

/-! What a score has named so far: groups, templates of user ranges, and emoji shortcuts. A name is
given once. -/
namespace TextScore

/-- Shortcuts that need no declaration choose a General MIDI program. -/
def builtInEmojis : List (String × Setting) :=
  [("🎹", "0"), ("🔔", "14"), ("🪗", "21"), ("🎸", "24"), ("🎻", "40"), ("🎤", "52"), ("🎺", "56"),
    ("🎷", "65"), ("🪈", "73"), ("🪕", "105"), ("🥁", "118")].map
      fun (symbol, program) => (symbol, ⟨0, "p", program⟩)

structure Definitions where
  groups : List (Nat × List Item) := []
  templates : List (String × List Item) := []
  emojis : List (String × Setting) := builtInEmojis

namespace Definitions

def declareGroup (id : Nat) (body : List Item) (offset : Nat) : Step Definitions Unit := do
  let d ← get
  if (d.groups.lookup id).isSome then Step.failAt offset (.groupRedeclared id)
  set { d with groups := (id, body) :: d.groups }

def group (id offset : Nat) : Step Definitions (List Item) := do
  match (← get).groups.lookup id with
  | some body => return body
  | none => Step.failAt offset (.noSuchGroup id)

def defineTemplate (name : String) (body : List Item) (offset : Nat) :
    Step Definitions Unit := do
  let d ← get
  if (d.templates.lookup name).isSome then Step.failAt offset (.userRangeRedefined name)
  set { d with templates := (name, body) :: d.templates }

def template (name : String) (offset : Nat) : Step Definitions (List Item) := do
  match (← get).templates.lookup name with
  | some body => return body
  | none => Step.failAt offset (.noSuchUserRange name)

def declareEmoji (symbol : String) (setting : Setting) (offset : Nat) :
    Step Definitions Unit := do
  let d ← get
  if (d.emojis.lookup symbol).isSome then Step.failAt offset (.emojiRedeclared symbol)
  set { d with emojis := (symbol, setting) :: d.emojis }

def emoji (symbol : String) (offset : Nat) : Step Definitions Setting := do
  match (← get).emojis.lookup symbol with
  | some setting => return setting
  | none => Step.failAt offset (.noSuchEmoji symbol)

end Definitions
end TextScore
