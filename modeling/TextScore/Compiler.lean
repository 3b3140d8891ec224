import TextScore.Highlight
import TextScore.Midi.File
import TextScore.Score.Reader
import TextScore.Session.Run
import TextScore.Settings.Basic
import TextScore.Text.Comment

/-! From the source of a score to its tree, its tracks, a MIDI file or its highlights. Faults point
into the source, comments and all; so do highlights. -/
namespace TextScore

namespace Compiler
open Text (Stripped)

/-- The tree of the text without comments, to which its offsets belong. -/
def parse (source : String) : Except Fault (List Node × Stripped) :=
  let stripped := Text.strip source.toList
  match Score.read stripped.text with
  | .ok nodes => .ok (nodes, stripped)
  | .error fault => .error (fault.remap stripped.map)

/-- The session after a whole score, or where it was when the score failed. -/
def perform (settings : Settings) (score : List Node) : EStateM.Result Fault Session Unit :=
  (Session.run score).run { gas := ⟨settings.gas⟩ }

def session (settings : Settings) (source : String) : Except Fault (Session × Stripped) := do
  let (score, stripped) ← parse source
  match perform settings score with
  | .ok _ session => return (session, stripped)
  | .error fault _ => throw (fault.remap stripped.map)

def tracks (settings : Settings) (source : String) : Except Fault (List Track) := do
  return Track.ofSession (← session settings source).1

def midi (settings : Settings) (source : String) : Except Fault (List UInt8) := do
  let tracks ← tracks settings source
  if Midi.mostTracks < tracks.length then throw ⟨.tooManyTracks, 0⟩
  return Midi.write tracks

def highlights (settings : Settings) (source : String) : Except Fault (List Highlight) := do
  let (session, stripped) ← session settings source
  let map := stripped.map
  return (Highlight.ofArena session.arena session.conductor).map fun h =>
    { h with offset := map.source h.offset }

end Compiler
end TextScore
