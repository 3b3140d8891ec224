import TextScore.Compiler
import TextScore.Proofs.CheckedFiles
import TextScore.Proofs.CheckedRuns

/-! From a source to its file, its highlights and the excerpts of its diagnostics, with every
operation checked. Whatever the source is, nothing is taken from less, nothing is divided by zero, and
nothing is looked for where there is nothing. -/
namespace TextScore
open Checked

namespace Text

/-- The place of the first of two characters that stand side by side. -/
def firstPair? (a b : Char) : List Placed → Option Nat
  | x :: y :: rest =>
    if x.1 = a ∧ y.1 = b then some 0 else (firstPair? a b (y :: rest)).map (· + 1)
  | _ => none

def lastPair? (a b : Char) : List Placed → Option Nat
  | x :: y :: rest =>
    ((lastPair? a b (y :: rest)).map (· + 1)).or (if x.1 = a ∧ y.1 = b then some 0 else none)
  | _ => none

def stripLine? (line : List Placed) : Option (List Placed) := do
  let start := ((lastPair? '=' '/' line).map (· + 2)).getD 0
  let shown ← slice? line start line.length
  let stop := ((firstPair? '/' '=' shown).map (start + ·)).getD line.length
  slice? line start stop

/-- The line break at a place, if the text goes on there. -/
def lineBreak? (text : List Placed) (stop : Nat) : Option (List Placed) :=
  if stop < text.length then text[stop]?.map ([·]) else some []

/-- The lines from a place on that is the start of one. -/
def stripLines? (text : List Placed) (start : Nat) : Option (List Placed) :=
  if start < text.length then do
    let rest ← slice? text start text.length
    let stop := start + rest.findIdx (·.1 = '\n')
    let line ← stripLine? (← slice? text start stop)
    return line ++ (← lineBreak? text stop) ++ (← stripLines? text (stop + 1))
  else some []
termination_by text.length - start

def strip? (source : List Char) : Option Stripped := do
  return ⟨← stripLines? source.zipIdx 0, source.length⟩

theorem lastPair?_lt {a b : Char} {line : List Placed} {place : Nat}
    (found : lastPair? a b line = some place) : place + 2 ≤ line.length := by
  induction line generalizing place with
  | nil => exact nomatch found
  | cons x line ih =>
    cases line with
    | nil => exact nomatch found
    | cons y rest =>
      rcases Option.or_eq_some_iff.mp found with later | ⟨-, here⟩
      · obtain ⟨before, known, rfl⟩ := Option.map_eq_some_iff.mp later
        exact Nat.succ_le_succ (ih known)
      · split at here
        · cases here
          exact Nat.le_add_left ..
        · exact nomatch here

theorem firstPair?_lt {a b : Char} {line : List Placed} {place : Nat}
    (found : firstPair? a b line = some place) : place + 2 ≤ line.length := by
  induction line generalizing place with
  | nil => exact nomatch found
  | cons x line ih =>
    cases line with
    | nil => exact nomatch found
    | cons y rest =>
      rw [firstPair?] at found
      split at found
      · cases found
        exact Nat.le_add_left ..
      · obtain ⟨before, known, rfl⟩ := Option.map_eq_some_iff.mp found
        exact Nat.succ_le_succ (ih known)

theorem afterOpener?_eq (line : List Placed) :
    afterOpener? line = (lastPair? '=' '/' line).map fun place => line.drop (place + 2) := by
  induction line with
  | nil => rfl
  | cons x line ih =>
    cases line with
    | nil => rfl
    | cons y rest =>
      rw [afterOpener?, lastPair?, ih, Option.map_or, Option.map_map]
      congr 1
      split <;> rfl

theorem beforeCloser_eq (line : List Placed) :
    beforeCloser line = line.take ((firstPair? '/' '=' line).getD line.length) := by
  induction line with
  | nil => rfl
  | cons x line ih =>
    cases line with
    | nil => rfl
    | cons y rest =>
      rw [beforeCloser, firstPair?]
      split
      · rfl
      · rw [ih]
        cases firstPair? '/' '=' (y :: rest) <;> rfl

theorem stripLine?_eq (line : List Placed) : stripLine? line = some (stripLine line) := by
  -- The line is cut in front first, and what is left of it behind.
  have opened : (afterOpener? line).getD line =
      line.drop (((lastPair? '=' '/' line).map (· + 2)).getD 0) := by
    rw [afterOpener?_eq]
    cases lastPair? '=' '/' line <;> rfl
  have inside : ((lastPair? '=' '/' line).map (· + 2)).getD 0 ≤ line.length := by
    cases found : lastPair? '=' '/' line with
    | none => exact Nat.zero_le _
    | some place => exact lastPair?_lt found
  rw [stripLine?, stripLine, opened, beforeCloser_eq]
  generalize ((lastPair? '=' '/' line).map (· + 2)).getD 0 = start at *
  simp only [slice?_rest inside, Option.bind_eq_bind, Option.bind_some]
  cases found : firstPair? '/' '=' (line.drop start) with
  | none => exact (slice?_rest inside).trans (congrArg some (List.take_length ..).symm)
  | some place =>
    have short := firstPair?_lt found
    rw [List.length_drop] at short
    exact slice?_eq (by omega)

theorem stripLines_nil : stripLines [] = [] := by
  rw [stripLines]
  rfl

/-- A line, the break after it if there is one, and the other lines. -/
theorem stripLines_eq (text : List Placed) {length : Nat}
    (ends : text.findIdx (·.1 = '\n') = length) :
    stripLines text =
      stripLine (text.take length) ++ text[length]?.toList ++ stripLines (text.drop (length + 1)) := by
  have cut : text.takeWhile (·.1 ≠ '\n') = text.take length := by
    simp only [List.takeWhile_eq_take_findIdx_not, decide_not, Bool.not_not, ends]
  have left : text.dropWhile (·.1 ≠ '\n') = text.drop length := by
    simp only [List.dropWhile_eq_drop_findIdx_not, decide_not, Bool.not_not, ends]
  rw [stripLines, cut]
  split
  · next none =>
    have whole := List.drop_eq_nil_iff.mp (left.symm.trans none)
    rw [List.getElem?_eq_none whole, List.drop_eq_nil_of_le (Nat.le_succ_of_le whole),
      stripLines_nil, Option.toList_none, List.append_nil, List.append_nil]
  · next newline rest goes =>
    have more := left.symm.trans goes
    rw [← List.head?_drop, ← List.tail_drop, more]
    simp only [List.head?_cons, List.tail_cons, Option.toList_some, List.append_assoc,
      List.singleton_append]

theorem lineBreak?_eq (text : List Placed) (stop : Nat) :
    lineBreak? text stop = some text[stop]?.toList := by
  unfold lineBreak?
  split
  · next more =>
    rw [List.getElem?_eq_getElem more]
    rfl
  · next none =>
    rw [List.getElem?_eq_none (Nat.le_of_not_lt none)]
    rfl

theorem stripLines?_eq (text : List Placed) (start : Nat) :
    stripLines? text start = some (stripLines (text.drop start)) := by
  fun_induction stripLines? text start with
  | case1 start inside ih =>
    have next := ih (text.drop start)
    obtain ⟨length, ends⟩ : ∃ length, (text.drop start).findIdx (·.1 = '\n') = length := ⟨_, rfl⟩
    have short : length ≤ (text.drop start).length := ends ▸ List.findIdx_le_length
    rw [List.length_drop] at short
    have line : slice? text start (start + length) = some ((text.drop start).take length) :=
      slice?_eq (by omega)
    rw [stripLines_eq _ ends, List.getElem?_drop, List.drop_drop, ← Nat.add_assoc]
    simp only [ends] at next
    simp only [slice?_rest (Nat.le_of_lt inside), ends, line, lineBreak?_eq, next, stripLine?_eq,
      Option.bind_eq_bind, Option.bind_some, Option.pure_def]
  | case2 start past =>
    rw [List.drop_eq_nil_of_le (Nat.le_of_not_lt past), stripLines_nil]

theorem strip?_eq (source : List Char) : strip? source = some (strip source) := by
  rw [strip?, stripLines?_eq]
  rfl

end Text

namespace Diagnostic

def excerpt? (d : Diagnostic) (source : String) : Option String := do
  let chars := source.toList
  let start := d.offset - 10
  let stop := min (start + 30) chars.length
  let context ← slice? chars (min start stop) stop
  let indent ← minus? d.offset start
  let shown := context.map fun c => if c = '\n' ∨ c = '\r' then ' ' else c
  return String.ofList (List.replicate indent ' ' ++ "↓ here\n".toList ++ shown)

theorem excerpt?_eq (d : Diagnostic) (source : String) :
    d.excerpt? source = some (d.excerpt source) := by
  have context {start : Nat} {chars : List Char} : slice? chars
      (min start (min (start + 30) chars.length)) (min (start + 30) chars.length) =
        some ((chars.drop start).take 30) := by
    rw [slice?, if_pos ⟨Nat.min_le_right .., Nat.min_le_right ..⟩]
    refine congrArg some ?_
    rcases Nat.le_total start chars.length with inside | past
    · rw [Nat.min_eq_left (Nat.le_min.mpr ⟨Nat.le_add_right .., inside⟩)]
      refine List.take_eq_take_iff.mpr ?_
      rw [List.length_drop]
      omega
    · rw [Nat.min_eq_right (Nat.le_trans past (Nat.le_add_right ..)), Nat.min_eq_right past,
        List.drop_eq_nil_of_le past, List.drop_length, List.take_nil, List.take_nil]
  simp only [excerpt?, excerpt, context, minus?_eq (Nat.sub_le ..), Option.bind_eq_bind,
    Option.bind_some, Option.pure_def]

end Diagnostic

namespace Compiler
open Text (Stripped)

def parse? (source : String) : Option (Except Fault (List Node × Stripped)) := do
  let stripped ← Text.strip? source.toList
  match Score.read stripped.text with
  | .ok nodes => return .ok (nodes, stripped)
  | .error fault => return .error (fault.remap stripped.map)

def perform? (settings : Settings) (score : List Node) :
    Option (EStateM.Result Fault Session Unit) :=
  (Session.run? score).result? { gas := ⟨settings.gas⟩ }

def session? (settings : Settings) (source : String) :
    Option (Except Fault (Session × Stripped)) := do
  match ← parse? source with
  | .ok (score, stripped) => match ← perform? settings score with
    | .ok _ session => return .ok (session, stripped)
    | .error fault _ => return .error (fault.remap stripped.map)
  | .error fault => return .error fault

def midi? (settings : Settings) (source : String) : Option (Except Fault (List UInt8)) := do
  match ← session? settings source with
  | .ok (session, _) =>
    let tracks ← Track.assemble? session.conductor session.arena session.channels.toList
    if Midi.mostTracks < tracks.length then return .error ⟨.tooManyTracks, 0⟩
    return .ok (← Midi.write? tracks)
  | .error fault => return .error fault

def highlights? (settings : Settings) (source : String) :
    Option (Except Fault (List Highlight)) := do
  match ← session? settings source with
  | .ok (session, stripped) =>
    let map := stripped.map
    let highlights ← Highlight.ofArena? session.arena session.conductor
    return .ok (highlights.map fun h => { h with offset := map.source h.offset })
  | .error fault => return .error fault

variable {settings : Settings} {source : String}

theorem parse?_eq (source : String) : parse? source = some (parse source) := by
  rw [parse?, Text.strip?_eq, parse, Option.bind_eq_bind, Option.bind_some]
  cases Score.read (Text.strip source.toList).text <;> rfl

theorem session?_eq (settings : Settings) (source : String) :
    session? settings source = some (session settings source) := by
  simp only [session?, session, parse?_eq, Option.bind_some, bind, Except.bind]
  cases parsed : parse source with
  | error fault => rfl
  | ok pair =>
    obtain ⟨score, stripped⟩ := pair
    have known := Score.read_wellFormed (parse_read parsed)
    have performed : perform? settings score = some (perform settings score) :=
      (Session.agrees_run known (Session.real_start _)).result?_eq rfl
    simp only [performed, Option.bind_some]
    cases perform settings score <;> rfl

/-- The tracks and the highlights of a session that has played a source. -/
theorem written {s : Session} {stripped : Stripped}
    (performed : session settings source = .ok (s, stripped)) :
    Track.assemble? s.conductor s.arena s.channels.toList = some (Track.ofSession s) ∧
      Midi.write? (Track.ofSession s) = some (Midi.write (Track.ofSession s)) ∧
      Highlight.ofArena? s.arena s.conductor = some (Highlight.ofArena s.arena s.conductor) := by
  obtain ⟨score, plays⟩ := session_plays performed
  obtain ⟨_, held⟩ := plays.held Session.lasts_true trivial
  have sound := held.tended.sound
  have timely := plays.onTime
  refine ⟨Track.assemble?_eq sound.forest _, Midi.write?_eq fun track listed => ?_, ?_⟩
  · exact Track.assemble_positive sound timely listed
  · exact Highlight.ofArena?_eq _ timely

theorem midi?_eq (settings : Settings) (source : String) :
    midi? settings source = some (midi settings source) := by
  simp only [midi?, midi, tracks, session?_eq, Option.bind_some, bind, Except.bind]
  cases performed : session settings source with
  | error fault => rfl
  | ok pair =>
    obtain ⟨assembled, file, -⟩ := written performed
    simp only [assembled, file, Option.bind_some, pure, Except.pure]
    split <;> rfl

theorem highlights?_eq (settings : Settings) (source : String) :
    highlights? settings source = some (highlights settings source) := by
  simp only [highlights?, highlights, session?_eq, Option.bind_some, bind, Except.bind]
  cases performed : session settings source with
  | error fault => rfl
  | ok pair =>
    obtain ⟨-, -, shown⟩ := written performed
    simp only [shown, Option.bind_some]
    rfl

/-- For every source and every amount of gas, all operations on the way to the file and to the
highlights are defined, and so are those that show any diagnostic in its source. What graces and
staccato cut off, what pads a child or releases a voice, and every wait is taken from no less; ramps,
bends, tuplets, denominators and tempos are divided by something; and timelines, last notes, endings
and lines are where they are looked for. -/
theorem arithmetic_defined (settings : Settings) (source : String) :
    midi? settings source = some (midi settings source) ∧
      highlights? settings source = some (highlights settings source) ∧
      ∀ d : Diagnostic, d.excerpt? source = some (d.excerpt source) :=
  ⟨midi?_eq settings source, highlights?_eq settings source, fun d => d.excerpt?_eq source⟩

end Compiler
end TextScore
