import TextScore.Proofs.Breakpoints
import TextScore.Proofs.Ranges

/-! Where notes come from. Through groups, templates and repeats a note keeps the offset of the key or
the chord that was read for it, and what is reported of the text is taken back to the source. -/
namespace TextScore

/-- What sounds by itself. -/
def Item.Sounds : Item → Prop
  | .key _ | .chord _ => True
  | _ => False

/-- Keys and chords in an item begin at offsets of a kind. -/
abbrev Item.Sourced (good : Nat → Prop) : Item → Prop :=
  Item.Throughout fun item => item.Sounds → good item.offset

def Node.Sourced (good : Nat → Prop) (node : Node) : Prop := ∀ part ∈ node.parts, part.Sourced good

namespace Timeline
variable {good : Nat → Prop} {t : Timeline}

/-- The notes of a timeline stand at offsets of a kind. -/
def Sourced (good : Nat → Prop) (t : Timeline) : Prop := ∀ n ∈ t.notes, good n.offset

theorem Sourced.of_same (sourced : t.Sourced good) {t' : Timeline} (events : t'.events = t.events) :
    t'.Sourced good := by
  rw [Sourced, notes, events]
  exact sourced

theorem Sourced.push (sourced : t.Sourced good) (event : Event)
    (told : ∀ n ∈ event.note?, good n.offset) :
    Sourced good { t with events := t.events.push event } := by
  intro n listed
  rw [notes, Array.toList_push, List.filterMap_append, List.mem_append] at listed
  rcases listed with old | new
  · exact sourced n old
  · obtain ⟨other, only, same⟩ := List.mem_filterMap.mp new
    exact told n (List.mem_singleton.mp only ▸ same)

theorem Sourced.lengthenNote (sourced : t.Sourced good) (index ticks : Nat) :
    (t.lengthenNote index ticks).Sourced good := by
  intro n listed
  obtain ⟨event, member, same⟩ := List.mem_filterMap.mp listed
  obtain ⟨i, inside, rfl⟩ := Array.mem_iff_getElem.mp (Array.mem_toList_iff.mp member)
  dsimp only [Timeline.lengthenNote] at inside same
  rw [Array.size_modify] at inside
  have before : ∀ n ∈ t.events[i].note?, good n.offset := fun n was =>
    sourced n (List.mem_filterMap.mpr ⟨_, Array.mem_toList_iff.mpr (Array.getElem_mem inside), was⟩)
  rw [Array.getElem_modify] at same
  split at same
  · cases logged : t.events[i] with
    | note was =>
      rw [logged] at same before
      cases same
      exact before was rfl
    | program | controller =>
      rw [logged] at same
      exact nomatch same
  · exact before n same

/-- Whatever a timeline plays stands where it is played from. -/
theorem kind_sourced (good : Nat → Prop) : Kind (fun offset _ => good offset) (Sourced good) where
  list id slot sourced := by cases slot <;> exact sourced.of_same rfl
  child _ := nofun
  adopt _ own := own.of_same rfl
  calibrate ticks sourced := sourced.of_same (calibrate_still ticks _).events
  trail _ _ sourced := sourced.of_same rfl
  note {t draft} offset arpeggio known sourced := by
    refine (sourced.push (.note _) fun n same => ?_).of_same rfl
    cases same
    exact known
  lengthen index ticks sourced := sourced.lengthenNote index ticks
  shift _ sourced := sourced.of_same rfl

theorem Sourced.change (sourced : t.Sourced good) {f : Timeline → Timeline} (change : Change f) :
    (f t).Sourced good := by
  cases change with
  | state | endTuplet | bend | release => exact sourced.of_same rfl
  | instrument | controller => exact sourced.push _ nofun
  | bends bends => exact sourced.of_same (addBends_still bends t).events

end Timeline

namespace Session
variable {good : Nat → Prop} {stack : List Modifier} {s : Session}

/-- All that a session has to perform, and all that it has performed, stands at offsets of a kind. -/
structure Sourced (good : Nat → Prop) (stack : List Modifier) (s : Session) : Prop where
  defines : Defines (Stocked (Item.Sourced good)) stack s
  timelines : s.arena.Each (Timeline.Sourced good)

theorem Origin.sourced {offset : Nat} (origin : Origin (Item.Sourced good) offset) : good offset := by
  cases origin with
  | key within | chord within => exact (Item.throughout_iff.mp within).1 trivial

theorem registry_sourced (good : Nat → Prop) :
    Registry (fun _ => True) (Item.Sourced good) (Stocked (Item.Sourced good)) :=
  registry_stocked (fun _ => trivial) (fun _ => trivial)
    (fun within listed _ => (Item.throughout_iff.mp within).2 _ listed) fun _ => trivial

theorem Sourced.withArena (sourced : s.Sourced good stack) {arena : Arena}
    (timelines : arena.Each (Timeline.Sourced good)) : Sourced good stack { s with arena := arena } :=
  ⟨sourced.defines, timelines⟩

theorem custody_sourced (good : Nat → Prop) :
    Custody (fun _ => True) (fun _ => Item.Sourced good) (Sourced good) where
  fault _ := trivial
  stray _ := trivial
  inner within listed performs := (registry_sourced good).inner within listed performs
  spend _ sourced := ⟨sourced.defines, sourced.timelines⟩
  copy sourced := ⟨sourced.defines, sourced.timelines⟩
  graces _ sourced := ⟨sourced.defines, sourced.timelines⟩
  restore before sourced :=
    ⟨(registry_sourced good).custody.restore before.defines sourced.defines, sourced.timelines⟩
  stack sourced := sourced.defines.1
  pop sourced := ⟨(registry_sourced good).custody.pop sourced.defines, sourced.timelines⟩
  ornament within pushes sourced :=
    have ⟨each, defines⟩ := (registry_sourced good).custody.ornament within pushes sourced.defines
    ⟨each, defines, sourced.timelines⟩
  template _ sourced found _ _ := (registry_sourced good).template sourced.defines.2 found
  substitute octave _ low sourced :=
    ⟨(registry_sourced good).custody.substitute octave low sourced.defines, sourced.timelines⟩
  declare {stack offset id body} within := by
    refine .of_results (fun {s a t} sourced done => ?_) fun _ _ => trivial
    obtain ⟨-, rfl⟩ := declareGroup_ok done
    exact ⟨⟨sourced.defines.1, (registry_sourced good).declares within sourced.defines.2⟩,
      sourced.timelines⟩
  group _ sourced found := (registry_sourced good).group sourced.defines.2 found
  tuning kept _ tuning := kept.holds.withArena
    (kept.holds.timelines.adjust fun sourced => sourced.change tuning.change)
  tuplet {stack m live here offset size body unit s t} kept member _ begun := by
    have before := kept.holds.timelines here (kept.inside member)
    obtain ⟨-, -, rfl⟩ := Timeline.beginTuplet_ok begun
    exact ⟨kept.holds.withArena (kept.holds.timelines.adjust fun _ => before.of_same rfl),
      fun later => later.holds.withArena
        (later.holds.timelines.adjust fun sourced => sourced.of_same rfl)⟩
  branch kept member done := kept.holds.withArena
    (kept.holds.timelines.childAt (Timeline.kind_sourced good) (kept.inside member) done).2
  rest kept _ _ := kept.holds.withArena
    (kept.holds.timelines.adjust (Timeline.kind_sourced good).rest)
  tie kept member _ done := kept.holds.withArena
    (kept.holds.timelines.tie (Timeline.kind_sourced good) (kept.inside member) done)
  note {stack m live here pitches plain offset s t} origin kept _ _ _ staged := by
    obtain ⟨rfl, -⟩ := Custody.stage_ok staged
    exact ⟨kept.holds.defines, kept.holds.timelines.adjust
      ((Timeline.kind_sourced good).commit offset fun _ _ _ => origin.sourced)⟩
  arpeggio {stack m live here pitches plain chord interval ticks arena s t} kept member within _ _ _
    staged done := by
    have origin : good chord.offset := (Origin.chord within).sourced
    obtain ⟨rfl, -⟩ := Custody.stage_ok staged
    exact ⟨kept.holds.defines, kept.holds.timelines.commitArpeggio (Timeline.kind_sourced good)
      (kept.inside member) (fun _ _ _ => origin) (fun _ _ _ _ _ _ => origin) done⟩

theorem stewardship_sourced (good : Nat → Prop) :
    Stewardship (fun _ => Item.Sourced good) (Sourced good) (Node.Sourced good) where
  custody := custody_sourced good
  item known := known _ List.mem_cons_self
  replay {node again} known played := by
    rcases Node.replay_cases played with rfl | ⟨offset, id, body, rfl, rfl⟩
    · exact known
    · exact List.forall_mem_singleton.mpr (Item.throughout_iff.mpr ⟨nofun, nofun⟩)
  begins _ _ sourced := ⟨sourced.defines, sourced.timelines.create nofun⟩
  repeats _ _ sourced := ⟨sourced.defines, sourced.timelines.adjust fun known => known.of_same rfl⟩
  define known sourced := ⟨⟨sourced.defines.1, sourced.defines.2.define known⟩, sourced.timelines⟩
  emojis _ sourced :=
    ⟨⟨sourced.defines.1, sourced.defines.2.groups, sourced.defines.2.templates⟩, sourced.timelines⟩
  conduct _ _ _ sourced := ⟨sourced.defines, sourced.timelines⟩
  fermata _ _ sourced := ⟨sourced.defines, sourced.timelines⟩

/-- Whatever a score plays stands where a key or a chord of it begins. -/
theorem Plays.sourced {score : List Node} {gas : Nat} (plays : Plays score gas s)
    (nodes : ∀ node ∈ score, node.Sourced good) : s.arena.Each (Timeline.Sourced good) :=
  ((stewardship_sourced good).plays ⟨⟨rfl, nofun, nofun⟩, nofun⟩ nodes plays).1.timelines

end Session

namespace Score
variable {text : List Char} {score : List Node} {item part : Item} {c : Cursor}

/-- What a score is made of, as far as it is performed. -/
def Performs (score : List Node) (item : Item) : Prop :=
  ∃ node ∈ score, ∃ part ∈ node.parts,
    Relation.ReflTransGen (fun outer inner => inner ∈ outer.inner) part item

/-- A key or a chord of the score begins at this offset of its text, and is read there. -/
def Begins (text : List Char) (score : List Node) (offset : Nat) : Prop :=
  ∃ item : Item, item.Sounds ∧ Performs score item ∧ item.offset = offset ∧
    item.ReadAt ⟨offset, text.drop offset⟩

theorem parts_of_inner {outer inner : Item} (listed : inner ∈ outer.inner) :
    inner ∈ outer.parts := by
  cases outer with
  | range | ornament | group | parallel => exact listed
  | graced => exact List.mem_append_right _ listed
  | _ => exact nomatch listed

theorem spelled_of_path (spelled : part.Spelled c)
    (path : Relation.ReflTransGen (fun outer inner => inner ∈ outer.inner) part item) :
    item.Spelled c := by
  induction path with
  | refl => exact spelled
  | tail _ listed ih =>
    obtain ⟨-, -, -, parts⟩ := ih
    exact parts _ (parts_of_inner listed)

/-- Whatever sounds in a score that is read begins where it is read. -/
theorem read_sourced (done : read text = .ok score) :
    ∀ node ∈ score, node.Sourced (Begins text score) := by
  intro node listed part among item path sounds
  obtain ⟨leads, begins, read, -⟩ := spelled_of_path (read_spelled done node listed part among) path
  have further := leads.rest
  dsimp only at further
  rw [Nat.sub_zero, ← begins] at further
  refine ⟨item, sounds, ⟨node, listed, part, among, path⟩, rfl, ?_⟩
  rw [← further, begins]
  exact read

/-- Nothing begins behind the text. -/
theorem Begins.inside {offset : Nat} (begins : Begins text score offset) : offset < text.length := by
  refine Nat.lt_of_not_le fun out => ?_
  obtain ⟨item, sounds, -, -, read⟩ := begins
  rw [List.drop_eq_nil_of_le out] at read
  cases item with
  | key k =>
    obtain ⟨c', read⟩ := read
    exact nomatch read
  | chord ch =>
    obtain ⟨limit, c', read⟩ := read
    exact nomatch read
  | _ => exact sounds

end Score

namespace Text
variable {source : List Char} {offset i : Nat} {c : Char}

theorem stripLines_sublist (text : List Placed) : (stripLines text).Sublist text := by
  fun_induction stripLines text with
  | case1 text line cut =>
    exact (stripLine_sublist _).trans (List.takeWhile_sublist _)
  | case2 text line newline rest cut ih =>
    rw [← List.takeWhile_append_dropWhile (p := (·.1 ≠ '\n')) (l := text), cut]
    exact (stripLine_sublist _).append (ih.cons_cons newline)

/-- Stripping keeps this character of the source, as one of the text. -/
def Keeps (source : List Char) (i offset : Nat) : Prop :=
  ∃ c, (strip source).kept[i]? = some (c, offset) ∧ source[offset]? = some c

theorem keeps_of_kept (found : (strip source).kept[i]? = some (c, offset)) :
    Keeps source i offset := by
  refine ⟨c, found, ?_⟩
  have member := (stripLines_sublist _).subset (List.mem_of_getElem? found)
  exact List.mem_zipIdx_iff_getElem?.mp member

/-- Offsets of the text are taken to characters that are kept. -/
theorem keeps_source (inside : i < (strip source).text.length) :
    Keeps source i ((strip source).map.source i) := by
  rw [Stripped.text, List.length_map] at inside
  have found : (strip source).kept[i]? = some (strip source).kept[i] :=
    List.getElem?_eq_getElem inside
  have there : (strip source).map.source i = ((strip source).kept[i]).2 := by
    rw [OffsetMap.source, Stripped.map, List.getElem?_toArray, List.getElem?_append_left
      (by rwa [List.length_map]), List.getElem?_map, found]
    rfl
  rw [there]
  exact keeps_of_kept found

/-- All others are taken to the end of the source. -/
theorem source_end (out : (strip source).text.length ≤ i) :
    (strip source).map.source i = source.length := by
  rw [Stripped.text, List.length_map] at out
  have last : (strip source).map.back? = some source.length := by
    rw [Stripped.map, List.back?_toArray, List.getLast?_concat]
    rfl
  rw [OffsetMap.source, last]
  cases found : (strip source).map[i]? with
  | none => rfl
  | some offset =>
    rw [Stripped.map, List.getElem?_toArray, List.getElem?_append_right (by rwa [List.length_map])]
      at found
    exact List.mem_singleton.mp (List.mem_of_getElem? found)

end Text

namespace Compiler
variable {settings : Settings} {source : String} {shown : List Highlight}

theorem highlights_ok (done : highlights settings source = .ok shown) :
    ∃ s stripped, session settings source = .ok (s, stripped) ∧ shown =
      (Highlight.ofArena s.arena s.conductor).map fun h =>
        { h with offset := stripped.map.source h.offset } := by
  simp only [highlights, bind, Except.bind] at done
  split at done
  · cases done
  · next pair performed =>
    cases done
    exact ⟨pair.1, pair.2, performed, rfl⟩

/-- Whatever is reported of a source is a place in it: faults are where a character is kept or where
the source ends, and what is highlighted is where a key or a chord of the score begins. -/
theorem offsets_point_into_source (settings : Settings) (source : String) :
    (∀ fault, tracks settings source = .error fault ∨ highlights settings source = .error fault →
      ∃ raised, Raises settings source raised ∧ fault.cause = raised.cause ∧
        (fault.offset = source.toList.length ∨
          Text.Keeps source.toList raised.offset fault.offset)) ∧
    ∀ shown, highlights settings source = .ok shown →
      ∃ score, Score.read (Text.strip source.toList).text = .ok score ∧
        ∀ h ∈ shown, ∃ i, Text.Keeps source.toList i h.offset ∧
          Score.Begins (Text.strip source.toList).text score i := by
  refine ⟨fun fault failed => ?_, fun shown done => ?_⟩
  · obtain ⟨raised, raises, rfl⟩ := session_raises (failed.elim tracks_error highlights_error)
    refine ⟨raised, raises, rfl, ?_⟩
    rcases Nat.lt_or_ge raised.offset (Text.strip source.toList).text.length with inside | out
    · exact .inr (Text.keeps_source inside)
    · exact .inl (Text.source_end out)
  · obtain ⟨s, stripped, performed, rfl⟩ := highlights_ok done
    obtain ⟨score, parsed, plays⟩ := session_parsed performed
    obtain rfl := parse_stripped parsed
    refine ⟨score, parse_read parsed, fun h listed => ?_⟩
    obtain ⟨raw, among, rfl⟩ := List.mem_map.mp listed
    obtain ⟨n, noted, rfl⟩ := List.mem_map.mp (List.mem_mergeSort.mp among)
    obtain ⟨t, member, inside⟩ := List.mem_flatMap.mp noted
    obtain ⟨id, present, rfl⟩ := Array.mem_iff_getElem.mp (Array.mem_toList_iff.mp member)
    have known := plays.sourced (Score.read_sourced (parse_read parsed)) id present
    rw [Arena.timeline, Array.getElem?_eq_getElem present] at known
    have begins := known n inside
    exact ⟨n.offset, Text.keeps_source begins.inside, begins⟩

/-- Between two comments: a letter that is none of a key, and two keys. -/
theorem offsets_point_between_comments : ∃ i j shown,
    tracks {} "c=/d q/=y" = .error ⟨.unexpectedCharacter 'q', 5⟩ ∧
      Text.Keeps "c=/d q/=y".toList i 5 ∧
      highlights {} "c=/ve d/=y" = .ok shown ∧ (shown.map Highlight.offset).Perm [3, 6] ∧
      Text.Keeps "c=/ve d/=y".toList j 6 := by
  have failed : tracks {} "c=/d q/=y" = .error ⟨.unexpectedCharacter 'q', 5⟩ := by
    have refused : tracks {} "c=/d q/=y" matches .error ⟨.unexpectedCharacter 'q', 5⟩ := by
      decide +kernel
    split at refused
    · next stuck => exact stuck
    · exact nomatch refused
  obtain ⟨raised, -, -, place⟩ := (offsets_point_into_source {} "c=/d q/=y").1 _ (.inl failed)
  have performed : (session {} "c=/ve d/=y").toOption.map (fun pair =>
      (pair.1.arena.timelines.toList.flatMap Timeline.notes).map (pair.2.map.source ·.offset)) =
        some [3, 6] := by decide +kernel
  cases shows : highlights {} "c=/ve d/=y" with
  | error fault =>
    rw [highlights_error shows] at performed
    exact nomatch performed
  | ok shown =>
    obtain ⟨s, stripped, done, same⟩ := highlights_ok shows
    rw [done] at performed
    have offsets : (shown.map Highlight.offset).Perm [3, 6] := by
      rw [← Option.some.inj performed, same, List.map_map]
      refine ((List.mergeSort_perm ..).map _).trans (.of_eq ?_)
      rw [List.map_map]
      rfl
    obtain ⟨h, listed, there⟩ := List.mem_map.mp (offsets.mem_iff.mpr (by decide : 6 ∈ [3, 6]))
    obtain ⟨score, -, points⟩ := (offsets_point_into_source {} "c=/ve d/=y").2 shown shows
    obtain ⟨j, kept, -⟩ := points h listed
    exact ⟨_, j, shown, failed, place.resolve_left (by decide), rfl, offsets, there ▸ kept⟩

end Compiler
end TextScore
