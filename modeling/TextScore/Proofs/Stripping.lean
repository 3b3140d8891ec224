import Mathlib.Data.List.Chain
import TextScore.Proofs.Origins

/-! What is left when comments are stripped. It is told apart from nothing else: every character has
its place in the source, every line break is still there, and no mark of a comment is left, so that
stripping again changes nothing. -/
namespace TextScore

namespace Text
variable {source text : List Char} {line shown placed : List Placed}

/-- Nowhere in the text does a comment begin or end. -/
def Unmarked (text : List Char) : Prop := ¬ ['/', '='] <:+: text ∧ ¬ ['=', '/'] <:+: text

/-- The map tells for every character of the text where it stands in the source, and last where the
source ends. -/
structure Traces (map : OffsetMap) (text source : List Char) : Prop where
  size : map.size = text.length + 1
  last : map.back? = some source.length
  ordered : map.toList.Pairwise (· < ·)
  same : ∀ (i : Nat) (c : Char), text[i]? = some c →
    ∃ offset : Nat, map[i]? = some offset ∧ source[offset]? = some c
  breaks : ∀ offset : Nat, source[offset]? = some '\n' →
    ∃ i : Nat, text[i]? = some '\n' ∧ map[i]? = some offset

section Marks

/-- No `a` is followed by a `b`. -/
abbrev Parted (a b : Char) (line : List Placed) : Prop :=
  line.IsChain fun x y => ¬ (x.1 = a ∧ y.1 = b)

theorem parted_iff {a b : Char} : Parted a b line ↔ ¬ [a, b] <:+: line.map Prod.fst := by
  have moved : Parted a b line ↔ (line.map Prod.fst).IsChain fun x y => ¬ (x = a ∧ y = b) :=
    (List.isChain_map (R := fun x y => ¬ (x = a ∧ y = b)) Prod.fst).symm
  refine moved.trans ⟨fun parted inside => ?_, fun absent => ?_⟩
  · have pair : [a, b].IsChain fun x y => ¬ (x = a ∧ y = b) := List.IsChain.infix parted inside
    exact List.isChain_pair.mp pair ⟨rfl, rfl⟩
  · refine (List.isChain_isInfix _).imp fun x y inside both => absent ?_
    rwa [both.1, both.2] at inside

theorem parted_afterOpener? (rest : ∀ rest, afterOpener? line ≠ some rest) : Parted '=' '/' line := by
  induction line with
  | nil => exact .nil
  | cons a line ih =>
    cases line with
    | nil => exact .singleton a
    | cons b line =>
      rw [afterOpener?] at rest
      have later : afterOpener? (b :: line) = none := by
        cases found : afterOpener? (b :: line) with
        | none => rfl
        | some shown => exact absurd (congrArg (Option.or · _) found) (rest shown)
      refine .cons_cons (fun opens => ?_) (ih fun shown found =>
        Option.some_ne_none shown (found.symm.trans later))
      rw [later, if_pos opens] at rest
      exact rest line rfl

/-- Behind the last `=/` there is none. -/
theorem parted_of_afterOpener? (found : afterOpener? line = some shown) : Parted '=' '/' shown := by
  induction line with
  | nil => cases found
  | cons a line ih =>
    cases line with
    | nil => cases found
    | cons b line =>
      rcases Option.or_eq_some_iff.mp found with later | ⟨none, here⟩
      · exact ih later
      · split at here
        · cases here
          exact (parted_afterOpener? fun rest found => nomatch none.symm.trans found).tail
        · cases here

/-- Before the first `/=` there is none. -/
theorem parted_beforeCloser (line : List Placed) : Parted '/' '=' (beforeCloser line) := by
  fun_induction beforeCloser line with
  | case1 => exact .nil
  | case2 a b line other ih =>
    have front := beforeCloser_isPrefix (b :: line)
    cases shown : beforeCloser (b :: line) with
    | nil => exact .singleton a
    | cons c more =>
      rw [shown] at ih front
      obtain ⟨same, -⟩ := List.cons_prefix_cons.mp front
      exact .cons_cons (same ▸ other) ih
  | case3 line short =>
    cases line with
    | nil => exact .nil
    | cons a line => cases line with
      | nil => exact .singleton a
      | cons b line => exact absurd rfl (short a b line)

theorem unmarked_stripLine (line : List Placed) :
    Parted '/' '=' (stripLine line) ∧ Parted '=' '/' (stripLine line) := by
  refine ⟨parted_beforeCloser _, List.IsChain.prefix ?_ (beforeCloser_isPrefix _)⟩
  cases found : afterOpener? line with
  | none => exact parted_afterOpener? fun rest other => nomatch found.symm.trans other
  | some rest => exact parted_of_afterOpener? found

/-- A line break parts the lines. -/
theorem parted_stripLines {a b : Char} (first : a ≠ '\n') (second : b ≠ '\n')
    (lines : ∀ line, Parted a b (stripLine line)) (text : List Placed) :
    Parted a b (stripLines text) := by
  fun_induction stripLines text with
  | case1 text line cut => exact lines line
  | case2 text line newline rest cut ih =>
    have breaks : newline.1 = '\n' := by
      have head := List.head?_dropWhile_not (fun x : Placed => decide (x.1 ≠ '\n')) text
      rw [cut] at head
      simpa using head
    refine List.IsChain.append (lines line) (ih.cons fun x _ both => ?_) fun x _ y listed both => ?_
    · exact first (both.1.symm.trans breaks)
    · obtain rfl := Option.some.inj listed
      exact second (both.2.symm.trans breaks)

theorem unmarked_strip (source : List Char) : Unmarked (strip source).text := by
  refine ⟨parted_iff.mp ?_, parted_iff.mp ?_⟩
  · exact parted_stripLines (by decide) (by decide) (fun line => (unmarked_stripLine line).1) _
  · exact parted_stripLines (by decide) (by decide) (fun line => (unmarked_stripLine line).2) _

end Marks

section Unmarked

theorem afterOpener?_of_parted (parted : Parted '=' '/' line) : afterOpener? line = none := by
  induction line with
  | nil => rfl
  | cons a line ih =>
    cases line with
    | nil => rfl
    | cons b line =>
      obtain ⟨other, rest⟩ := List.isChain_cons_cons.mp parted
      rw [afterOpener?, ih rest, if_neg other]
      rfl

theorem beforeCloser_of_parted (parted : Parted '/' '=' line) : beforeCloser line = line := by
  induction line with
  | nil => rfl
  | cons a line ih =>
    cases line with
    | nil => rfl
    | cons b line =>
      obtain ⟨other, rest⟩ := List.isChain_cons_cons.mp parted
      rw [beforeCloser, if_neg other, ih rest]

theorem stripLine_of_parted (closed : Parted '/' '=' line) (opened : Parted '=' '/' line) :
    stripLine line = line := by
  rw [stripLine, afterOpener?_of_parted opened, Option.getD_none, beforeCloser_of_parted closed]

theorem parted_firstLine {a b : Char} {text : List Placed} (parted : Parted a b text) :
    Parted a b (text.takeWhile (·.1 ≠ '\n')) :=
  List.IsChain.prefix parted (List.takeWhile_prefix _)

/-- Without marks there are no comments. -/
theorem stripLines_of_parted {text : List Placed} (closed : Parted '/' '=' text)
    (opened : Parted '=' '/' text) : stripLines text = text := by
  fun_induction stripLines text with
  | case1 text line cut =>
    have whole := List.takeWhile_append_dropWhile (p := (·.1 ≠ '\n')) (l := text)
    rw [cut, List.append_nil] at whole
    rw [stripLine_of_parted (parted_firstLine closed) (parted_firstLine opened)]
    exact whole
  | case2 text line newline rest cut ih =>
    have whole := List.takeWhile_append_dropWhile (p := (·.1 ≠ '\n')) (l := text)
    rw [cut] at whole
    have after : rest <:+ text :=
      (List.suffix_cons newline rest).trans (whole ▸ List.suffix_append ..)
    rw [stripLine_of_parted (parted_firstLine closed) (parted_firstLine opened),
      ih (closed.suffix after) (opened.suffix after)]
    exact whole

theorem strip_of_unmarked (plain : Unmarked source) :
    strip source = ⟨source.zipIdx, source.length⟩ := by
  have chars : source.zipIdx.map Prod.fst = source := List.zipIdx_map_fst ..
  rw [Unmarked, ← chars] at plain
  rw [strip, stripLines_of_parted (parted_iff.mpr plain.1) (parted_iff.mpr plain.2)]

/-- Stripping again changes nothing, and every place stays its own. -/
theorem strip_strip (source : List Char) : (strip (strip source).text).text = (strip source).text ∧
    (strip (strip source).text).map = Array.range ((strip source).text.length + 1) := by
  rw [strip_of_unmarked (unmarked_strip source)]
  refine ⟨List.zipIdx_map_fst .., ?_⟩
  rw [Stripped.map, List.zipIdx_map_snd, ← List.range_eq_range', ← List.range_succ,
    List.toArray_range]

end Unmarked

section Traces

/-- Every line break is kept. -/
theorem breaks_stripLines {x : Placed} (text : List Placed) (listed : x ∈ text)
    (breaks : x.1 = '\n') : x ∈ stripLines text := by
  fun_induction stripLines text with
  | case1 text line cut =>
    have stays := List.dropWhile_eq_nil_iff.mp cut x listed
    exact absurd breaks (of_decide_eq_true stays)
  | case2 text line newline rest cut ih =>
    rw [← List.takeWhile_append_dropWhile (p := (·.1 ≠ '\n')) (l := text), cut, List.mem_append,
      List.mem_cons] at listed
    rcases listed with before | rfl | after
    · have stays := List.mem_takeWhile_imp (p := fun x : Placed => decide (x.1 ≠ '\n')) before
      exact absurd breaks (of_decide_eq_true stays)
    · exact List.mem_append_right _ List.mem_cons_self
    · exact List.mem_append_right _ (List.mem_cons_of_mem _ (ih after))

theorem getElem?_text {i : Nat} {c : Char} {offset : Nat}
    (kept : (strip source).kept[i]? = some (c, offset)) :
    (strip source).text[i]? = some c ∧ (strip source).map[i]? = some offset := by
  have inside : i < ((strip source).kept.map Prod.snd).length := by
    rw [List.length_map]
    exact (List.getElem?_eq_some_iff.mp kept).1
  rw [Stripped.text, Stripped.map, List.getElem?_toArray, List.getElem?_append_left inside,
    List.getElem?_map, List.getElem?_map, kept]
  exact ⟨rfl, rfl⟩

theorem traces_strip (source : List Char) :
    Traces (strip source).map (strip source).text source where
  size := by
    rw [Stripped.map, Stripped.text, List.size_toArray, List.length_append, List.length_map,
      List.length_map, List.length_singleton]
  last := by
    rw [Stripped.map, List.back?_toArray, List.getLast?_concat]
    rfl
  ordered := by
    have places : ((strip source).kept.map Prod.snd).Sublist (List.range source.length) := by
      rw [List.range_eq_range', ← List.zipIdx_map_snd]
      exact (stripLines_sublist _).map Prod.snd
    refine List.pairwise_append.mpr ⟨List.pairwise_lt_range.sublist places,
      List.pairwise_singleton _ _, fun offset listed last same => ?_⟩
    rw [List.mem_singleton.mp same]
    exact List.mem_range.mp (places.subset listed)
  same i c found := by
    rw [Stripped.text, List.getElem?_map] at found
    obtain ⟨⟨kept, offset⟩, there, rfl⟩ := Option.map_eq_some_iff.mp found
    obtain ⟨_, there', same⟩ := keeps_of_kept there
    cases there.symm.trans there'
    exact ⟨offset, (getElem?_text there).2, same⟩
  breaks offset found := by
    have listed : ('\n', offset) ∈ source.zipIdx := List.mem_zipIdx_iff_getElem?.mpr found
    obtain ⟨i, kept⟩ := List.getElem?_of_mem (breaks_stripLines _ listed rfl)
    exact ⟨i, getElem?_text kept⟩

end Traces

end Text

namespace Compiler
open Text (strip)

/-- A place of the stripped text is the same place for the text stripped again. -/
theorem source_source (source : List Char) (offset : Nat) :
    (strip source).map.source ((strip (strip source).text).map.source offset) =
      (strip source).map.source offset := by
  rcases Nat.lt_or_ge offset (strip source).text.length with inside | out
  · have itself : (strip (strip source).text).map.source offset = offset := by
      rw [Text.OffsetMap.source, (Text.strip_strip source).2, Array.getElem?_range,
        if_pos (Nat.lt_succ_of_lt inside)]
      rfl
    rw [itself]
  · have out' : (strip (strip source).text).text.length ≤ offset := by
      rw [(Text.strip_strip source).1]
      exact out
    rw [Text.source_end out', Text.source_end (Nat.le_refl _), Text.source_end out]

theorem tracks_strip (settings : Settings) (source : String) : tracks settings source =
    (tracks settings (String.ofList (strip source.toList).text)).mapError
      (Fault.remap (strip source.toList).map) := by
  have remap (fault : Fault) : (fault.remap (strip (strip source.toList).text).map).remap
      (strip source.toList).map = fault.remap (strip source.toList).map :=
    congrArg (Fault.mk fault.cause) (source_source ..)
  simp only [tracks, session, parse, String.toList_ofList, (Text.strip_strip _).1]
  cases Score.read (strip source.toList).text with
  | error fault => exact congrArg Except.error (remap fault).symm
  | ok score =>
    simp only [bind, Except.bind]
    cases perform settings score with
    | ok => rfl
    | error fault => exact congrArg Except.error (remap fault).symm

/-- Stripping tells where every character stands, keeps every line break, leaves no mark of a comment
and so nothing to strip, and what is left plays as the source does. Only the places of faults differ, as
the map has them. -/
theorem stripping_faithful (settings : Settings) (source : String) :
    Text.Traces (strip source.toList).map (strip source.toList).text source.toList ∧
      Text.Unmarked (strip source.toList).text ∧
      (strip (strip source.toList).text).text = (strip source.toList).text ∧
      (strip (strip source.toList).text).map =
        Array.range ((strip source.toList).text.length + 1) ∧
      tracks settings source =
        (tracks settings (String.ofList (strip source.toList).text)).mapError
          (Fault.remap (strip source.toList).map) :=
  ⟨Text.traces_strip _, Text.unmarked_strip _, (Text.strip_strip _).1, (Text.strip_strip _).2,
    tracks_strip settings source⟩

end Compiler
end TextScore
