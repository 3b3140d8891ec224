import Mathlib.Data.Bool.AllAny
import TextScore.Proofs.Rendering

/-! Reading what has been rendered, up to words, numbers, keys and chords. A reader takes exactly the
text of what it reads and leaves the rest. -/
namespace TextScore

namespace Reader
variable {α β : Type} {p : Reader α} {f : α → Reader β} {a : α} {c c' : Cursor} {offset : Nat}
  {text gap rest : List Char}

theorem run_bind_ok (done : p.run c = .ok (a, c')) : (p >>= f).run c = (f a).run c' := by
  rw [StateT.run_bind, done]
  rfl

theorem ok_at {n m : Nat} (same : n = m) :
    (.ok (a, ⟨n, rest⟩) : Except Fault (α × Cursor)) = .ok (a, ⟨m, rest⟩) := same ▸ rfl

theorem run_offset_bind {f : Nat → Reader β} :
    (Reader.offset >>= f).run c = (f c.offset).run c := rfl

theorem run_peek_bind {f : Option Char → Reader β} :
    (peek >>= f).run c = (f c.rest.head?).run c := rfl

theorem run_get_bind {f : Cursor → Reader β} : (get >>= f).run c = (f c).run c := rfl

theorem run_skip_bind {f : Unit → Reader β} (count : Nat) :
    (skip count >>= f).run c = (f ()).run ⟨c.offset + count, c.rest.drop count⟩ := rfl

theorem run_expect (sign : Char) (rest : List Char) :
    (expect sign).run ⟨offset, sign :: rest⟩ = .ok ((), ⟨offset + 1, rest⟩) := by
  have found : (expect sign).run ⟨offset, sign :: rest⟩ =
    (if some sign = some sign then skip 1 else fail (.expectedCharacter sign (some sign))).run
      ⟨offset, sign :: rest⟩ := rfl
  rw [found, if_pos rfl]
  rfl

theorem run_takeWhile_all {p : Char → Bool} (all : ∀ c ∈ text, p c)
    (ended : ∀ c ∈ rest.head?, p c = false) :
    (takeWhile p).run ⟨offset, text ++ rest⟩ = .ok (text, ⟨offset + text.length, rest⟩) := by
  have stops : rest.takeWhile p = [] ∧ rest.dropWhile p = rest := by
    cases rest with
    | nil => exact ⟨rfl, rfl⟩
    | cons c rest =>
      have ended := Bool.eq_false_iff.mp (ended c rfl)
      exact ⟨List.takeWhile_cons_of_neg ended, List.dropWhile_cons_of_neg ended⟩
  rw [run_takeWhile]
  dsimp only
  rw [List.takeWhile_append_of_pos all, List.dropWhile_append_of_pos all, stops.1, stops.2,
    List.append_nil]

theorem head_stops {p : Char → Bool} {c : Char} (stops : p c = false) :
    ∀ d ∈ (c :: rest).head?, p d = false := fun _ first => Option.some.inj first ▸ stops

theorem run_skipBlanks (blank : ∀ c ∈ gap, Text.isBlank c)
    (ended : ∀ c ∈ rest.head?, Text.isBlank c = false) :
    skipBlanks.run ⟨offset, gap ++ rest⟩ = .ok ((), ⟨offset + gap.length, rest⟩) :=
  run_bind_ok (run_takeWhile_all blank ended)

theorem run_skipBlanks_none {c : Char} (solid : Text.isBlank c = false) :
    skipBlanks.run ⟨offset, c :: rest⟩ = .ok ((), ⟨offset, c :: rest⟩) :=
  @run_skipBlanks _ [] _ nofun (head_stops solid)

theorem run_skipBlanks_one {c : Char} (solid : Text.isBlank c = false) :
    skipBlanks.run ⟨offset, ' ' :: c :: rest⟩ = .ok ((), ⟨offset + 1, c :: rest⟩) :=
  @run_skipBlanks _ [' '] _ (List.forall_mem_singleton.mpr rfl) (head_stops solid)

end Reader

namespace Score
open Reader

/-- What may stand behind an item. -/
def Ends (rest : List Char) : Prop := ∀ c ∈ rest.head?, c ∈ [' ', ')', ']', '\x7d', '>', '|']

theorem Ends.head {p : Char → Bool} {rest : List Char} (ends : Ends rest)
    (all : ∀ c ∈ [' ', ')', ']', '\x7d', '>', '|'], p c = false) : ∀ c ∈ rest.head?, p c = false :=
  fun c first => all c (ends c first)

theorem ends_cons {c : Char} (rest : List Char) (closes : c ∈ [' ', ')', ']', '\x7d', '>', '|']) :
    Ends (c :: rest) := fun _ first => Option.some.inj first ▸ closes

/-- Blanks that may stand before an item. -/
def IsGap (gap : List Char) : Prop := gap = [] ∨ gap = [' ']

theorem IsGap.blank {gap : List Char} (isGap : IsGap gap) : ∀ c ∈ gap, Text.isBlank c := by
  rcases isGap with rfl | rfl
  · exact nofun
  · exact List.forall_mem_singleton.mpr rfl

variable {α β ξ γ : Type} {offset limit : Nat} {text rest : List Char}

/-- Behind anything that may end an item the reader takes this text and reads something of this
kind. -/
def Reads (p : Reader α) (text : List Char) (F : α → Prop) : Prop :=
  ∀ offset rest, Ends rest →
    ∃ a, F a ∧ p.run ⟨offset, text ++ rest⟩ = .ok (a, ⟨offset + text.length, rest⟩)

theorem spaced_cons (text : List Char) (texts : List (List Char)) :
    spaced (text :: texts) = text ++ texts.flatMap (' ' :: ·) := by
  induction texts generalizing text with
  | nil => simp only [spaced, List.intercalate_singleton, List.flatMap_nil, List.append_nil]
  | cons other texts ih =>
    have more : spaced (text :: other :: texts) = text ++ ' ' :: spaced (other :: texts) := by
      simp only [spaced, List.intercalate_cons_cons, List.append_assoc, List.singleton_append]
    rw [more, ih, List.flatMap_cons, List.cons_append]

section Collect
variable {step : Reader (Option α)} {view : α → γ} {view' : ξ → γ} {spell : ξ → List Char}
  {xs : List ξ} {close : List Char}

theorem run_collect_none {c c' : Cursor} (last : step.run c = .ok (none, c')) :
    (collect (limit + 1) step).run c = .ok ([], c') := run_bind_ok last

theorem run_collect_some {c c' c'' : Cursor} {a : α} {as : List α}
    (first : step.run c = .ok (some a, c')) (more : (collect limit step).run c' = .ok (as, c'')) :
    (collect (limit + 1) step).run c = .ok (a :: as, c'') :=
  (run_bind_ok first).trans (run_bind_ok more)

theorem run_collect_cons {text tail : List Char} {x : γ} {ys : List γ} {length : Nat}
    (first : Reads step text fun read => ∃ a, read = some a ∧ view a = x) (ends : Ends tail)
    (more : ∀ offset, ∃ as, as.map view = ys ∧
      (collect limit step).run ⟨offset, tail⟩ = .ok (as, ⟨offset + length, rest⟩)) (offset : Nat) :
    ∃ as, as.map view = x :: ys ∧ (collect (limit + 1) step).run ⟨offset, text ++ tail⟩ =
      .ok (as, ⟨offset + (text.length + length), rest⟩) := by
  obtain ⟨_, ⟨a, rfl, same⟩, read⟩ := first offset tail ends
  obtain ⟨as, all, collected⟩ := more (offset + text.length)
  refine ⟨a :: as, by rw [List.map_cons, same, all], ?_⟩
  rw [run_collect_some read collected, Nat.add_assoc]

variable (each : ∀ x ∈ xs, ∀ gap, IsGap gap →
    Reads step (gap ++ spell x) fun read => ∃ a, read = some a ∧ view a = view' x)
  (last : ∀ offset, step.run ⟨offset, close ++ rest⟩ = .ok (none, ⟨offset + close.length, rest⟩))
  (ends : Ends (close ++ rest))
include each last ends

/-- One blank stands before each sibling but the first. -/
theorem run_collect_more (enough : xs.length < limit) (offset : Nat) :
    ∃ as, as.map view = xs.map view' ∧
      (collect limit step).run ⟨offset, xs.flatMap (' ' :: spell ·) ++ (close ++ rest)⟩ =
        .ok (as, ⟨offset + ((xs.flatMap (' ' :: spell ·)).length + close.length), rest⟩) := by
  induction xs generalizing limit offset with
  | nil => cases limit with
    | zero => exact absurd enough (Nat.not_lt_zero _)
    | succ limit =>
      refine ⟨[], rfl, ?_⟩
      rw [List.flatMap_nil, List.nil_append, run_collect_none (last offset), List.length_nil,
        Nat.zero_add]
  | cons x xs ih => cases limit with
    | zero => exact absurd enough (Nat.not_lt_zero _)
    | succ limit =>
      have follow : Ends (xs.flatMap (' ' :: spell ·) ++ (close ++ rest)) := by
        cases xs with
        | nil => exact ends
        | cons => exact ends_cons _ (by decide)
      have more := run_collect_cons (each x List.mem_cons_self [' '] (.inr rfl)) follow
        (ih (fun y listed => each y (List.mem_cons_of_mem x listed)) (Nat.lt_of_succ_lt_succ enough))
        offset
      simpa only [List.flatMap_cons, List.append_assoc, List.singleton_append, List.map_cons,
        List.length_append, Nat.add_assoc] using more

/-- Siblings are read one after the other, up to what closes them. -/
theorem run_collect {gap : List Char} (isGap : IsGap gap) (front : xs = [] → gap = [])
    (enough : xs.length < limit) (offset : Nat) :
    ∃ as, as.map view = xs.map view' ∧
      (collect limit step).run ⟨offset, gap ++ (spaced (xs.map spell) ++ (close ++ rest))⟩ =
        .ok (as, ⟨offset + (gap.length + ((spaced (xs.map spell)).length + close.length)), rest⟩) := by
  cases xs with
  | nil =>
    obtain rfl := front rfl
    obtain ⟨as, same, read⟩ := run_collect_more each last ends enough offset
    refine ⟨as, same, read.trans (ok_at ?_)⟩
    rw [List.length_nil, Nat.zero_add]
    rfl
  | cons x xs => cases limit with
    | zero => exact absurd enough (Nat.not_lt_zero _)
    | succ limit =>
      have follow : Ends (xs.flatMap (' ' :: spell ·) ++ (close ++ rest)) := by
        cases xs with
        | nil => exact ends
        | cons => exact ends_cons _ (by decide)
      have more := run_collect_cons (each x List.mem_cons_self gap isGap) follow
        (run_collect_more (fun y listed => each y (List.mem_cons_of_mem x listed)) last ends
          (Nat.lt_of_succ_lt_succ enough)) offset
      simpa only [List.map_cons, spaced_cons, List.flatMap_map, List.append_assoc,
        List.length_append, Nat.add_assoc] using more

end Collect

section Tokens

theorem run_word {s : String} (known : Word s) (ended : ∀ c ∈ rest.head?, isWordChar c = false) :
    word.run ⟨offset, s.toList ++ rest⟩ = .ok (s, ⟨offset + s.toList.length, rest⟩) := by
  have some : ¬ s.toList.isEmpty := fun empty => known.1 (List.isEmpty_iff.mp empty)
  rw [word, run_bind_ok (run_takeWhile_all known.2 ended), if_neg some, String.ofList_toList]
  rfl

theorem run_emojiSymbol {s : String} (known : Symbol s)
    (ended : ∀ c ∈ rest.head?, isEmoji c = false) :
    emojiSymbol.run ⟨offset, s.toList ++ rest⟩ = .ok (s, ⟨offset + s.toList.length, rest⟩) := by
  have some : ¬ s.toList.isEmpty := fun empty => known.1 (List.isEmpty_iff.mp empty)
  rw [emojiSymbol, run_bind_ok (run_takeWhile_all known.2 ended), if_neg some, String.ofList_toList]
  rfl

theorem isDigit_of_mem_digits {n : Nat} {c : Char} (listed : c ∈ digits n) : c.isDigit :=
  Nat.isDigit_of_mem_toDigits (by decide) (by decide) listed

theorem solid_of_isDigit {c : Char} (digit : c.isDigit) : Text.isBlank c = false := by
  have range : 48 ≤ c.toNat ∧ c.toNat ≤ 57 := by
    simp only [Char.isDigit, Bool.and_eq_true, decide_eq_true_eq] at digit
    exact ⟨UInt32.le_iff_toNat_le.mp digit.1, UInt32.le_iff_toNat_le.mp digit.2⟩
  simp only [Text.isBlank, Bool.or_eq_false_iff, Bool.and_eq_false_iff, decide_eq_false_iff_not,
    beq_eq_false_iff_ne]
  omega

theorem digits_ne_nil (n : Nat) : digits n ≠ [] := Nat.toDigits_ne_nil

theorem digitsValue_digits (n : Nat) : Text.digitsValue (digits n) = n :=
  Nat.ofDigitChars_toDigits (by decide) (by decide)

theorem run_number {n : Nat} (small : n ≤ Duration.greatest)
    (ended : ∀ c ∈ rest.head?, c.isDigit = false) :
    number.run ⟨offset, digits n ++ rest⟩ = .ok (n, ⟨offset + (digits n).length, rest⟩) := by
  have some : ¬ (digits n).isEmpty := fun empty => digits_ne_nil n (List.isEmpty_iff.mp empty)
  have fits : ¬ Duration.greatest < n := Nat.not_lt_of_le small
  rw [number, run_offset_bind,
    run_bind_ok (run_takeWhile_all (fun _ => isDigit_of_mem_digits) ended), if_neg some,
    digitsValue_digits, if_neg fits]
  rfl

theorem count_marks {up down : Char} (apart : up ≠ down) (n : Int) :
    Int.ofNat ((marks up down n).count up) - Int.ofNat ((marks up down n).count down) = n := by
  unfold marks
  split
  · rw [List.count_replicate_self, List.count_replicate, if_neg (by simpa using apart)]
    simp only [Int.ofNat_eq_natCast]
    omega
  · rw [List.count_replicate_self, List.count_replicate, if_neg (by simpa using apart.symm)]
    simp only [Int.ofNat_eq_natCast]
    omega

theorem mem_marks {up down c : Char} {n : Int} (listed : c ∈ marks up down n) : c ∈ [up, down] := by
  unfold marks at listed
  split at listed
  · rw [(List.mem_replicate.mp listed).2]
    exact List.mem_cons_self
  · rw [(List.mem_replicate.mp listed).2]
    exact List.mem_cons_of_mem _ List.mem_cons_self

theorem run_marks {up down : Char} {n : Int} {f : List Char → Reader β}
    (ended : ∀ c ∈ rest.head?, decide (c ∈ [up, down]) = false) :
    ((takeWhile (· ∈ [up, down])) >>= f).run ⟨offset, marks up down n ++ rest⟩ =
      (f (marks up down n)).run ⟨offset + (marks up down n).length, rest⟩ :=
  run_bind_ok (run_takeWhile_all (fun _ listed => decide_eq_true (mem_marks listed)) ended)

/-- Signs that tones are spelled by. -/
def toneSigns : List Char :=
  ['x', 'c', '도', 'C', '돗', '렢', 'd', '레', 'D', '렛', '밒', 'e', '미', 'f', '파', 'F', '팟', '솚',
    'g', '솔', 'G', '솘', '랖', 'a', '라', 'A', '랏', '싶', 'b', '시']

theorem mem_toneSigns {c : Char} {n : Nat} (read : Pitch.class? c = some n) : c ∈ toneSigns := by
  unfold Pitch.class? at read
  split at read
  all_goals first | decide | cases read

section Keys
variable {sp : Spelling} {k : Key} (known : k.Grammatical)
include known

/-- A tone is read as what it was spelled by. -/
theorem class?_render (sp : Spelling) : k.tone = .placeholder ∧ k.tone.render sp = 'x' ∨
    ∃ n, k.tone = .pitchClass n ∧ Pitch.class? (k.tone.render sp) = some n := by
  cases tone : k.tone with
  | placeholder => exact .inl ⟨rfl, rfl⟩
  | pitchClass n => exact .inr ⟨n, rfl, sp.letter_class n (known n tone)⟩

theorem render_mem_toneSigns : k.tone.render sp ∈ toneSigns := by
  rcases class?_render known sp with ⟨-, spelled⟩ | ⟨n, -, spelled⟩
  · rw [spelled]
    exact List.mem_cons_self
  · exact mem_toneSigns spelled

theorem run_key (ends : Ends rest) : key.run ⟨offset, k.render sp ++ rest⟩ =
    .ok ({ k with offset := offset }, ⟨offset + (k.render sp).length, rest⟩) := by
  have finish (c : Char) : (do
      skip 1
      let accidentals ← takeWhile (· ∈ ['+', '-'])
      return {
        offset := offset
        tone := k.tone
        octave := Int.ofNat ((marks '^' 'v' k.octave).count '^') -
          Int.ofNat ((marks '^' 'v' k.octave).count 'v')
        semitones := Int.ofNat (accidentals.count '+') - Int.ofNat (accidentals.count '-') } :
          Reader Key).run
        ⟨offset + (marks '^' 'v' k.octave).length, c :: (marks '+' '-' k.semitones ++ rest)⟩ =
      .ok ({ k with offset := offset },
        ⟨offset + (marks '^' 'v' k.octave ++ c :: marks '+' '-' k.semitones).length, rest⟩) := by
    have plain : ∀ c ∈ rest.head?, decide (c ∈ ['+', '-']) = false :=
      ends.head (p := fun c => decide (c ∈ ['+', '-'])) (List.all_iff_forall_prop.mp (by decide))
    rw [run_skip_bind, List.drop_succ_cons, List.drop_zero, run_marks plain,
      count_marks (by decide), count_marks (by decide), List.length_append, List.length_cons]
    exact ok_at (by dsimp only; omega)
  have unmarked : decide (k.tone.render sp ∈ ['^', 'v']) = false := by
    -- along the list: there are finitely many characters, too, and `decide` may try them all
    have all : ∀ c ∈ toneSigns, decide (c ∈ ['^', 'v']) = false :=
      List.all_iff_forall_prop.mp (by decide)
    exact all _ (render_mem_toneSigns known)
  have spelled := class?_render known sp
  rw [key, run_offset_bind, Key.render, List.append_assoc, List.cons_append]
  generalize k.tone.render sp = sign at *
  rw [run_marks (fun c first => Option.some.inj first ▸ unmarked), run_peek_bind, ← finish,
    List.head?_cons]
  rcases spelled with ⟨tone, rfl⟩ | ⟨n, tone, spelled⟩
  · simp only [tone, pure_bind]
  · split
    · next same => exact nomatch same
    · next same =>
      cases same
      exact nomatch spelled
    · next same =>
      cases same
      simp only [tone, spelled, pure_bind]

/-- A key begins with a mark of octaves or with its tone. -/
theorem exists_render_key (sp : Spelling) :
    ∃ c cs, k.render sp = c :: cs ∧ c ∈ '^' :: 'v' :: toneSigns := by
  rw [Key.render]
  cases raised : marks '^' 'v' k.octave with
  | nil =>
    exact ⟨_, _, rfl, List.mem_cons_of_mem _ (List.mem_cons_of_mem _ (render_mem_toneSigns known))⟩
  | cons c cs =>
    have mark : c ∈ ['^', 'v'] := mem_marks (raised ▸ List.mem_cons_self)
    exact ⟨c, _, rfl, List.mem_append_left toneSigns mark⟩

end Keys

theorem run_setting {s : Setting} (known : s.Grammatical) (rest : List Char) :
    setting.run ⟨offset, s.render ++ rest⟩ =
      .ok ({ s with offset := offset }, ⟨offset + s.render.length, rest⟩) := by
  have text : s.render ++ rest = '(' :: (s.key.toList ++ '=' :: (s.value.toList ++ ')' :: rest)) := by
    simp only [Setting.render, List.cons_append, List.append_assoc, List.nil_append]
  rw [text, setting, run_offset_bind, run_bind_ok (run_expect '(' _),
    run_bind_ok (run_word known.1 (head_stops (by decide))), run_bind_ok (run_expect '=' _),
    run_bind_ok (run_word known.2 (head_stops (by decide))), run_bind_ok (run_expect ')' _), Setting.render]
  refine ok_at ?_
  simp only [List.length_cons, List.length_append, List.length_nil]
  omega

/-- One key of a chord, or its end. -/
def chordStep (start : Nat) : Reader (Option Key) := do
  skipBlanks
  match ← peek with
  | none => failAt start .unclosedChord
  | some ']' => skip 1; return none
  | some _ => return some (← key)

theorem reads_chordStep {sp : Spelling} {k : Key} (known : k.Grammatical) (start : Nat)
    {gap : List Char} (isGap : IsGap gap) : Reads (chordStep start) (gap ++ k.render sp) fun read =>
      ∃ k', read = some k' ∧ k'.placeless = k.placeless := by
  intro offset rest ends
  obtain ⟨first, more, rendered, sign⟩ := exists_render_key known sp
  have all : ∀ c ∈ '^' :: 'v' :: toneSigns, c ≠ ']' ∧ Text.isBlank c = false :=
    List.all_iff_forall_prop.mp (by decide)
  obtain ⟨inside, solid⟩ := all first sign
  have head : (k.render sp ++ rest).head? = some first := by
    rw [rendered]
    rfl
  refine ⟨_, ⟨{ k with offset := offset + gap.length }, rfl, rfl⟩, ?_⟩
  rw [chordStep, List.append_assoc, run_bind_ok (run_skipBlanks isGap.blank fun c same =>
    Option.some.inj (head.symm.trans same) ▸ solid), run_peek_bind]
  dsimp only
  rw [head]
  split
  · next same => exact nomatch same
  · next same => exact absurd (Option.some.inj same) inside
  · rw [run_bind_ok (run_key known ends), List.length_append, ← Nat.add_assoc]
    rfl

theorem run_chordStep_end (start offset : Nat) (rest : List Char) :
    (chordStep start).run ⟨offset, [']'] ++ rest⟩ = .ok (none, ⟨offset + 1, rest⟩) :=
  run_bind_ok (run_skipBlanks_none (by decide))

/-- Behind its opening a chord goes on with a key or ends. -/
theorem exists_chord_keys {keys : List Key} (known : ∀ k ∈ keys, k.Grammatical) (sp : Spelling) :
    ∃ c cs, spaced (keys.map (Key.render sp)) ++ [']'] = c :: cs ∧
      c ∈ ']' :: '^' :: 'v' :: toneSigns := by
  cases keys with
  | nil => exact ⟨']', [], rfl, List.mem_cons_self⟩
  | cons k ks =>
    obtain ⟨c, cs, rendered, sign⟩ := exists_render_key (known k List.mem_cons_self) sp
    rw [List.map_cons, spaced_cons, rendered]
    exact ⟨c, _, rfl, List.mem_cons_of_mem _ sign⟩

theorem exists_render_chord {c : Chord} (keys : ∀ k ∈ c.keys, k.Grammatical) (sp : Spelling) :
    ∃ first cs, c.render sp = '[' :: first :: cs ∧ first ∈ '|' :: ']' :: '^' :: 'v' :: toneSigns := by
  rw [Chord.render]
  cases c.arpeggio with
  | true => exact ⟨'|', _, rfl, List.mem_cons_self⟩
  | false =>
    obtain ⟨first, cs, rendered, sign⟩ := exists_chord_keys keys sp
    refine ⟨first, cs, ?_, List.mem_cons_of_mem _ sign⟩
    simp only [reduceIte, Bool.false_eq_true, List.cons_append, List.nil_append, rendered]

theorem run_chord {c : Chord} (keys : ∀ k ∈ c.keys, k.Grammatical) (enough : c.keys.length < limit)
    (sp : Spelling) (offset : Nat) (rest : List Char) :
    ∃ c' : Chord, c'.placeless = c.placeless ∧ (chord limit).run ⟨offset, c.render sp ++ rest⟩ =
      .ok (c', ⟨offset + (c.render sp).length, rest⟩) := by
  have each : ∀ k ∈ c.keys, ∀ gap, IsGap gap → Reads (chordStep offset) (gap ++ k.render sp)
      fun read => ∃ k', read = some k' ∧ k'.placeless = k.placeless :=
    fun k listed _ => reads_chordStep (keys k listed) offset
  have collected (start : Nat) := run_collect each (run_chordStep_end offset · rest)
    (ends_cons rest (by decide)) (.inl rfl) (fun _ => rfl) enough start
  have text : c.render sp ++ rest = '[' :: ((if c.arpeggio then ['|'] else []) ++
      (spaced (c.keys.map (Key.render sp)) ++ ([']'] ++ rest))) := by
    simp only [Chord.render, List.cons_append, List.append_assoc, List.nil_append]
  have opened : (chord limit).run ⟨offset, c.render sp ++ rest⟩ = (do
      let arpeggio := (← peek) = some '|'
      if arpeggio then skip 1
      return ⟨offset, arpeggio, ← collect limit (chordStep offset)⟩ : Reader Chord).run
        ⟨offset + 1, (if c.arpeggio then ['|'] else []) ++
          (spaced (c.keys.map (Key.render sp)) ++ ([']'] ++ rest))⟩ := by
    rw [text, chord, run_offset_bind, run_bind_ok (run_expect '[' _)]
    rfl
  rw [opened, run_peek_bind]
  cases arpeggio : c.arpeggio with
  | true =>
    obtain ⟨ks, same, read⟩ := collected (offset + 2)
    refine ⟨⟨offset, true, ks⟩, by simp only [Chord.placeless, arpeggio, same], ?_⟩
    simp only [reduceIte, List.singleton_append, List.head?_cons, decide_true, run_skip_bind,
      List.drop_succ_cons, List.drop_zero] at read ⊢
    refine (run_bind_ok read).trans (ok_at ?_)
    rw [Chord.render, arpeggio]
    simp only [reduceIte, List.length_append, List.length_cons, List.length_nil]
    omega
  | false =>
    obtain ⟨ks, same, read⟩ := collected (offset + 1)
    refine ⟨⟨offset, false, ks⟩, by simp only [Chord.placeless, arpeggio, same], ?_⟩
    have plain : (spaced (c.keys.map (Key.render sp)) ++ ([']'] ++ rest)).head? ≠ some '|' := by
      have all : ∀ c ∈ ']' :: '^' :: 'v' :: toneSigns, c ≠ '|' :=
        List.all_iff_forall_prop.mp (by decide)
      obtain ⟨first, cs, rendered, sign⟩ := exists_chord_keys keys sp
      rw [← List.append_assoc, rendered]
      exact fun barred => all first sign (Option.some.inj barred)
    simp only [reduceIte, Bool.false_eq_true, List.nil_append, plain, decide_false]
    refine (run_bind_ok read).trans (ok_at ?_)
    rw [Chord.render, arpeggio]
    simp only [Bool.false_eq_true, reduceIte, List.length_append, List.length_cons,
      List.length_nil]
    omega

end Tokens

end Score
end TextScore
