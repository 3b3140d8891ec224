import Mathlib
import TextScore.Proofs.Rereading

/-! What the first characters of an item decide. Each item is read by the reader of its own construct,
wherever it stands; so every item that the grammar knows is read again from its text. -/
namespace TextScore.Score
open Reader

variable {sp : Spelling} {limit offset : Nat} {site : Site} {item : Item} {items : List Item}
  {text rest cs gap : List Char} {inner : Place → Reader Item}

/-- The characters of a class that the text begins with are not followed by the sign. -/
def Misses (p : Char → Bool) (sign : Char) (text : List Char) : Prop :=
  (text.dropWhile p).head? ≠ some sign

/-- No word that the text begins with is the key of a setting. -/
abbrev Unassigned : List Char → Prop := Misses isWordChar '='

section Unassigned

theorem misses_cons {p : Char → Bool} {sign c : Char} (plain : p c = false ∧ c ≠ sign) :
    Misses p sign (c :: cs) := by
  rw [Misses, List.dropWhile_cons_of_neg (Bool.eq_false_iff.mp plain.1)]
  exact fun same => plain.2 (Option.some.inj same)

theorem misses_append {p : Char → Bool} {sign : Char} (plain : ∀ c ∈ text, c ≠ sign)
    (more : Misses p sign rest) : Misses p sign (text ++ rest) := by
  induction text with
  | nil => exact more
  | cons c text ih =>
    by_cases skipped : p c
    · have later := ih fun d listed => plain d (List.mem_cons_of_mem c listed)
      rwa [Misses, List.cons_append, List.dropWhile_cons_of_pos skipped]
    · exact misses_cons ⟨Bool.eq_false_iff.mpr skipped, plain c List.mem_cons_self⟩

theorem unassigned_of_ends (ends : Ends rest) : Unassigned rest := by
  cases rest with
  | nil => exact nofun
  | cons c cs =>
    have all : ∀ c ∈ [' ', ')', ']', '\x7d', '>', '|'], isWordChar c = false ∧ c ≠ '=' :=
      List.all_iff_forall_prop.mp (by decide)
    exact misses_cons (all c (ends c rfl))

theorem key_plain {k : Key} (known : k.Grammatical) : ∀ c ∈ k.render sp, c ≠ '=' := by
  have signs : ∀ c ∈ '^' :: 'v' :: toneSigns, c ≠ '=' := List.all_iff_forall_prop.mp (by decide)
  have accidentals : ∀ c ∈ ['+', '-'], c ≠ '=' := List.all_iff_forall_prop.mp (by decide)
  intro c listed
  rw [Key.render, List.mem_append, List.mem_cons] at listed
  rcases listed with raised | rfl | altered
  · have raised : c ∈ ['^', 'v'] := mem_marks raised
    exact signs c (List.mem_append_left toneSigns raised)
  · exact signs _ (List.mem_append_right ['^', 'v'] (render_mem_toneSigns known))
  · exact accidentals c (mem_marks altered)

/-- What follows a bracket in the text of a range is never taken for the key of a setting. -/
theorem unassigned_render (known : item.Grammatical site) (ends : Ends rest) :
    Unassigned (item.render sp ++ rest) := by
  have beyond := unassigned_of_ends ends
  cases known with
  | key known => exact misses_append (key_plain known) beyond
  | tie =>
    have all : ∀ c, c = '~' ∨ c = 'ㅡ' → c ≠ '=' := by rintro _ (rfl | rfl) <;> decide
    exact misses_append (List.forall_mem_singleton.mpr (all _ sp.tie_eq)) beyond
  | rest =>
    have all : ∀ c, c = '_' ∨ c = 'ㅇ' → c ≠ '=' := by rintro _ (rfl | rfl) <;> decide
    exact misses_append (List.forall_mem_singleton.mpr (all _ sp.rest_eq)) beyond
  | @range _ _ kind => cases kind <;> exact misses_cons (by decide)
  | setting | breakpoint | emoji | chord | graced | parallel | ornament | group | groupRef =>
    exact misses_cons (by decide)

theorem ends_flatMap (texts : List (List Char)) (ends : Ends rest) :
    Ends (texts.flatMap (' ' :: ·) ++ rest) := by
  cases texts with
  | nil => exact ends
  | cons => exact ends_cons _ (by decide)

theorem unassigned_spaced (nonempty : items ≠ []) (known : ∀ i ∈ items, i.Grammatical site)
    (sp : Spelling) (ends : Ends rest) : Unassigned (spaced (items.map (Item.render sp)) ++ rest) := by
  obtain ⟨item, items, rfl⟩ := List.exists_cons_of_ne_nil nonempty
  rw [List.map_cons, spaced_cons, List.append_assoc]
  exact unassigned_render (known item List.mem_cons_self) (ends_flatMap _ ends)

end Unassigned

/-- What the text begins with is read by this reader, wherever it stands. -/
structure Opens (limit : Nat) (inner : Place → Reader Item) (p : Reader Item) (text : List Char) :
    Prop where
  anywhere : ∀ offset, (itemAnywhere limit inner).run ⟨offset, text⟩ = p.run ⟨offset, text⟩
  ornament : ∀ offset, (itemInOrnament limit inner).run ⟨offset, text⟩ = p.run ⟨offset, text⟩
  bend : startsBreakpoint text = false

section Opens

theorem opens_invocation :
    Opens limit inner (invocation (enclosed limit (inner .anywhere))) ('\x7b' :: '\x7b' :: cs) :=
  ⟨fun _ => rfl, fun _ => rfl, rfl⟩

theorem opens_groupRef : Opens limit inner groupRef ('\x7b' :: '=' :: cs) :=
  ⟨fun _ => rfl, fun _ => rfl, rfl⟩

theorem opens_rest {c : Char} (sign : c = '_' ∨ c = 'ㅇ') : Opens limit inner Score.rest (c :: cs) := by
  rcases sign with rfl | rfl <;> exact ⟨fun _ => rfl, fun _ => rfl, rfl⟩

theorem opens_chord {c : Char} (sign : c ∈ '|' :: ']' :: '^' :: 'v' :: toneSigns) :
    Opens limit inner (sound limit inner) ('[' :: c :: cs) := by
  have all : ∀ c ∈ '|' :: ']' :: '^' :: 'v' :: toneSigns, c ≠ '[' ∧ c ≠ '>' :=
    List.all_iff_forall_prop.mp (by decide)
  obtain ⟨parallel, graced⟩ := all c sign
  refine ⟨fun offset => ?_, fun offset => rfl, rfl⟩
  rw [itemAnywhere, run_offset_bind, run_get_bind]
  dsimp only
  split
  all_goals first
    | rfl
    | (next same => cases same <;> first | exact absurd rfl parallel | exact absurd rfl graced)

theorem opens_sound {c : Char} (sign : c ∈ '<' :: '~' :: 'ㅡ' :: '^' :: 'v' :: toneSigns) :
    Opens limit inner (sound limit inner) (c :: cs) := by
  have all : ∀ c ∈ '<' :: '~' :: 'ㅡ' :: '^' :: 'v' :: toneSigns,
    c ∉ ['(', '\x7b', '[', '_', 'ㅇ'] := List.all_iff_forall_prop.mp (by decide)
  have other := all c sign
  refine ⟨fun offset => ?_, fun offset => ?_, ?_⟩
  · rw [itemAnywhere, run_offset_bind, run_get_bind]
    dsimp only
    split
    all_goals first | rfl | (next same => cases same <;> exact absurd (by decide) other)
  · rw [itemInOrnament, run_get_bind]
    dsimp only
    split
    all_goals first | rfl | (next same => cases same; exact absurd (by decide) other)
  · unfold startsBreakpoint
    split
    all_goals first | rfl | (next same => cases same; exact absurd (by decide) other)

theorem isEmoji_of_isWordChar {c : Char} (letter : isWordChar c) : isEmoji c = false := by
  simp only [isWordChar, Bool.or_eq_true, decide_eq_true_eq] at letter
  rcases letter with letter | listed
  · have small : c.toNat ≤ 122 := by
      simp only [Char.isAlphanum, Char.isAlpha, Char.isUpper, Char.isLower, Char.isDigit,
        Bool.or_eq_true, Bool.and_eq_true, decide_eq_true_eq] at letter
      rcases letter with (⟨-, upper⟩ | ⟨-, lower⟩) | ⟨-, digit⟩
      · exact Nat.le_trans (UInt32.le_iff_toNat_le.mp upper) (by decide)
      · exact UInt32.le_iff_toNat_le.mp lower
      · exact Nat.le_trans (UInt32.le_iff_toNat_le.mp digit) (by decide)
    exact decide_eq_false (by omega)
  · have all : ∀ c ∈ ['_', '.', '/', '-'], isEmoji c = false :=
      List.all_iff_forall_prop.mp (by decide)
    exact all c listed

theorem startsBreakpoint_eq_false (missed : Misses isDecimalChar ')' cs) :
    startsBreakpoint ('(' :: cs) = false := by
  rw [startsBreakpoint, beq_eq_false_iff_ne.mpr missed, Bool.and_false]

/-- A bracket that opens no emoji shortcut begins a setting or a range. -/
theorem opens_bracket {c : Char} (plain : isEmoji c = false)
    (ends : startsBreakpoint ('(' :: c :: cs) = false) : Opens limit inner
      (if startsSetting ('(' :: c :: cs) then return .setting (← setting)
        else range (enclosed limit (inner .anywhere))) ('(' :: c :: cs) := by
  have other : ¬ (c :: cs).head?.any isEmoji := by
    rw [List.head?_cons, Option.any_some, plain]
    decide
  refine ⟨fun offset => ?_, fun offset => rfl, ends⟩
  have opened : (itemAnywhere limit inner).run ⟨offset, '(' :: c :: cs⟩ =
      (if (c :: cs).head?.any isEmoji then emojiRef
        else if startsSetting ('(' :: c :: cs) then return .setting (← setting)
        else range (enclosed limit (inner .anywhere)) : Reader Item).run
        ⟨offset, '(' :: c :: cs⟩ := rfl
  rw [opened, if_neg other]

theorem opens_setting {s : Setting} (known : s.Grammatical) (rest : List Char) :
    Opens limit inner (do return .setting (← setting)) (s.render ++ rest) := by
  have text : s.render ++ rest =
      '(' :: (s.key.toList ++ '=' :: (s.value.toList ++ ')' :: rest)) := by
    simp only [Setting.render, List.cons_append, List.append_assoc, List.nil_append]
  have assigned : startsSetting (s.render ++ rest) := by
    have filled : s.key.toList.isEmpty = false := List.isEmpty_eq_false_iff.mpr known.1.1
    rw [text, startsSetting, List.takeWhile_append_of_pos known.1.2,
      List.takeWhile_cons_of_neg (by decide), List.append_nil,
      List.dropWhile_append_of_pos known.1.2, List.dropWhile_cons_of_neg (by decide), filled]
    rfl
  obtain ⟨c, ds, spelled⟩ := List.exists_cons_of_ne_nil known.1.1
  have letter : isWordChar c := known.1.2 c (spelled ▸ List.mem_cons_self)
  have ends : startsBreakpoint (s.render ++ rest) = false := by
    have inside : ∀ c ∈ s.key.toList, c ≠ ')' := fun c listed closes =>
      absurd (known.1.2 c listed) (closes ▸ by decide)
    rw [text]
    exact startsBreakpoint_eq_false (misses_append inside (misses_cons (by decide)))
  rw [text, spelled, List.cons_append] at assigned ends ⊢
  have opened : Opens limit inner _ ('(' :: c :: (ds ++ '=' :: (s.value.toList ++ ')' :: rest))) :=
    opens_bracket (isEmoji_of_isWordChar letter) ends
  rwa [if_pos assigned] at opened

theorem starts_spaced (nonempty : items ≠ []) (known : ∀ i ∈ items, i.Grammatical site)
    (sp : Spelling) (rest : List Char) : Starts (spaced (items.map (Item.render sp)) ++ rest) := by
  obtain ⟨item, items, rfl⟩ := List.exists_cons_of_ne_nil nonempty
  obtain ⟨c, sign, cs, rendered⟩ := starts_render (known item List.mem_cons_self) sp
  rw [List.map_cons, spaced_cons, rendered]
  exact ⟨c, sign, _, rfl⟩

theorem opens_range {mark : Char} {kind : RangeKind} (found : rangeKind? mark = some kind)
    (nonempty : items ≠ []) (known : ∀ i ∈ items, i.Grammatical site) (rest : List Char) :
    Opens limit inner (range (enclosed limit (inner .anywhere)))
      (['(', mark] ++ spaced (items.map (Item.render sp)) ++ [')'] ++ rest) := by
  have marks : mark ∈ ['^', 'v', '3', '5', '7', 's'] := by
    unfold rangeKind? at found
    split at found
    all_goals first | decide | cases found
  have all : ∀ c ∈ ['^', 'v', '3', '5', '7', 's'], isEmoji c = false ∧ c ≠ '=' ∧ c ≠ ')' :=
    List.all_iff_forall_prop.mp (by decide)
  obtain ⟨plain, unequal, inside⟩ := all mark marks
  have closed : Ends (')' :: rest) := ends_cons rest (by decide)
  have unassigned := unassigned_spaced nonempty known sp closed
  have starts := starts_spaced nonempty known sp (')' :: rest)
  simp only [List.append_assoc, List.cons_append, List.nil_append]
  generalize spaced (items.map (Item.render sp)) ++ ')' :: rest = cs at unassigned starts ⊢
  have ranges : ¬ startsSetting ('(' :: mark :: cs) := by
    have unmarked : Unassigned (mark :: cs) :=
      misses_append (List.forall_mem_singleton.mpr unequal) unassigned
    rw [startsSetting, Bool.and_eq_true, beq_iff_eq]
    exact fun both => unmarked both.2
  have ends : startsBreakpoint ('(' :: mark :: cs) = false := by
    obtain ⟨first, sign, more, rfl⟩ := starts
    obtain ⟨-, -, solid, outside⟩ := starters_plain sign
    have goesOn : first ≠ ')' := by
      rintro rfl
      exact outside (by decide)
    exact startsBreakpoint_eq_false
      (misses_append (List.forall_mem_singleton.mpr inside) (misses_cons ⟨solid, goesOn⟩))
  have opened : Opens limit inner _ ('(' :: mark :: cs) := opens_bracket plain ends
  rwa [if_neg ranges] at opened

/-- A range begins with its own mark, or it invokes a template. -/
theorem opening_cases {kind : RangeKind} (known : kind.Grammatical) :
    (∃ name, kind = .userRange name ∧ Word name) ∨
      ∃ mark, kind.opening = ['(', mark] ∧ rangeKind? mark = some kind := by
  cases kind with
  | octaveUp | octaveDown | sustain => exact .inr ⟨_, rfl, rfl⟩
  | tuplet size => rcases known with rfl | rfl | rfl <;> exact .inr ⟨_, rfl, rfl⟩
  | userRange name => exact .inl ⟨name, rfl, known⟩

theorem opens_of_isSound (known : item.Grammatical site) (isSound : item.IsSound)
    (rest : List Char) : Opens limit inner (sound limit inner) (item.render sp ++ rest) := by
  cases known with
  | key known =>
    obtain ⟨c, cs, rendered, sign⟩ := exists_render_key known sp
    rw [Item.render, rendered]
    exact opens_sound (List.mem_append_right ['<', '~', 'ㅡ'] sign)
  | @chord _ c keys =>
    obtain ⟨first, cs, rendered, sign⟩ := exists_render_chord keys sp
    rw [Item.render, rendered]
    exact opens_chord sign
  | ornament => exact opens_sound List.mem_cons_self
  | tie =>
    have all : ∀ c, c = '~' ∨ c = 'ㅡ' → c ∈ '<' :: '~' :: 'ㅡ' :: '^' :: 'v' :: toneSigns := by
      rintro _ (rfl | rfl) <;> decide
    exact opens_sound (all _ sp.tie_eq)
  | _ => exact isSound.elim

theorem Opens.ready {p : Reader Item} (starts : Starts (item.render sp))
    (reads : Reads p (item.render sp) fun read => read.placeless = item.placeless)
    (opens : ∀ rest, Ends rest → Opens (limit + 1) (nested limit) p (item.render sp ++ rest))
    (site : Site) : Ready sp (siteReader (nested (limit + 1)) site) item := by
  refine ⟨starts, fun offset rest ends => ?_⟩
  obtain ⟨read, same, run⟩ := reads offset rest ends
  have opens := opens rest ends
  refine ⟨read, same, Eq.trans ?_ run⟩
  cases site with
  | anywhere => exact opens.anywhere offset
  | ornament => exact opens.ornament offset
  | bend =>
    rw [siteReader, run_get_bind, if_neg (Bool.eq_false_iff.mp opens.bend)]
    exact opens.ornament offset

end Opens

section Sounds

theorem run_sound_key {k : Key} (known : k.Grammatical) (sp : Spelling) (offset : Nat)
    (rest : List Char) : (sound limit inner).run ⟨offset, k.render sp ++ rest⟩ =
      (do return .key (← key) : Reader Item).run ⟨offset, k.render sp ++ rest⟩ := by
  obtain ⟨c, cs, rendered, sign⟩ := exists_render_key known sp
  have all : ∀ c ∈ '^' :: 'v' :: toneSigns, c ∉ ['<', '[', '~', 'ㅡ'] :=
    List.all_iff_forall_prop.mp (by decide)
  have other := all c sign
  rw [rendered, sound, run_peek_bind]
  dsimp only [List.cons_append, List.head?_cons]
  split
  all_goals first | rfl | (next same => cases same; exact absurd (by decide) other)

theorem reads_key {k : Key} (known : k.Grammatical) : Reads (sound limit inner) (k.render sp)
    fun read => read.placeless = (Item.key k).placeless := by
  intro offset rest ends
  refine ⟨.key { k with offset := offset }, rfl, ?_⟩
  rw [run_sound_key known sp, run_bind_ok (run_key known ends)]
  rfl

theorem reads_chord {c : Chord} (keys : ∀ k ∈ c.keys, k.Grammatical)
    (enough : c.keys.length < limit) : Reads (sound limit inner) (c.render sp)
      fun read => read.placeless = (Item.chord c).placeless := by
  intro offset rest _
  obtain ⟨c', same, read⟩ := run_chord keys enough sp offset rest
  refine ⟨.chord c', congrArg Item.chord same, ?_⟩
  have only : (sound limit inner).run ⟨offset, c.render sp ++ rest⟩ =
    (do return .chord (← chord limit) : Reader Item).run ⟨offset, c.render sp ++ rest⟩ := rfl
  rw [only, run_bind_ok read]
  rfl

theorem reads_tie : Reads (sound limit inner) [sp.tie] fun read => read.placeless = .tie 0 := by
  intro offset rest _
  refine ⟨.tie offset, rfl, ?_⟩
  rcases sp.tie_eq with same | same
  all_goals
    rw [same]
    rfl

theorem reads_rest : Reads Score.rest [sp.rest] fun read => read.placeless = .rest 0 :=
  fun offset _ _ => ⟨.rest offset, rfl, rfl⟩

end Sounds

section Graces
variable {graces : List Item}

/-- One grace, or the end of the graces. -/
def graceStep (limit : Nat) (body : Enclosure → Reader (List Item)) (start : Nat) :
    Reader (Option Item) := do
  skipBlanks
  match (← get).rest with
  | [] => failAt start .unclosedGrace
  | ']' :: _ => skip 1; return none
  | '[' :: _ => return some (.chord (← chord limit))
  | '(' :: _ => return some (← range body)
  | '\x7b' :: '\x7b' :: _ => return some (← invocation body)
  | _ => return some (.key (← key))

theorem run_some_congr {p q : Reader Item} {c : Cursor} (same : p.run c = q.run c) :
    (do return some (← p) : Reader (Option Item)).run c =
      (do return some (← q) : Reader (Option Item)).run c := by
  rw [StateT.run_bind, StateT.run_bind, same]

/-- A grace is read as it is outside of graces. -/
theorem reads_graceStep (known : item.Grammatical .anywhere) (isGrace : item.IsGrace)
    (ready : Ready sp (itemAnywhere limit inner) item) (start : Nat) (isGap : IsGap gap) :
    Reads (graceStep limit (enclosed limit (inner .anywhere)) start) (gap ++ item.render sp)
      fun read => ∃ i, read = some i ∧ i.placeless = item.placeless := by
  refine ready.part isGap fun offset rest ends => ?_
  cases known with
  | key known =>
    obtain ⟨c, cs, rendered, sign⟩ := exists_render_key known sp
    have all : ∀ c ∈ '^' :: 'v' :: toneSigns, c ∉ [']', '[', '(', '\x7b'] :=
      List.all_iff_forall_prop.mp (by decide)
    have other := all c sign
    have only := @run_sound_key limit inner _ known sp offset rest
    rw [Item.render]
    rw [rendered, List.cons_append] at only ⊢
    generalize cs ++ rest = cs at only ⊢
    have opens : Opens limit inner _ (c :: cs) :=
      opens_sound (List.mem_append_right ['<', '~', 'ㅡ'] sign)
    rw [run_some_congr ((opens.anywhere offset).trans only), run_get_bind]
    simp only [bind_assoc, pure_bind]
    split
    all_goals first | rfl | (next same => cases same <;> exact absurd (by decide) other)
  | @chord _ c keys =>
    obtain ⟨first, cs, rendered, sign⟩ := exists_render_chord keys sp
    have opens : Opens limit inner _ ('[' :: first :: (cs ++ rest)) := opens_chord sign
    have only : (sound limit inner).run ⟨offset, '[' :: first :: (cs ++ rest)⟩ =
      (do return .chord (← chord limit) : Reader Item).run
        ⟨offset, '[' :: first :: (cs ++ rest)⟩ := rfl
    rw [Item.render, rendered, List.cons_append, List.cons_append,
      run_some_congr ((opens.anywhere offset).trans only)]
    simp only [bind_assoc, pure_bind]
    rfl
  | @range _ _ kind body known nonempty items =>
    rcases opening_cases known with ⟨name, rfl, -⟩ | ⟨mark, opening, found⟩
    · rfl
    · have opens : Opens limit inner _
          (['(', mark] ++ spaced (body.map (Item.render sp)) ++ [')'] ++ rest) :=
        opens_range found nonempty items rest
      rw [Item.render, opening, renderAll_eq, run_some_congr (opens.anywhere offset)]
      rfl
  | _ => exact isGrace.elim

theorem run_graces (known : ∀ i ∈ graces, i.Grammatical .anywhere)
    (forms : ∀ i ∈ graces, i.IsGrace) (ready : ∀ i ∈ graces, Ready sp (itemAnywhere limit inner) i)
    (enough : graces.length < limit) (offset : Nat) (rest : List Char) :
    ∃ graces', graces'.map Item.placeless = graces.map Item.placeless ∧
      (Score.graces limit (enclosed limit (inner .anywhere))).run ⟨offset, ['[', '>'] ++
          (spaced (graces.map (Item.render sp)) ++ ([']'] ++ rest))⟩ =
        .ok (graces', ⟨offset + ((spaced (graces.map (Item.render sp))).length + 3), rest⟩) := by
  have last (start : Nat) : (graceStep limit (enclosed limit (inner .anywhere)) offset).run
      ⟨start, [']'] ++ rest⟩ = .ok (none, ⟨start + 1, rest⟩) :=
    run_bind_ok (run_skipBlanks_none (by decide))
  obtain ⟨graces', same, read⟩ := run_collect
    (fun i listed _ => reads_graceStep (known i listed) (forms i listed) (ready i listed) offset)
    last (ends_cons rest (by decide)) (.inl rfl) (fun _ => rfl) enough (offset + 1 + 1)
  have opened : Score.graces limit (enclosed limit (inner .anywhere)) =
    Reader.offset >>= fun start => expect '[' >>= fun _ => expect '>' >>= fun _ =>
      collect limit (graceStep limit (enclosed limit (inner .anywhere)) start) := rfl
  refine ⟨graces', same, ?_⟩
  simp only [List.cons_append, List.nil_append] at read ⊢
  rw [opened, run_offset_bind, run_bind_ok (run_expect '[' _), run_bind_ok (run_expect '>' _), read]
  refine ok_at ?_
  simp only [List.length_cons, List.length_nil]
  omega

theorem reads_graced {main : Item} (known : ∀ i ∈ graces, i.Grammatical .anywhere)
    (forms : ∀ i ∈ graces, i.IsGrace) (ready : ∀ i ∈ graces, Ready sp (itemAnywhere limit inner) i)
    (enough : graces.length < limit) (mainKnown : main.Grammatical .anywhere)
    (isSound : main.IsSound) (mainReady : Ready sp (itemAnywhere limit inner) main) :
    Reads (itemAnywhere limit inner)
      (['[', '>'] ++ spaced (graces.map (Item.render sp)) ++ ']' :: main.render sp)
      fun read => read.placeless = (Item.graced 0 graces main).placeless := by
  intro offset rest ends
  obtain ⟨graces', same, read⟩ :=
    run_graces known forms ready enough offset (main.render sp ++ rest)
  obtain ⟨main', sameMain, readMain⟩ := mainReady.reads _ rest ends
  rw [(opens_of_isSound mainKnown isSound rest).anywhere] at readMain
  refine ⟨.graced offset graces' main',
    by simp only [Item.placeless, allPlaceless_eq, same, sameMain], ?_⟩
  have opened (cs : List Char) : (itemAnywhere limit inner).run ⟨offset, '[' :: '>' :: cs⟩ = (do
      let graces ← Score.graces limit (enclosed limit (inner .anywhere))
      return .graced offset graces (← sound limit inner) : Reader Item).run
        ⟨offset, '[' :: '>' :: cs⟩ := rfl
  simp only [List.append_assoc, List.cons_append, List.nil_append] at read readMain ⊢
  rw [opened, run_bind_ok read, run_bind_ok readMain]
  refine ok_at ?_
  simp only [List.length_append, List.length_cons]
  omega

end Graces

section Lengths

theorem length_le_flatMap (texts : List (List Char)) :
    texts.length ≤ (texts.flatMap (' ' :: ·)).length := by
  induction texts with
  | nil => exact Nat.le_refl 0
  | cons text texts ih =>
    rw [List.flatMap_cons, List.length_append, List.length_cons, List.length_cons]
    omega

/-- Siblings are not more than the characters they take. -/
theorem length_le_spaced {texts : List (List Char)} (nonempty : ∀ text ∈ texts, text ≠ []) :
    texts.length ≤ (spaced texts).length := by
  cases texts with
  | nil => exact Nat.le_refl 0
  | cons text texts =>
    have some := List.length_pos_iff.mpr (nonempty text List.mem_cons_self)
    have more := length_le_flatMap texts
    rw [spaced_cons, List.length_append, List.length_cons]
    omega

theorem length_le_spaced_of_mem {texts : List (List Char)} (listed : text ∈ texts) :
    text.length ≤ (spaced texts).length := by
  cases texts with
  | nil => exact nomatch listed
  | cons first texts =>
    rw [spaced_cons, List.length_append]
    rcases List.mem_cons.mp listed with rfl | later
    · exact Nat.le_add_right _ _
    · have inside := (List.sublist_flatten_of_mem (List.mem_map_of_mem (f := (' ' :: ·)) later)).length_le
      rw [List.length_cons] at inside
      rw [List.flatMap]
      omega

/-- A bound of the text is a bound of what the text holds. -/
theorem bound_siblings {α : Type} {spell : α → List Char} {xs : List α}
    (nonempty : ∀ x ∈ xs, spell x ≠ []) {bound : Nat}
    (enough : (spaced (xs.map spell)).length ≤ bound) :
    xs.length ≤ bound ∧ ∀ x ∈ xs, (spell x).length ≤ bound := by
  refine ⟨?_, fun x listed =>
    Nat.le_trans (length_le_spaced_of_mem (List.mem_map_of_mem listed)) enough⟩
  rw [← List.length_map spell]
  refine Nat.le_trans (length_le_spaced fun text listed => ?_) enough
  obtain ⟨x, among, rfl⟩ := List.mem_map.mp listed
  exact nonempty x among

end Lengths

section Trees

theorem render_ne_nil (known : item.Grammatical site) : item.render sp ≠ [] := by
  obtain ⟨c, -, cs, rendered⟩ := starts_render known sp
  rw [rendered]
  exact List.cons_ne_nil c cs

theorem run_itemAnywhere_group (id offset : Nat) (cs : List Char) :
    (itemAnywhere limit inner).run ⟨offset, '\x7b' :: (digits id ++ cs)⟩ =
      (group (enclosed limit (inner .anywhere))).run ⟨offset, '\x7b' :: (digits id ++ cs)⟩ := by
  obtain ⟨c, ds, spelled⟩ := List.exists_cons_of_ne_nil (digits_ne_nil id)
  have digit : c.isDigit := isDigit_of_mem_digits (spelled ▸ List.mem_cons_self)
  rw [spelled, List.cons_append]
  generalize ds ++ cs = cs
  rw [itemAnywhere, run_offset_bind, run_get_bind]
  dsimp only
  split
  all_goals first
    | rfl
    | (next same => cases same <;> exact absurd digit (by decide))
    | exact (‹∀ tail, '\x7b' :: c :: cs = '\x7b' :: tail → False› _ rfl).elim

theorem run_itemAnywhere_emoji {symbol : String} (known : Symbol symbol) (offset : Nat)
    (cs : List Char) : (itemAnywhere limit inner).run ⟨offset, '(' :: (symbol.toList ++ cs)⟩ =
      emojiRef.run ⟨offset, '(' :: (symbol.toList ++ cs)⟩ := by
  obtain ⟨c, ds, spelled⟩ := List.exists_cons_of_ne_nil known.1
  have sign : (c :: (ds ++ cs)).head?.any isEmoji := known.2 c (spelled ▸ List.mem_cons_self)
  rw [spelled, List.cons_append]
  have opened : (itemAnywhere limit inner).run ⟨offset, '(' :: c :: (ds ++ cs)⟩ =
      (if (c :: (ds ++ cs)).head?.any isEmoji then emojiRef
        else if startsSetting ('(' :: c :: (ds ++ cs)) then return .setting (← setting)
        else range (enclosed limit (inner .anywhere)) : Reader Item).run
        ⟨offset, '(' :: c :: (ds ++ cs)⟩ := rfl
  rw [opened, if_pos sign]

/-- With a bound on the depth that its text meets, the item is read again where it stands. -/
def Rereads (sp : Spelling) (site : Site) (item : Item) : Prop :=
  ∀ limit, (item.render sp).length ≤ limit → Ready sp (siteReader (nested limit) site) item

theorem rereads_of_succ (known : item.Grammatical site)
    (ready : ∀ limit, (item.render sp).length ≤ limit + 1 →
      Ready sp (siteReader (nested (limit + 1)) site) item) : Rereads sp site item := by
  intro limit enough
  cases limit with
  | zero =>
    exact absurd (List.length_eq_zero_iff.mp (Nat.le_zero.mp enough)) (render_ne_nil known)
  | succ limit => exact ready limit enough

theorem Rereads.siblings (rereads : ∀ i ∈ items, Rereads sp site i)
    (known : ∀ i ∈ items, i.Grammatical site)
    (fits : (spaced (items.map (Item.render sp))).length ≤ limit) :
    items.length < limit + 1 ∧ ∀ i ∈ items, Ready sp (siteReader (nested limit) site) i := by
  obtain ⟨few, short⟩ := bound_siblings (fun i listed => render_ne_nil (known i listed)) fits
  exact ⟨Nat.lt_succ_of_le few, fun i listed => rereads i listed limit (short i listed)⟩

theorem rereads_range {kind : RangeKind} (known : kind.Grammatical) (nonempty : items ≠ [])
    (all : ∀ i ∈ items, i.Grammatical .anywhere) (rereads : ∀ i ∈ items, Rereads sp .anywhere i)
    (site : Site) (offset : Nat) : Rereads sp site (.range offset kind items) := by
  have grammatical : (Item.range offset kind items).Grammatical site := .range known nonempty all
  refine rereads_of_succ grammatical fun limit enough => ?_
  have text : (Item.range offset kind items).render sp =
      kind.opening ++ spaced (items.map (Item.render sp)) ++ [')'] := by
    rw [Item.render, renderAll_eq]
  have fits : (spaced (items.map (Item.render sp))).length ≤ limit := by
    simp only [text, List.length_append, List.length_singleton] at enough
    omega
  obtain ⟨few, ready⟩ := Rereads.siblings rereads all fits
  rcases opening_cases known with ⟨name, rfl, word⟩ | ⟨mark, opening, found⟩
  · refine Opens.ready (starts_render grammatical sp) ?_ (fun rest _ => opens_invocation) site
    rw [text]
    exact reads_invocation nonempty ready few word
  · rw [opening] at text
    refine Opens.ready (starts_render grammatical sp) ?_
      (fun rest _ => text ▸ opens_range found nonempty all rest) site
    rw [text]
    exact reads_range nonempty ready few found

theorem rereads_chord {c : Chord} (keys : ∀ k ∈ c.keys, k.Grammatical) (site : Site) :
    Rereads sp site (.chord c) := by
  have grammatical : (Item.chord c).Grammatical site := .chord keys
  refine rereads_of_succ grammatical fun limit enough => ?_
  have fits : (spaced (c.keys.map (Key.render sp))).length ≤ limit := by
    simp only [Item.render, Chord.render, List.length_append, List.length_cons] at enough
    omega
  have filled : ∀ k ∈ c.keys, k.render sp ≠ [] := fun _ _ =>
    List.append_ne_nil_of_right_ne_nil _ (List.cons_ne_nil _ _)
  have few := Nat.lt_succ_of_le (bound_siblings filled fits).1
  exact Opens.ready (starts_render grammatical sp) (reads_chord keys few)
    (fun rest _ => opens_of_isSound grammatical trivial rest) site

theorem rereads_ornament {kind : Ornament} (known : kind.Grammatical) (nonempty : items ≠ [])
    (all : ∀ i ∈ items, i.Grammatical kind.site) (rereads : ∀ i ∈ items, Rereads sp kind.site i)
    (site : Site) (offset : Nat) : Rereads sp site (.ornament offset kind items) := by
  have grammatical : (Item.ornament offset kind items).Grammatical site :=
    .ornament known nonempty all
  refine rereads_of_succ grammatical fun limit enough => ?_
  have text : (Item.ornament offset kind items).render sp =
      ['<', kind.mark, ' '] ++ spaced (items.map (Item.render sp)) ++ kind.closing := by
    rw [Item.render, renderAll_eq]
  have fits : (spaced (items.map (Item.render sp))).length ≤ limit := by
    simp only [text, List.length_append, List.length_cons] at enough
    omega
  obtain ⟨few, ready⟩ := Rereads.siblings rereads all fits
  refine Opens.ready (starts_render grammatical sp) ?_
    (fun rest _ => opens_of_isSound grammatical trivial rest) site
  rw [text]
  exact reads_ornament nonempty known ready few

theorem rereads_breakpoint {value : Binary64} (spelled : ∃ text, Spells text value) (offset : Nat) :
    Rereads sp .bend (.breakpoint offset value) := by
  intro limit _
  refine ⟨starts_render (.breakpoint spelled : (Item.breakpoint offset value).Grammatical .bend) sp, fun offset rest ends => ?_⟩
  obtain ⟨read, same, run⟩ := reads_breakpoint spelled sp offset rest ends
  obtain ⟨text, spelled⟩ := spelled
  obtain ⟨nonempty, decimal, -⟩ := sp.decimal_spells spelled
  have opened : startsBreakpoint ('(' :: (sp.decimal value ++ ')' :: rest)) := by
    rw [startsBreakpoint, List.takeWhile_append_of_pos decimal,
      List.takeWhile_cons_of_neg (by decide), List.append_nil,
      List.dropWhile_append_of_pos decimal, List.dropWhile_cons_of_neg (by decide),
      List.isEmpty_eq_false_iff.mpr nonempty]
    rfl
  refine ⟨read, same, Eq.trans ?_ run⟩
  rw [siteReader, run_get_bind, Item.render, List.cons_append, List.cons_append, List.append_assoc]
  dsimp only [List.singleton_append]
  rw [if_pos opened]

theorem rereads_graced {graces : List Item} {main : Item} (forms : ∀ i ∈ graces, i.IsGrace)
    (all : ∀ i ∈ graces, i.Grammatical .anywhere) (sound : main.IsSound)
    (known : main.Grammatical .anywhere) (rereads : ∀ i ∈ graces, Rereads sp .anywhere i)
    (mainRereads : Rereads sp .anywhere main) (offset : Nat) :
    Rereads sp .anywhere (.graced offset graces main) := by
  have grammatical : (Item.graced offset graces main).Grammatical .anywhere :=
    .graced forms all sound known
  refine rereads_of_succ grammatical fun limit enough => ⟨starts_render grammatical sp, ?_⟩
  have text : (Item.graced offset graces main).render sp =
      ['[', '>'] ++ spaced (graces.map (Item.render sp)) ++ ']' :: main.render sp := by
    rw [Item.render, renderAll_eq]
  have fits : (spaced (graces.map (Item.render sp))).length ≤ limit ∧
      (main.render sp).length ≤ limit + 1 := by
    simp only [text, List.length_append, List.length_cons] at enough
    omega
  obtain ⟨few, -⟩ := Rereads.siblings rereads all fits.1
  obtain ⟨-, ready⟩ := Rereads.siblings rereads all (Nat.le_succ_of_le fits.1)
  rw [text]
  exact reads_graced all forms ready few known sound (mainRereads (limit + 1) fits.2)

theorem rereads_group {id : Nat} (number : id ≤ Duration.greatest) (nonempty : items ≠ [])
    (all : ∀ i ∈ items, i.Grammatical .anywhere) (rereads : ∀ i ∈ items, Rereads sp .anywhere i)
    (offset : Nat) : Rereads sp .anywhere (.group offset id items) := by
  have grammatical : (Item.group offset id items).Grammatical .anywhere :=
    .group number nonempty all
  refine rereads_of_succ grammatical fun limit enough => ⟨starts_render grammatical sp, ?_⟩
  have text : (Item.group offset id items).render sp =
      '\x7b' :: digits id ++ ' ' :: spaced (items.map (Item.render sp)) ++ ['\x7d'] := by
    rw [Item.render, renderAll_eq]
  have fits : (spaced (items.map (Item.render sp))).length ≤ limit := by
    simp only [text, List.length_append, List.length_cons] at enough
    omega
  obtain ⟨few, ready⟩ := Rereads.siblings rereads all fits
  intro offset rest ends
  obtain ⟨read, same, run⟩ := reads_group nonempty ready few number offset rest ends
  refine ⟨read, same, Eq.trans ?_ (text ▸ run)⟩
  rw [text, List.append_assoc, List.append_assoc, List.cons_append]
  exact run_itemAnywhere_group id offset _

theorem rereads_parallel {branches : List (List Item)} (several : 2 ≤ branches.length)
    (nonempty : ∀ branch ∈ branches, branch ≠ [])
    (all : ∀ branch ∈ branches, ∀ i ∈ branch, i.Grammatical .anywhere)
    (rereads : ∀ branch ∈ branches, ∀ i ∈ branch, Rereads sp .anywhere i) (offset : Nat) :
    Rereads sp .anywhere (.parallel offset branches) := by
  have grammatical : (Item.parallel offset branches).Grammatical .anywhere :=
    .parallel several nonempty all
  refine rereads_of_succ grammatical fun limit enough => ⟨starts_render grammatical sp, ?_⟩
  have fits : (spaced ((pieces branches).map (renderPiece sp))).length ≤ limit := by
    simp only [Item.render, List.length_append, List.length_cons] at enough
    rw [spaced_pieces nonempty]
    omega
  have filled : ∀ piece ∈ pieces branches, renderPiece sp piece ≠ [] := by
    intro piece listed
    cases piece with
    | none => exact List.cons_ne_nil _ _
    | some i =>
      obtain ⟨branch, among, inside⟩ := mem_pieces_iff.mp listed
      exact render_ne_nil (all branch among i inside)
  obtain ⟨few, short⟩ := bound_siblings filled fits
  refine reads_parallel several nonempty (fun branch among i inside => ?_) (Nat.lt_succ_of_le few)
  exact rereads branch among i inside limit
    (short (some i) (mem_pieces_iff.mpr ⟨branch, among, inside⟩))

theorem rereads_emoji {symbol : String} (known : Symbol symbol) (offset : Nat) :
    Rereads sp .anywhere (.emoji offset symbol) := by
  have grammatical : (Item.emoji offset symbol).Grammatical .anywhere := .emoji known
  refine rereads_of_succ grammatical fun limit _ => ⟨starts_render grammatical sp, ?_⟩
  intro offset rest ends
  obtain ⟨read, same, run⟩ := reads_emojiRef known offset rest ends
  refine ⟨read, same, Eq.trans ?_ run⟩
  rw [Item.render, List.cons_append, List.cons_append, List.append_assoc]
  exact run_itemAnywhere_emoji known offset _

/-- Whatever the grammar knows is read again, by induction on its tree: a part of an item has a
shorter text than the item. -/
theorem rereads_of_grammatical (known : item.Grammatical site) : Rereads sp site item := by
  induction known with
  | @setting site _ words =>
    have grammatical : (Item.setting _).Grammatical site := .setting words
    exact rereads_of_succ grammatical fun _ _ => Opens.ready (starts_render grammatical sp)
      (reads_setting words) (fun rest _ => opens_setting words rest) site
  | range known nonempty items ih => exact rereads_range known nonempty items ih _ _
  | @key site k known =>
    have grammatical : (Item.key k).Grammatical site := .key known
    exact rereads_of_succ grammatical fun _ _ => Opens.ready (starts_render grammatical sp)
      (reads_key known) (fun rest _ => opens_of_isSound grammatical trivial rest) site
  | chord keys => exact rereads_chord keys _
  | ornament known nonempty items ih => exact rereads_ornament known nonempty items ih _ _
  | @tie site offset =>
    have grammatical : (Item.tie offset).Grammatical site := .tie
    exact rereads_of_succ grammatical fun _ _ => Opens.ready (starts_render grammatical sp)
      reads_tie (fun rest _ => opens_of_isSound grammatical trivial rest) site
  | breakpoint spelled => exact rereads_breakpoint spelled _
  | graced forms items sound known ih ihMain =>
    exact rereads_graced forms items sound known ih ihMain _
  | group number nonempty items ih => exact rereads_group number nonempty items ih _
  | @groupRef site offset id number =>
    have grammatical : (Item.groupRef offset id).Grammatical site := .groupRef number
    exact rereads_of_succ grammatical fun _ _ => Opens.ready (starts_render grammatical sp)
      (reads_groupRef number) (fun rest _ => opens_groupRef) site
  | parallel several nonempty items ih => exact rereads_parallel several nonempty items ih _
  | emoji known => exact rereads_emoji known _
  | @rest site offset =>
    have grammatical : (Item.rest offset).Grammatical site := .rest
    exact rereads_of_succ grammatical fun _ _ => Opens.ready (starts_render grammatical sp)
      reads_rest (fun rest _ => opens_rest sp.rest_eq) site

end Trees

end TextScore.Score
