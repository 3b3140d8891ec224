import TextScore.Proofs.Scanning

/-! Reading items that have been rendered. Whatever stands behind an item, its text is read as the item
again, and no more than its text is taken. -/
namespace TextScore.Score
open Reader

variable {sp : Spelling} {limit offset : Nat} {site : Site} {item : Item} {items : List Item}
  {inner : Reader Item} {text rest gap : List Char}

/-- Signs that items begin with. -/
def starters : List Char :=
  ['(', '\x7b', '[', '<', '_', 'ㅇ', '~', 'ㅡ', '^', 'v'] ++ toneSigns

def Starts (text : List Char) : Prop := ∃ c ∈ starters, ∃ cs, text = c :: cs

theorem starts_render (known : item.Grammatical site) (sp : Spelling) : Starts (item.render sp) := by
  cases known with
  | setting | breakpoint | emoji => exact ⟨'(', by decide, _, rfl⟩
  | @range _ _ kind => cases kind with
    | userRange => exact ⟨'\x7b', by decide, _, rfl⟩
    | _ => exact ⟨'(', by decide, _, rfl⟩
  | key known =>
    obtain ⟨c, cs, rendered, sign⟩ := exists_render_key known sp
    exact ⟨c, List.mem_append_right ['(', '\x7b', '[', '<', '_', 'ㅇ', '~', 'ㅡ'] sign, cs, rendered⟩
  | chord | graced | parallel => exact ⟨'[', by decide, _, rfl⟩
  | ornament => exact ⟨'<', by decide, _, rfl⟩
  | tie =>
    have all : ∀ c, c = '~' ∨ c = 'ㅡ' → c ∈ starters := by
      rintro _ (rfl | rfl) <;> decide
    exact ⟨sp.tie, all _ sp.tie_eq, [], rfl⟩
  | group | groupRef => exact ⟨'\x7b', by decide, _, rfl⟩
  | rest =>
    have all : ∀ c, c = '_' ∨ c = 'ㅇ' → c ∈ starters := by
      rintro _ (rfl | rfl) <;> decide
    exact ⟨sp.rest, all _ sp.rest_eq, [], rfl⟩

/-- The reader reads the item again from its text. -/
structure Ready (sp : Spelling) (reader : Reader Item) (item : Item) : Prop where
  starts : Starts (item.render sp)
  reads : Reads reader (item.render sp) fun read => read.placeless = item.placeless

section Bodies
variable {after : Reader (Option Item)}

/-- What a starter is not. -/
theorem starters_plain {c : Char} (sign : c ∈ starters) : Text.isBlank c = false ∧
    c.isDigit = false ∧ isDecimalChar c = false ∧ c ∉ [')', ']', '\x7d', '>', '|', '='] := by
  have all : ∀ c ∈ starters, Text.isBlank c = false ∧ c.isDigit = false ∧
    isDecimalChar c = false ∧ c ∉ [')', ']', '\x7d', '>', '|', '='] :=
    List.all_iff_forall_prop.mp (by decide)
  exact all c sign

/-- One part of a body: blanks, and then an item. -/
theorem Ready.part (ready : Ready sp inner item) (isGap : IsGap gap)
    (goesOn : ∀ offset rest, Ends rest → after.run ⟨offset, item.render sp ++ rest⟩ =
      (do return some (← inner) : Reader (Option Item)).run ⟨offset, item.render sp ++ rest⟩) :
    Reads (do skipBlanks; after) (gap ++ item.render sp) fun read =>
      ∃ i, read = some i ∧ i.placeless = item.placeless := by
  intro offset rest ends
  obtain ⟨c, sign, cs, rendered⟩ := ready.starts
  obtain ⟨i, same, read⟩ := ready.reads (offset + gap.length) rest ends
  refine ⟨_, ⟨i, rfl, same⟩, ?_⟩
  rw [List.append_assoc, List.length_append, ← Nat.add_assoc]
  have solid : ∀ first ∈ (item.render sp ++ rest).head?, Text.isBlank first = false := by
    rw [rendered]
    exact head_stops (starters_plain sign).1
  rw [run_bind_ok (run_skipBlanks isGap.blank solid), goesOn _ rest ends]
  exact run_bind_ok read

theorem Ready.step (ready : Ready sp inner item) (isGap : IsGap gap)
    (goesOn : ∀ c ∈ starters, ∀ offset cs, after.run ⟨offset, c :: cs⟩ =
      (do return some (← inner) : Reader (Option Item)).run ⟨offset, c :: cs⟩) :
    Reads (do skipBlanks; after) (gap ++ item.render sp) fun read =>
      ∃ i, read = some i ∧ i.placeless = item.placeless := by
  refine ready.part isGap fun offset rest _ => ?_
  obtain ⟨c, sign, cs, rendered⟩ := ready.starts
  rw [rendered]
  exact goesOn c sign offset _

theorem filled {items' : List Item} (nonempty : items ≠ [])
    (same : items'.map Item.placeless = items.map Item.placeless) : ¬ items'.isEmpty := by
  intro empty
  rw [List.isEmpty_iff.mp empty] at same
  exact nonempty (List.map_eq_nil_iff.mp same.symm)

/-- One item of an enclosed body, or its end. -/
def enclosedStep (item : Reader Item) (what : Enclosure) (start : Nat) : Reader (Option Item) := do
  skipBlanks
  match ← peek with
  | none => failAt start (.unclosed what)
  | some c => if c = what.closer then skip 1; return none else return some (← item)

theorem run_enclosed (isGap : IsGap gap) (nonempty : items ≠ [])
    (ready : ∀ i ∈ items, Ready sp inner i) (enough : items.length < limit) (what : Enclosure)
    (offset : Nat) (rest : List Char) :
    ∃ items', items'.map Item.placeless = items.map Item.placeless ∧
      (enclosed limit inner what).run
          ⟨offset, gap ++ (spaced (items.map (Item.render sp)) ++ ([what.closer] ++ rest))⟩ =
        .ok (items',
          ⟨offset + (gap.length + ((spaced (items.map (Item.render sp))).length + 1)), rest⟩) := by
  have closes : what.closer ∈ [' ', ')', ']', '\x7d', '>', '|'] := by cases what <;> decide
  have outside : what.closer ∈ [')', ']', '\x7d', '>', '|', '='] := by cases what <;> decide
  have solid : Text.isBlank what.closer = false := by cases what <;> decide
  have each : ∀ i ∈ items, ∀ gap, IsGap gap → Reads (enclosedStep inner what offset)
      (gap ++ i.render sp) fun read => ∃ j, read = some j ∧ j.placeless = i.placeless := by
    refine fun i listed gap isGap => (ready i listed).step isGap fun c sign offset cs => ?_
    have other : c ≠ what.closer := by
      rintro rfl
      exact (starters_plain sign).2.2.2 outside
    rw [run_peek_bind, List.head?_cons]
    dsimp only
    rw [if_neg other]
  have last (start : Nat) : (enclosedStep inner what offset).run ⟨start, [what.closer] ++ rest⟩ =
      .ok (none, ⟨start + 1, rest⟩) := by
    refine (run_bind_ok (run_skipBlanks_none solid)).trans ?_
    rw [run_peek_bind]
    dsimp only [List.head?_cons]
    rw [if_pos rfl]
    rfl
  obtain ⟨items', same, read⟩ := run_collect each last (ends_cons rest closes) isGap
    (fun none => absurd none nonempty) enough offset
  refine ⟨items', same, ?_⟩
  have opened : enclosed limit inner what = Reader.offset >>= fun start =>
    collect limit (enclosedStep inner what start) >>= fun items =>
      if items.isEmpty then failAt start (.emptyBody what) else return items := rfl
  rw [opened, run_offset_bind, run_bind_ok read, if_neg (filled nonempty same)]
  rfl

end Bodies

theorem run_userRangeName {name : String} (known : Word name) (rest : List Char) :
    userRangeName.run ⟨offset, '\x7b' :: '\x7b' :: (name.toList ++ '\x7d' :: '\x7d' :: rest)⟩ =
      .ok (name, ⟨offset + (name.toList.length + 4), rest⟩) := by
  rw [userRangeName, run_bind_ok (run_expect '\x7b' _), run_bind_ok (run_expect '\x7b' _),
    run_bind_ok (run_word known (head_stops (by decide))), run_bind_ok (run_expect '\x7d' _),
    run_bind_ok (run_expect '\x7d' _)]
  exact ok_at (by omega)

section Constructs
variable (nonempty : items ≠ []) (ready : ∀ i ∈ items, Ready sp inner i)
  (enough : items.length < limit)
include nonempty ready enough

theorem reads_range {mark : Char} {kind : RangeKind} (found : rangeKind? mark = some kind) :
    Reads (range (enclosed limit inner))
      (['(', mark] ++ spaced (items.map (Item.render sp)) ++ [')'])
      fun read => read.placeless = (Item.range 0 kind items).placeless := by
  intro offset rest _
  obtain ⟨items', same, read⟩ :=
    run_enclosed (.inl rfl) nonempty ready enough .range (offset + 1 + 1) rest
  refine ⟨.range offset kind items', by simp only [Item.placeless, allPlaceless_eq, same], ?_⟩
  simp only [List.append_assoc, List.cons_append, List.nil_append]
  rw [range, run_offset_bind, run_bind_ok (run_expect '(' _), run_peek_bind]
  dsimp only [List.head?_cons, Option.bind_some]
  rw [found]
  dsimp only
  rw [run_skip_bind]
  refine (run_bind_ok read).trans (ok_at ?_)
  simp only [List.length_append, List.length_cons, List.length_nil]
  omega

theorem reads_group {id : Nat} (number : id ≤ Duration.greatest) :
    Reads (group (enclosed limit inner))
      ('\x7b' :: digits id ++ ' ' :: spaced (items.map (Item.render sp)) ++ ['\x7d'])
      fun read => read.placeless = (Item.group 0 id items).placeless := by
  intro offset rest _
  obtain ⟨items', same, read⟩ := run_enclosed (.inr rfl) nonempty ready enough .group
    (offset + 1 + (digits id).length) rest
  refine ⟨.group offset id items', by simp only [Item.placeless, allPlaceless_eq, same], ?_⟩
  simp only [List.append_assoc, List.cons_append, List.nil_append]
  rw [group, run_offset_bind, run_bind_ok (run_expect '\x7b' _),
    run_bind_ok (run_number number (head_stops (by decide)))]
  refine (run_bind_ok read).trans (ok_at ?_)
  simp only [List.length_append, List.length_cons, List.length_nil]
  omega

theorem reads_invocation {name : String} (known : Word name) :
    Reads (invocation (enclosed limit inner))
      ((RangeKind.userRange name).opening ++ spaced (items.map (Item.render sp)) ++ [')'])
      fun read => read.placeless = (Item.range 0 (.userRange name) items).placeless := by
  intro offset rest _
  obtain ⟨items', same, read⟩ := run_enclosed (.inl rfl) nonempty ready enough .invocation
    (offset + (name.toList.length + 4) + 1 + 1) rest
  refine ⟨.range offset (.userRange name) items',
    by simp only [Item.placeless, allPlaceless_eq, same], ?_⟩
  simp only [RangeKind.opening, List.append_assoc, List.cons_append, List.nil_append]
  rw [invocation, run_offset_bind, run_bind_ok (run_userRangeName known _),
    run_bind_ok (run_skipBlanks_one (by decide)), run_bind_ok (run_expect '(' _)]
  refine (run_bind_ok read).trans (ok_at ?_)
  simp only [List.length_append, List.length_cons, List.length_nil]
  omega

end Constructs

section Bare

theorem reads_setting {s : Setting} (known : s.Grammatical) :
    Reads (do return .setting (← setting) : Reader Item) s.render
      fun read => read.placeless = (Item.setting s).placeless := by
  intro offset rest _
  refine ⟨.setting { s with offset := offset }, rfl, ?_⟩
  rw [run_bind_ok (run_setting known rest)]
  rfl

theorem reads_groupRef {id : Nat} (number : id ≤ Duration.greatest) :
    Reads groupRef (['\x7b', '='] ++ digits id ++ ['\x7d'])
      fun read => read.placeless = .groupRef 0 id := by
  intro offset rest _
  refine ⟨.groupRef offset id, rfl, ?_⟩
  simp only [List.append_assoc, List.cons_append, List.nil_append]
  rw [groupRef, run_offset_bind, run_bind_ok (run_expect '\x7b' _), run_bind_ok (run_expect '=' _),
    run_bind_ok (run_number number (head_stops (by decide))), run_bind_ok (run_expect '\x7d' _)]
  refine ok_at ?_
  simp only [List.length_append, List.length_cons, List.length_nil]
  omega

theorem reads_emojiRef {symbol : String} (known : Symbol symbol) :
    Reads emojiRef ('(' :: symbol.toList ++ [')']) fun read => read.placeless = .emoji 0 symbol := by
  intro offset rest _
  refine ⟨.emoji offset symbol, rfl, ?_⟩
  simp only [List.append_assoc, List.cons_append, List.nil_append]
  rw [emojiRef, run_offset_bind, run_bind_ok (run_expect '(' _),
    run_bind_ok (run_emojiSymbol known (head_stops (by decide))), run_bind_ok (run_expect ')' _)]
  refine ok_at ?_
  simp only [List.length_append, List.length_cons, List.length_nil]
  omega

theorem reads_breakpoint {value : Binary64} (spelled : ∃ text, Spells text value) (sp : Spelling) :
    Reads breakpoint ('(' :: sp.decimal value ++ [')'])
      fun read => read.placeless = .breakpoint 0 value := by
  intro offset rest _
  obtain ⟨text, spelled⟩ := spelled
  obtain ⟨-, decimal, value?⟩ := sp.decimal_spells spelled
  have inside : ∀ c ∈ sp.decimal value, decide (c ≠ ')') := fun c listed =>
    decide_eq_true fun closes => absurd (decimal c listed) (closes ▸ by decide)
  refine ⟨.breakpoint offset value, rfl, ?_⟩
  simp only [List.append_assoc, List.cons_append, List.nil_append]
  rw [breakpoint, run_offset_bind, run_bind_ok (run_expect '(' _),
    run_bind_ok (run_takeWhile_all inside (head_stops (by decide)))]
  dsimp only
  rw [run_bind_ok (run_expect ')' _), value?]
  refine ok_at ?_
  simp only [List.length_append, List.length_cons, List.length_nil]
  omega

end Bare

/-- Reads what stands at a site. -/
def siteReader (inner : Place → Reader Item) : Site → Reader Item
  | .anywhere => inner .anywhere
  | .ornament => inner .ornament
  | .bend => do if startsBreakpoint (← get).rest then breakpoint else inner .ornament

section Ornaments
variable {inner : Place → Reader Item} {kind : Ornament}

/-- One part of an ornament without a target, or its end. -/
def plainStep (item : Reader Item) (kind : Ornament) (start : Nat) : Reader (Option Item) := do
  skipBlanks
  match (← get).rest with
  | [] => failAt start .unclosedOrnament
  | '>' :: _ => skip 1; return none
  | cs =>
    if kind = .pitchBend ∧ startsBreakpoint cs then return some (← breakpoint)
    else return some (← item)

theorem run_part (kind : Ornament) (cs : List Char) :
    (if kind = .pitchBend ∧ startsBreakpoint cs then return some (← breakpoint)
      else return some (← inner .ornament) : Reader (Option Item)).run ⟨offset, cs⟩ =
    (do return some (← siteReader inner kind.site) : Reader (Option Item)).run ⟨offset, cs⟩ := by
  by_cases bend : kind = .pitchBend
  · subst bend
    simp only [true_and, Ornament.site, siteReader, bind_assoc, run_get_bind]
    split <;> rfl
  · have site : kind.site = .ornament := by
      cases kind <;> first | rfl | exact absurd rfl bend
    rw [if_neg (fun both => bend both.1), site]
    rfl

theorem run_plainStep_end (item : Reader Item) (kind : Ornament) (start offset : Nat)
    (rest : List Char) :
    (plainStep item kind start).run ⟨offset, ['>'] ++ rest⟩ = .ok (none, ⟨offset + 1, rest⟩) :=
  run_bind_ok (run_skipBlanks_none (by decide))

theorem reads_plainStep (ready : Ready sp (siteReader inner kind.site) item) (start : Nat)
    (isGap : IsGap gap) : Reads (plainStep (inner .ornament) kind start) (gap ++ item.render sp)
      fun read => ∃ i, read = some i ∧ i.placeless = item.placeless := by
  refine ready.step isGap fun c sign offset cs => ?_
  have inside : c ≠ '>' := by
    rintro rfl
    exact (starters_plain sign).2.2.2 (by decide)
  rw [run_get_bind, ← run_part]
  dsimp only
  split
  · next same => exact nomatch same
  · next same => exact absurd (List.cons.inj same).1 inside
  · rfl

theorem reads_ornament_plain (nonempty : items ≠ [])
    (ready : ∀ i ∈ items, Ready sp (siteReader inner kind.site) i) (enough : items.length < limit)
    {mark : Char} (found : plainOrnament? mark = some kind) :
    Reads (ornament limit (inner .ornament))
      (['<', mark, ' '] ++ spaced (items.map (Item.render sp)) ++ ['>'])
      fun read => read.placeless = (Item.ornament 0 kind items).placeless := by
  intro offset rest _
  obtain ⟨items', same, read⟩ := run_collect
    (fun i listed _ => reads_plainStep (ready i listed) offset)
    (run_plainStep_end (inner .ornament) kind offset · rest) (ends_cons rest (by decide))
    (.inr rfl) (fun none => absurd none nonempty) enough (offset + 1 + 1)
  have body : plainBody limit (inner .ornament) kind offset =
    collect limit (plainStep (inner .ornament) kind offset) >>= fun body =>
      if body.isEmpty then failAt offset .emptyOrnament
      else return .ornament offset kind body := rfl
  refine ⟨.ornament offset kind items', by simp only [Item.placeless, allPlaceless_eq, same], ?_⟩
  have opened (cs : List Char) : (ornament limit (inner .ornament)).run ⟨offset, '<' :: mark :: cs⟩ =
      (plainBody limit (inner .ornament) kind offset).run ⟨offset + 1 + 1, cs⟩ := by
    rw [ornament, run_offset_bind, run_bind_ok (run_expect '<' _), run_peek_bind]
    dsimp only [List.head?_cons]
    split
    · next same =>
      cases same
      exact nomatch found
    · next same =>
      cases same
      exact nomatch found
    · dsimp only [Option.bind_some]
      rw [found]
      rfl
  simp only [List.append_assoc, List.cons_append, List.nil_append] at read ⊢
  rw [opened, body, run_bind_ok read, if_neg (filled nonempty same)]
  refine ok_at ?_
  simp only [List.length_append, List.length_cons, List.length_nil]
  omega

/-- One item of a crescendo or decrescendo, or its end before the target. -/
def dynamicsStep (item : Reader Item) (start : Nat) : Reader (Option Item) := do
  skipBlanks
  match ← peek with
  | none => failAt start .unclosedOrnament
  | some c => if c.isDigit then return none else return some (← item)

theorem run_dynamicsStep_end (item : Reader Item) (start offset n : Nat) (rest : List Char) :
    (dynamicsStep item start).run ⟨offset, [' '] ++ (digits n ++ rest)⟩ =
      .ok (none, ⟨offset + 1, digits n ++ rest⟩) := by
  obtain ⟨c, cs, spelled⟩ := List.exists_cons_of_ne_nil (digits_ne_nil n)
  have digit : c.isDigit := isDigit_of_mem_digits (spelled ▸ List.mem_cons_self)
  have solid : Text.isBlank c = false := solid_of_isDigit digit
  rw [spelled]
  refine (run_bind_ok (run_skipBlanks_one solid)).trans ?_
  rw [run_peek_bind]
  dsimp only [List.head?_cons]
  rw [if_pos digit]
  rfl

theorem reads_dynamicsStep {inner : Reader Item} (ready : Ready sp inner item) (start : Nat)
    (isGap : IsGap gap) : Reads (dynamicsStep inner start) (gap ++ item.render sp)
      fun read => ∃ i, read = some i ∧ i.placeless = item.placeless := by
  refine ready.step isGap fun c sign offset cs => ?_
  rw [run_peek_bind, List.head?_cons]
  dsimp only
  rw [if_neg (Bool.eq_false_iff.mp (starters_plain sign).2.1)]

theorem reads_ornament_dynamics {inner : Reader Item} (nonempty : items ≠ [])
    (ready : ∀ i ∈ items, Ready sp inner i) (enough : items.length < limit) {target : Nat}
    (small : target ≤ 127) {mark : Char} {kind : Nat → Ornament}
    (opened : ∀ offset cs, (ornament limit inner).run ⟨offset, '<' :: mark :: cs⟩ =
      (dynamicsBody limit inner kind offset).run ⟨offset + 1 + 1, cs⟩) :
    Reads (ornament limit inner) (['<', mark, ' '] ++ spaced (items.map (Item.render sp)) ++
        (' ' :: digits target ++ ['>']))
      fun read => read.placeless = (Item.ornament 0 (kind target) items).placeless := by
  intro offset rest _
  obtain ⟨items', same, read⟩ := run_collect
    (fun i listed _ => reads_dynamicsStep (ready i listed) offset)
    (run_dynamicsStep_end inner offset · target ('>' :: rest)) (ends_cons _ (by decide))
    (.inr rfl) (fun none => absurd none nonempty) enough (offset + 1 + 1)
  have body : dynamicsBody limit inner kind offset =
    collect limit (dynamicsStep inner offset) >>= fun body => Reader.offset >>= fun targetOffset =>
      number >>= fun target => expect '>' >>= fun _ =>
        if 127 < target then failAt targetOffset .targetOutOfRange
        else if body.isEmpty then failAt offset .emptyOrnament
        else return .ornament offset (kind target) body := rfl
  have representable : target ≤ Duration.greatest := Nat.le_trans small (by decide)
  refine ⟨.ornament offset (kind target) items',
    by simp only [Item.placeless, allPlaceless_eq, same], ?_⟩
  simp only [List.append_assoc, List.cons_append, List.nil_append] at read ⊢
  rw [opened, body, run_bind_ok read, run_offset_bind,
    run_bind_ok (run_number representable (head_stops (by decide))),
    run_bind_ok (run_expect '>' _), if_neg (Nat.not_lt_of_le small), if_neg (filled nonempty same)]
  refine ok_at ?_
  simp only [List.length_append, List.length_cons, List.length_nil]
  omega

theorem reads_ornament (nonempty : items ≠ []) (known : kind.Grammatical)
    (ready : ∀ i ∈ items, Ready sp (siteReader inner kind.site) i) (enough : items.length < limit) :
    Reads (ornament limit (inner .ornament))
      (['<', kind.mark, ' '] ++ spaced (items.map (Item.render sp)) ++ kind.closing)
      fun read => read.placeless = (Item.ornament 0 kind items).placeless := by
  cases kind with
  | staccato | fermata | sforzando | trill | pitchBend =>
    exact reads_ornament_plain nonempty ready enough rfl
  | crescendo | decrescendo =>
    exact reads_ornament_dynamics nonempty ready enough known fun _ _ => rfl

end Ornaments

section Parallel
variable {branches : List (List Item)}

/-- The items of branches, and the bars between the branches. -/
def pieces (branches : List (List Item)) : List (Option Item) :=
  [none].intercalate (branches.map (List.map some))

theorem pieces_cons_cons (branch other : List Item) (branches : List (List Item)) :
    pieces (branch :: other :: branches) = branch.map some ++ none :: pieces (other :: branches) := by
  simp only [pieces, List.map_cons, List.intercalate_cons_cons, List.append_assoc,
    List.singleton_append]

theorem splitAtBars_append {parts : List (Option Item)} {branch : List Item}
    (cut : splitAtBars parts = branch :: branches) (items : List Item) :
    splitAtBars (items.map some ++ parts) = (items ++ branch) :: branches := by
  induction items with
  | nil => exact cut
  | cons item items ih =>
    rw [List.map_cons, List.cons_append, splitAtBars, ih]
    rfl

theorem splitAtBars_pieces (some : branches ≠ []) : splitAtBars (pieces branches) = branches := by
  induction branches with
  | nil => exact absurd rfl some
  | cons branch branches ih =>
    cases branches with
    | nil =>
      have alone := @splitAtBars_append _ [] _ rfl branch
      rw [List.append_nil, List.append_nil] at alone
      rw [pieces, List.map_singleton, List.intercalate_singleton, alone]
    | cons other branches =>
      have cut := @splitAtBars_append _ (none :: pieces (other :: branches)) _ rfl branch
      rwa [List.append_nil, ih (List.cons_ne_nil _ _), ← pieces_cons_cons] at cut

theorem splitAtBars_flatten (parts : List (Option Item)) :
    (splitAtBars parts).flatten = parts.filterMap id := by
  induction parts with
  | nil => rfl
  | cons part parts ih =>
    cases part with
    | none => exact ih
    | some i =>
      have head : (some i :: parts).filterMap id = i :: parts.filterMap id := rfl
      rw [head, ← ih, splitAtBars]
      cases splitAtBars parts <;> rfl

theorem splitAtBars_map (f : Item → Item) (parts : List (Option Item)) :
    splitAtBars (parts.map (Option.map f)) = (splitAtBars parts).map (List.map f) := by
  induction parts with
  | nil => rfl
  | cons part parts ih =>
    rw [List.map_cons]
    cases part with
    | none => exact congrArg ([] :: ·) ih
    | some item =>
      rw [Option.map_some, splitAtBars, splitAtBars, ih]
      cases splitAtBars parts <;> rfl

theorem spaced_append {first second : List (List Char)} (left : first ≠ []) (right : second ≠ []) :
    spaced (first ++ second) = spaced first ++ ' ' :: spaced second := by
  obtain ⟨text, first, rfl⟩ := List.exists_cons_of_ne_nil left
  obtain ⟨text', second, rfl⟩ := List.exists_cons_of_ne_nil right
  simp only [List.cons_append, spaced_cons, List.flatMap_append, List.flatMap_cons,
    List.append_assoc]

def renderPiece (sp : Spelling) : Option Item → List Char
  | none => ['|']
  | some item => item.render sp

theorem spaced_pieces (nonempty : ∀ branch ∈ branches, branch ≠ []) :
    spaced ((pieces branches).map (renderPiece sp)) =
      [' ', '|', ' '].intercalate (renderBranches sp branches) := by
  have items (branch : List Item) :
      (branch.map some).map (renderPiece sp) = branch.map (Item.render sp) := by
    rw [List.map_map]
    rfl
  rw [renderBranches_eq]
  induction branches with
  | nil => rfl
  | cons branch branches ih =>
    have filled : branch.map (Item.render sp) ≠ [] := fun none =>
      nonempty branch List.mem_cons_self (List.map_eq_nil_iff.mp none)
    cases branches with
    | nil =>
      rw [pieces, List.map_singleton, List.map_singleton, List.intercalate_singleton,
        List.intercalate_singleton, items]
    | cons other branches =>
      have more : (pieces (other :: branches)).map (renderPiece sp) ≠ [] := by
        have cut := splitAtBars_pieces (List.cons_ne_nil other branches)
        intro none
        rw [List.map_eq_nil_iff.mp none] at cut
        exact nonempty other (List.mem_cons_of_mem _ List.mem_cons_self)
          (List.cons.inj cut).1.symm
      have bar : spaced ((none :: pieces (other :: branches)).map (renderPiece sp)) =
          '|' :: ' ' :: spaced ((pieces (other :: branches)).map (renderPiece sp)) :=
        spaced_append (List.cons_ne_nil ['|'] []) more
      rw [pieces_cons_cons, List.map_append, items,
        spaced_append filled (by rw [List.map_cons]; exact List.cons_ne_nil _ _), bar,
        ih fun b listed => nonempty b (List.mem_cons_of_mem _ listed)]
      simp only [List.map_cons, List.intercalate_cons_cons, List.append_assoc, List.cons_append,
        List.nil_append]

/-- One item or bar of a parallel, or its end. -/
def parallelStep (item : Reader Item) (start : Nat) : Reader (Option (Option Item)) := do
  skipBlanks
  match (← get).rest with
  | [] => failAt start .unclosedParallel
  | ']' :: ']' :: _ => skip 2; return none
  | '|' :: _ => skip 1; return some none
  | _ => return some (some (← item))

theorem reads_parallelStep (isGap : IsGap gap) (start : Nat) {piece : Option Item}
    (ready : ∀ i ∈ piece, Ready sp inner i) :
    Reads (parallelStep inner start) (gap ++ renderPiece sp piece) fun read =>
      ∃ p, read = some p ∧ p.map Item.placeless = piece.map Item.placeless := by
  intro offset rest ends
  cases piece with
  | none =>
    refine ⟨some none, ⟨none, rfl, rfl⟩, ?_⟩
    rw [renderPiece, List.append_assoc, List.length_append, ← Nat.add_assoc]
    exact run_bind_ok (run_skipBlanks isGap.blank (head_stops (by decide)))
  | some item =>
    have ready := ready item rfl
    obtain ⟨c, sign, cs, rendered⟩ := ready.starts
    obtain ⟨i, same, read⟩ := ready.reads (offset + gap.length) rest ends
    have outside {closer : Char} (closes : closer ∈ [')', ']', '\x7d', '>', '|', '=']) :
        c ≠ closer := by
      rintro rfl
      exact (starters_plain sign).2.2.2 closes
    refine ⟨some (some i), ⟨some i, rfl, congrArg some same⟩, ?_⟩
    rw [renderPiece, List.append_assoc, List.length_append, ← Nat.add_assoc]
    rw [rendered, List.cons_append] at read ⊢
    rw [parallelStep, run_bind_ok (run_skipBlanks isGap.blank (head_stops (starters_plain sign).1)),
      run_get_bind]
    dsimp only
    split
    · next same => exact nomatch same
    · next same => exact absurd (List.cons.inj same).1 (outside (by decide))
    · next same => exact absurd (List.cons.inj same).1 (outside (by decide))
    · exact run_bind_ok read

theorem mem_pieces_iff :
    some item ∈ pieces branches ↔ ∃ branch ∈ branches, item ∈ branch := by
  have alone (branch : List Item) : some item ∈ branch.map some ↔ item ∈ branch := by
    rw [List.mem_map]
    exact ⟨fun ⟨_, inside, same⟩ => Option.some.inj same ▸ inside, fun inside => ⟨item, inside, rfl⟩⟩
  induction branches with
  | nil => exact ⟨nofun, nofun⟩
  | cons branch branches ih =>
    cases branches with
    | nil =>
      rw [pieces, List.map_singleton, List.intercalate_singleton, alone]
      simp only [List.mem_singleton, exists_eq_left]
    | cons other branches =>
      rw [pieces_cons_cons, List.mem_append, alone]
      simp only [List.mem_cons, reduceCtorEq, false_or, ih, or_and_right, exists_or, exists_eq_left]

theorem reads_parallel (several : 2 ≤ branches.length)
    (nonempty : ∀ branch ∈ branches, branch ≠ [])
    (ready : ∀ branch ∈ branches, ∀ i ∈ branch, Ready sp inner i)
    (enough : (pieces branches).length < limit) :
    Reads (parallel limit inner)
      (['[', '['] ++ [' ', '|', ' '].intercalate (renderBranches sp branches) ++ [']', ']'])
      fun read => read.placeless = (Item.parallel 0 branches).placeless := by
  intro offset rest _
  have some : branches ≠ [] := by
    rintro rfl
    exact absurd several (by decide)
  have each : ∀ piece ∈ pieces branches, ∀ gap, IsGap gap →
      Reads (parallelStep inner offset) (gap ++ renderPiece sp piece) fun read =>
        ∃ p, read = Option.some p ∧ p.map Item.placeless = piece.map Item.placeless := by
    refine fun piece listed gap isGap => reads_parallelStep isGap offset fun i same => ?_
    cases same
    obtain ⟨branch, among, inside⟩ := mem_pieces_iff.mp listed
    exact ready branch among i inside
  have last (start : Nat) : (parallelStep inner offset).run ⟨start, [']', ']'] ++ rest⟩ =
      .ok (none, ⟨start + 2, rest⟩) := run_bind_ok (run_skipBlanks_none (by decide))
  obtain ⟨parts, same, read⟩ := run_collect each last (ends_cons _ (by decide)) (.inl rfl)
    (fun _ => rfl) enough (offset + 1 + 1)
  have cut : (splitAtBars parts).map (List.map Item.placeless) =
      branches.map (List.map Item.placeless) := by
    rw [← splitAtBars_map, same, splitAtBars_map, splitAtBars_pieces some]
  have many : ¬ (splitAtBars parts).length < 2 := by
    have lengths := congrArg List.length cut
    rw [List.length_map, List.length_map] at lengths
    omega
  have filled : ¬ (splitAtBars parts).any List.isEmpty := by
    intro empty
    obtain ⟨branch, among, empty⟩ := List.any_eq_true.mp empty
    rw [List.isEmpty_iff.mp empty] at among
    have among : [] ∈ branches.map (List.map Item.placeless) :=
      cut ▸ List.mem_map_of_mem among
    obtain ⟨b, among, none⟩ := List.mem_map.mp among
    exact nonempty b among (List.map_eq_nil_iff.mp none)
  have opened : parallel limit inner = Reader.offset >>= fun start => expect '[' >>= fun _ =>
    expect '[' >>= fun _ => collect limit (parallelStep inner start) >>= fun parts =>
      if (splitAtBars parts).length < 2 then failAt start .uselessParallel
      else if (splitAtBars parts).any List.isEmpty then failAt start .emptyBranch
      else return .parallel start (splitAtBars parts) := rfl
  rw [spaced_pieces nonempty] at read
  refine ⟨.parallel offset (splitAtBars parts),
    by simp only [Item.placeless, branchesPlaceless_eq, cut], ?_⟩
  simp only [List.append_assoc, List.cons_append, List.nil_append] at read ⊢
  rw [opened, run_offset_bind, run_bind_ok (run_expect '[' _), run_bind_ok (run_expect '[' _),
    run_bind_ok read, if_neg many, if_neg filled]
  refine ok_at ?_
  simp only [List.length_append, List.length_cons, List.length_nil]
  omega

end Parallel

end TextScore.Score
