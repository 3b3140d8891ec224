import TextScore.Proofs.Lookahead
import TextScore.Score.Reader

/-! Scores that the grammar knows are read again from their texts. -/
namespace TextScore.Score
open Reader

variable {sp : Spelling} {limit offset : Nat} {item : Item} {node : Node} {items : List Item}
  {rest cs gap : List Char} {c : Char}

/-- Reads an item as a node. -/
def itemNode (limit : Nat) : Reader Node := do return .item (← nested limit .anywhere)

section Items

theorem run_node_sign
    (sign : c ∈ ['[', '<', '_', 'ㅇ', '~', 'ㅡ', '^', 'v'] ++ toneSigns) (offset : Nat) :
    (Score.node limit).run ⟨offset, c :: cs⟩ = (itemNode limit).run ⟨offset, c :: cs⟩ := by
  have all : ∀ c ∈ ['[', '<', '_', 'ㅇ', '~', 'ㅡ', '^', 'v'] ++ toneSigns,
    c ∉ ['(', '\x7b', '|', ':', '/', '#'] := List.all_iff_forall_prop.mp (by decide)
  have other := all c sign
  rw [Score.node, run_offset_bind, run_get_bind]
  dsimp only
  split
  all_goals first | rfl | (next same => cases same; exact absurd (by decide) other)

theorem run_node_bracket (other : c ≠ '(') (offset : Nat) :
    (Score.node limit).run ⟨offset, '(' :: c :: cs⟩ =
      (itemNode limit).run ⟨offset, '(' :: c :: cs⟩ := by
  rw [Score.node, run_offset_bind, run_get_bind]
  dsimp only
  split
  all_goals first | rfl | (next same => cases same <;> exact absurd rfl other)

theorem run_node_brace (other : c ≠ '\x7b') (offset : Nat) :
    (Score.node limit).run ⟨offset, '\x7b' :: c :: cs⟩ =
      (itemNode limit).run ⟨offset, '\x7b' :: c :: cs⟩ := by
  rw [Score.node, run_offset_bind, run_get_bind]
  dsimp only
  split
  all_goals first | rfl | (next same => cases same <;> exact absurd rfl other)

/-- No item is taken for a node of another kind, but where a name in double braces decides later. -/
theorem run_node_item (known : item.Grammatical .anywhere) :
    (∃ offset name body, item = .range offset (.userRange name) body ∧ Word name) ∨
      ∀ offset rest, (Score.node limit).run ⟨offset, item.render sp ++ rest⟩ =
        (itemNode limit).run ⟨offset, item.render sp ++ rest⟩ := by
  cases known with
  | @setting _ s words =>
    obtain ⟨c, cs, spelled⟩ := List.exists_cons_of_ne_nil words.1.1
    have other : c ≠ '(' := by
      rintro rfl
      exact absurd (words.1.2 _ (spelled ▸ List.mem_cons_self)) (by decide)
    refine .inr fun offset rest => ?_
    rw [Item.render, Setting.render, spelled]
    exact run_node_bracket other offset
  | range known =>
    rcases opening_cases known with ⟨name, rfl, word⟩ | ⟨mark, opening, found⟩
    · exact .inl ⟨_, name, _, rfl, word⟩
    · have other : mark ≠ '(' := by
        rintro rfl
        cases found
      refine .inr fun offset rest => ?_
      rw [Item.render, opening]
      exact run_node_bracket other offset
  | key known =>
    obtain ⟨c, cs, rendered, sign⟩ := exists_render_key known sp
    refine .inr fun offset rest => ?_
    rw [Item.render, rendered]
    exact run_node_sign (List.mem_append_right ['[', '<', '_', 'ㅇ', '~', 'ㅡ'] sign) offset
  | chord | graced | parallel => exact .inr fun offset _ => run_node_sign (by decide) offset
  | ornament => exact .inr fun offset _ => run_node_sign (by decide) offset
  | tie =>
    have all : ∀ c, c = '~' ∨ c = 'ㅡ' →
        c ∈ ['[', '<', '_', 'ㅇ', '~', 'ㅡ', '^', 'v'] ++ toneSigns := by
      rintro _ (rfl | rfl) <;> decide
    exact .inr fun offset _ => run_node_sign (all _ sp.tie_eq) offset
  | rest =>
    have all : ∀ c, c = '_' ∨ c = 'ㅇ' →
        c ∈ ['[', '<', '_', 'ㅇ', '~', 'ㅡ', '^', 'v'] ++ toneSigns := by
      rintro _ (rfl | rfl) <;> decide
    exact .inr fun offset _ => run_node_sign (all _ sp.rest_eq) offset
  | @group _ id =>
    obtain ⟨c, cs, spelled⟩ := List.exists_cons_of_ne_nil (digits_ne_nil id)
    have other : c ≠ '\x7b' := by
      rintro rfl
      exact absurd (isDigit_of_mem_digits (spelled ▸ List.mem_cons_self)) (by decide)
    refine .inr fun offset rest => ?_
    rw [Item.render, spelled]
    exact run_node_brace other offset
  | groupRef => exact .inr fun offset _ => run_node_brace (by decide) offset
  | @emoji _ symbol known =>
    obtain ⟨c, cs, spelled⟩ := List.exists_cons_of_ne_nil known.1
    have other : c ≠ '(' := by
      rintro rfl
      exact absurd (known.2 _ (spelled ▸ List.mem_cons_self)) (by decide)
    refine .inr fun offset rest => ?_
    rw [Item.render, spelled]
    exact run_node_bracket other offset

end Items

section Nodes

/-- The text of a node is read as this node. -/
def Reopens (sp : Spelling) (limit : Nat) (node : Node) : Prop :=
  Reads (Score.node limit) (node.render sp) fun read => read.placeless = node.placeless

theorem run_node_global {key : String} (word : Word key) (offset : Nat) (cs : List Char) :
    (Score.node limit).run ⟨offset, '(' :: '(' :: (key.toList ++ cs)⟩ =
      Score.global.run ⟨offset, '(' :: '(' :: (key.toList ++ cs)⟩ := by
  obtain ⟨c, ds, spelled⟩ := List.exists_cons_of_ne_nil word.1
  have letter : isWordChar c := word.2 c (spelled ▸ List.mem_cons_self)
  have plain : ¬ (c :: (ds ++ cs)).head?.any isEmoji :=
    Bool.eq_false_iff.mp (isEmoji_of_isWordChar letter)
  have found : (Score.node limit).run ⟨offset, '(' :: '(' :: c :: (ds ++ cs)⟩ =
    (if (c :: (ds ++ cs)).head?.any isEmoji then declareEmoji else Score.global).run
      ⟨offset, '(' :: '(' :: c :: (ds ++ cs)⟩ := rfl
  rw [spelled, List.cons_append, found, if_neg plain]

theorem reopens_global {key value : String} (words : Word key ∧ Word value) (start : Nat) :
    Reopens sp limit (.global start key value) := by
  intro offset rest _
  refine ⟨.global offset key value, rfl, ?_⟩
  simp only [Node.render, List.append_assoc, List.cons_append, List.nil_append]
  rw [run_node_global words.1, Score.global, run_offset_bind, run_bind_ok (run_expect '(' _),
    run_bind_ok (run_expect '(' _), run_bind_ok (run_word words.1 (head_stops (by decide))),
    run_bind_ok (run_expect '=' _), run_bind_ok (run_word words.2 (head_stops (by decide))),
    run_bind_ok (run_expect ')' _), run_bind_ok (run_expect ')' _)]
  refine ok_at ?_
  simp only [List.length_append, List.length_cons, List.length_nil]
  omega

theorem run_node_declareEmoji {symbol : String} (known : Symbol symbol) (offset : Nat)
    (cs : List Char) : (Score.node limit).run ⟨offset, '(' :: '(' :: (symbol.toList ++ cs)⟩ =
      declareEmoji.run ⟨offset, '(' :: '(' :: (symbol.toList ++ cs)⟩ := by
  obtain ⟨c, ds, spelled⟩ := List.exists_cons_of_ne_nil known.1
  have sign : (c :: (ds ++ cs)).head?.any isEmoji := known.2 c (spelled ▸ List.mem_cons_self)
  have found : (Score.node limit).run ⟨offset, '(' :: '(' :: c :: (ds ++ cs)⟩ =
    (if (c :: (ds ++ cs)).head?.any isEmoji then declareEmoji else Score.global).run
      ⟨offset, '(' :: '(' :: c :: (ds ++ cs)⟩ := rfl
  rw [spelled, List.cons_append, found, if_pos sign]

theorem reopens_declareEmoji {symbol : String} {s : Setting} (known : Symbol symbol)
    (words : s.Grammatical) (start : Nat) : Reopens sp limit (.declareEmoji start symbol s) := by
  intro offset rest _
  have bracket (cs : List Char) : s.render ++ cs = '(' :: (s.render.tail ++ cs) := rfl
  refine ⟨.declareEmoji offset symbol
    { s with offset := offset + 1 + 1 + symbol.toList.length + 1 + 1 }, rfl, ?_⟩
  simp only [Node.render, List.append_assoc, List.cons_append, List.nil_append]
  rw [run_node_declareEmoji known, declareEmoji, run_offset_bind, run_bind_ok (run_expect '(' _),
    run_bind_ok (run_expect '(' _), run_bind_ok (run_emojiSymbol known (head_stops (by decide))),
    run_bind_ok (run_expect '=' _), bracket, run_bind_ok (run_skipBlanks_one (by decide)), ← bracket,
    run_bind_ok (run_setting words _), run_bind_ok (run_skipBlanks_one (by decide)),
    run_bind_ok (run_expect ')' _), run_bind_ok (run_expect ')' _)]
  refine ok_at ?_
  simp only [List.length_append, List.length_cons, List.length_nil]
  omega

theorem reopens_channel {id : Nat} (number : id ≤ Duration.greatest) (resume : Bool)
    (start : Nat) : Reopens sp limit (.channel start id resume) := by
  intro offset rest ends
  have plain : ∀ c ∈ rest.head?, c.isDigit = false :=
    ends.head (p := Char.isDigit) (List.all_iff_forall_prop.mp (by decide))
  have opened (cs : List Char) : (Score.node limit).run ⟨offset, '#' :: cs⟩ = (do
      let resume := (← peek) = some '~'
      if resume then skip 1
      return .channel offset (← Score.number) resume : Reader Node).run ⟨offset + 1, cs⟩ := by
    have found : (Score.node limit).run ⟨offset, '#' :: cs⟩ =
      Score.channel.run ⟨offset, '#' :: cs⟩ := rfl
    rw [found, Score.channel, run_offset_bind, run_bind_ok (run_expect '#' _)]
  refine ⟨.channel offset id resume, rfl, ?_⟩
  simp only [Node.render, List.append_assoc, List.cons_append]
  rw [opened, run_peek_bind]
  cases resume with
  | true =>
    simp only [reduceIte, List.cons_append, List.nil_append, List.head?_cons, decide_true,
      run_skip_bind, List.drop_succ_cons, List.drop_zero]
    rw [run_bind_ok (run_number number plain)]
    refine ok_at ?_
    simp only [List.length_cons]
    omega
  | false =>
    have other : (digits id ++ rest).head? ≠ some '~' := by
      obtain ⟨c, cs, spelled⟩ := List.exists_cons_of_ne_nil (digits_ne_nil id)
      have digit : c.isDigit := isDigit_of_mem_digits (spelled ▸ List.mem_cons_self)
      rw [spelled]
      intro same
      exact absurd digit (Option.some.inj same ▸ by decide)
    simp only [reduceIte, Bool.false_eq_true, List.nil_append, other, decide_false]
    rw [run_bind_ok (run_number number plain)]
    refine ok_at ?_
    simp only [List.length_cons]
    omega

theorem reopens_repeatClose {count : Option Nat} (number : ∀ n ∈ count, n ≤ Duration.greatest)
    (start : Nat) : Reopens sp limit (.repeatClose start count) := by
  intro offset rest ends
  have plain : ∀ c ∈ rest.head?, c.isDigit = false :=
    ends.head (p := Char.isDigit) (List.all_iff_forall_prop.mp (by decide))
  have opened (cs : List Char) : (Score.node limit).run ⟨offset, ':' :: '|' :: cs⟩ =
    (if cs.head?.any Char.isDigit then return .repeatClose offset (some (← Score.number))
      else return .repeatClose offset none : Reader Node).run ⟨offset + 2, cs⟩ := rfl
  refine ⟨.repeatClose offset count, rfl, ?_⟩
  simp only [Node.render, List.cons_append, List.nil_append]
  rw [opened]
  cases count with
  | none =>
    have bare : ¬ ([] ++ rest).head?.any Char.isDigit := by
      rw [List.nil_append, Option.any_eq_true]
      rintro ⟨c, first, digit⟩
      exact absurd digit (Bool.eq_false_iff.mp (plain c first))
    rw [Option.elim_none, if_neg bare]
    rfl
  | some n =>
    have counted : (digits n ++ rest).head?.any Char.isDigit := by
      obtain ⟨c, cs, spelled⟩ := List.exists_cons_of_ne_nil (digits_ne_nil n)
      rw [spelled]
      exact isDigit_of_mem_digits (spelled ▸ List.mem_cons_self)
    rw [Option.elim_some, if_pos counted, run_bind_ok (run_number (number n rfl) plain)]
    refine ok_at ?_
    simp only [List.length_cons]
    omega

theorem reopens_volta (ending : Volta) (start : Nat) :
    Reopens sp limit (.volta start ending) := by
  intro offset rest _
  cases ending with
  | prima => exact ⟨.volta offset .prima, rfl, rfl⟩
  | seconda => exact ⟨.volta offset .seconda, rfl, rfl⟩

/-- A name in double braces, and what stands behind it. -/
theorem run_node_name {name : String} (word : Word name) (other : Text.isBlank c = false)
    (offset : Nat) (cs : List Char) :
    (Score.node limit).run ⟨offset,
        '\x7b' :: '\x7b' :: (name.toList ++ '\x7d' :: '\x7d' :: ' ' :: c :: cs)⟩ =
      (if some c = some '\x7b' then do
          skip 1
          return .define offset name (← enclosed limit (nested limit .anywhere) .definition)
        else do
          set (⟨offset, '\x7b' :: '\x7b' :: (name.toList ++ '\x7d' :: '\x7d' :: ' ' :: c :: cs)⟩ :
            Cursor)
          itemNode limit : Reader Node).run ⟨offset + (name.toList.length + 4) + 1, c :: cs⟩ := by
  have found : (Score.node limit).run ⟨offset,
        '\x7b' :: '\x7b' :: (name.toList ++ '\x7d' :: '\x7d' :: ' ' :: c :: cs)⟩ =
      (definition limit).run ⟨offset,
        '\x7b' :: '\x7b' :: (name.toList ++ '\x7d' :: '\x7d' :: ' ' :: c :: cs)⟩ := rfl
  rw [found, definition, run_get_bind, run_bind_ok (run_userRangeName word _),
    run_bind_ok (run_skipBlanks_one other), run_peek_bind]
  rfl

theorem reopens_define {name : String} (word : Word name) (nonempty : items ≠ [])
    (all : ∀ i ∈ items, i.Grammatical .anywhere) (start : Nat)
    (enough : ((Node.define start name items).render sp).length ≤ limit) :
    Reopens sp limit (.define start name items) := by
  intro offset rest _
  have fits : (spaced (items.map (Item.render sp))).length + 1 ≤ limit := by
    simp only [Node.render, List.length_append, List.length_cons] at enough
    omega
  obtain ⟨few, -⟩ := Rereads.siblings (fun i listed => rereads_of_grammatical (all i listed)) all
    (Nat.le_refl _)
  obtain ⟨-, ready⟩ := Rereads.siblings (fun i listed => rereads_of_grammatical (all i listed)) all
    (Nat.le_of_succ_le fits)
  obtain ⟨items', same, read⟩ := run_enclosed (.inl rfl) nonempty ready (Nat.lt_of_lt_of_le few fits)
    .definition (offset + (name.toList.length + 4) + 1 + 1) rest
  refine ⟨.define offset name items', congrArg (Node.define 0 name) same, ?_⟩
  simp only [Node.render, List.append_assoc, List.cons_append, List.nil_append]
  rw [run_node_name word (by decide), if_pos rfl, run_skip_bind]
  refine (run_bind_ok read).trans (ok_at ?_)
  simp only [List.length_append, List.length_cons, List.length_nil]
  omega

theorem reopens_item (known : item.Grammatical .anywhere)
    (enough : (item.render sp).length ≤ limit) : Reopens sp limit (.item item) := by
  intro offset rest ends
  obtain ⟨read, same, run⟩ := (rereads_of_grammatical known limit enough).reads offset rest ends
  have itself : (itemNode limit).run ⟨offset, item.render sp ++ rest⟩ =
    .ok (.item read, ⟨offset + (item.render sp).length, rest⟩) := run_bind_ok run
  refine ⟨.item read, congrArg Node.item same, Eq.trans ?_ itself⟩
  rcases run_node_item known with ⟨start, name, body, rfl, word⟩ | only
  · have bracket : some '(' ≠ some '\x7b' := by decide
    simp only [Node.render, Item.render, RangeKind.opening, List.append_assoc, List.cons_append,
      List.nil_append]
    rw [run_node_name word (by decide), if_neg bracket]
    rfl
  · exact only offset rest

theorem reopens_of_grammatical (known : node.Grammatical)
    (enough : (node.render sp).length ≤ limit) : Reopens sp limit node := by
  cases node with
  | global start => exact reopens_global known start
  | channel start id resume => exact reopens_channel known resume start
  | define start => exact reopens_define known.1 known.2.1 known.2.2 start enough
  | repeatOpen start => exact fun offset _ _ => ⟨.repeatOpen offset, rfl, rfl⟩
  | repeatClose start => exact reopens_repeatClose known start
  | volta start ending => exact reopens_volta ending start
  | declareEmoji start => exact reopens_declareEmoji known.1 known.2 start
  | item => exact reopens_item known enough

end Nodes

section Scores

theorem exists_render_node (known : node.Grammatical) (sp : Spelling) :
    ∃ c cs, node.render sp = c :: cs ∧ Text.isBlank c = false := by
  cases node with
  | item =>
    obtain ⟨c, sign, cs, rendered⟩ := starts_render known sp
    exact ⟨c, cs, rendered, (starters_plain sign).1⟩
  | _ => exact ⟨_, _, rfl, by decide⟩

/-- One node of a score, or its end. -/
def nodesStep (limit : Nat) : Reader (Option Node) := do
  skipBlanks
  if (← peek).isNone then return none else return some (← Score.node limit)

theorem reads_nodesStep (known : node.Grammatical) (enough : (node.render sp).length ≤ limit)
    (isGap : IsGap gap) : Reads (nodesStep limit) (gap ++ node.render sp)
      fun read => ∃ n, read = some n ∧ n.placeless = node.placeless := by
  intro offset rest ends
  obtain ⟨n, same, read⟩ := reopens_of_grammatical known enough (offset + gap.length) rest ends
  obtain ⟨c, cs, rendered, solid⟩ := exists_render_node known sp
  refine ⟨some n, ⟨n, rfl, same⟩, ?_⟩
  rw [List.append_assoc, List.length_append, ← Nat.add_assoc]
  rw [rendered, List.cons_append] at read ⊢
  rw [nodesStep, run_bind_ok (run_skipBlanks isGap.blank (head_stops solid)), run_peek_bind]
  exact run_bind_ok read

/-- Whatever score the grammar knows, its text is accepted and read as the score again, up to the
places of its nodes and items. -/
theorem read_render (sp : Spelling) {score : List Node} (known : ∀ node ∈ score, node.Grammatical) :
    ∃ score', read (Score.render sp score) = .ok score' ∧
      score'.map Node.placeless = score.map Node.placeless := by
  have filled : ∀ node ∈ score, node.render sp ≠ [] := fun node listed => by
    obtain ⟨c, cs, rendered, -⟩ := exists_render_node (known node listed) sp
    rw [rendered]
    exact List.cons_ne_nil c cs
  obtain ⟨few, short⟩ := bound_siblings filled (Nat.le_refl _)
  have each : ∀ node ∈ score, ∀ gap, IsGap gap →
      Reads (nodesStep ((Score.render sp score).length + 1)) (gap ++ node.render sp)
        fun read => ∃ n, read = some n ∧ n.placeless = node.placeless :=
    fun node listed _ => reads_nodesStep (known node listed) (Nat.le_succ_of_le (short node listed))
  have last (offset : Nat) : (nodesStep ((Score.render sp score).length + 1)).run ⟨offset, [] ++ []⟩ =
    .ok (none, ⟨offset + 0, []⟩) := rfl
  obtain ⟨score', same, collected⟩ := run_collect each last nofun (.inl rfl) (fun _ => rfl)
    (Nat.lt_succ_of_le few) 0
  rw [List.append_nil, List.append_nil, List.nil_append] at collected
  refine ⟨score', ?_, same⟩
  rw [read, StateT.run'_eq]
  exact congrArg (Functor.map Prod.fst) collected

def note (pitchClass : Nat) : Item := .key ⟨0, .pitchClass pitchClass, 0, 0⟩

theorem note_grammatical {pitchClass : Nat} (small : pitchClass ≤ 11) (site : Site) :
    (note pitchClass).Grammatical site :=
  .key fun n same => by cases same; exact small

/-- A template, and a repeated part that invokes it and bends a graced note. -/
def tune : List Node :=
  [.global 0 "bpm" "96", .declareEmoji 0 "♫" ⟨0, "v", "90"⟩,
    .define 0 "up" [.key ⟨0, .placeholder, 1, -1⟩], .channel 0 1 false, .repeatOpen 0,
    .item (.range 0 (.userRange "up") [note 0, note 4]),
    .item (.graced 0 [.range 0 (.tuplet 3) [note 2]]
      (.ornament 0 .pitchBend [.breakpoint 0 (.ofNat 0), note 5, .tie 0])),
    .item (.parallel 0 [[note 7, .emoji 0 "♫"], [.chord ⟨0, true, []⟩, .rest 0]]),
    .item (.ornament 0 (.crescendo 100) [.setting ⟨0, "q", "8"⟩, note 9]), .repeatClose 0 (some 3)]

theorem tune_grammatical : ∀ node ∈ tune, node.Grammatical := by
  have zero : ∃ text, Spells text (.ofNat 0) := ⟨['0'], by decide, List.forall_mem_singleton.mpr rfl, by decide⟩
  have placeholder : Item.Grammatical .anywhere (.key ⟨0, .placeholder, 1, -1⟩) := .key nofun
  have invocation : Item.Grammatical .anywhere (.range 0 (.userRange "up") [note 0, note 4]) := by
    refine .range (by decide : Word "up") (by decide) ?_
    simp only [List.forall_mem_cons]
    exact ⟨note_grammatical (by decide) _, note_grammatical (by decide) _, nofun⟩
  have graced : Item.Grammatical .anywhere (.graced 0 [.range 0 (.tuplet 3) [note 2]]
      (.ornament 0 .pitchBend [.breakpoint 0 (.ofNat 0), note 5, .tie 0])) := by
    refine .graced (List.forall_mem_singleton.mpr trivial) (List.forall_mem_singleton.mpr ?_) trivial
      (.ornament trivial (by decide) ?_)
    · exact .range (.inl rfl) (by decide)
        (List.forall_mem_singleton.mpr (note_grammatical (by decide) _))
    · simp only [List.forall_mem_cons]
      exact ⟨.breakpoint zero, note_grammatical (by decide) _, .tie, nofun⟩
  have parallel : Item.Grammatical .anywhere
      (.parallel 0 [[note 7, .emoji 0 "♫"], [.chord ⟨0, true, []⟩, .rest 0]]) := by
    refine .parallel (by decide) ?_ ?_
    all_goals simp only [List.forall_mem_cons]
    · exact ⟨by decide, by decide, nofun⟩
    · exact ⟨⟨note_grammatical (by decide) _, .emoji (by decide), nofun⟩,
        ⟨.chord nofun, .rest, nofun⟩, nofun⟩
  have crescendo : Item.Grammatical .anywhere
      (.ornament 0 (.crescendo 100) [.setting ⟨0, "q", "8"⟩, note 9]) := by
    refine .ornament (by decide : 100 ≤ 127) (by decide) ?_
    simp only [List.forall_mem_cons]
    exact ⟨.setting (by decide), note_grammatical (by decide) _, nofun⟩
  have shortcut : Symbol "♫" ∧ Setting.Grammatical ⟨0, "v", "90"⟩ := by decide
  have template : Word "up" := by decide
  have tempo : Word "bpm" ∧ Word "96" := by decide
  have channel : 1 ≤ Duration.greatest := by decide
  simp only [tune, List.forall_mem_cons]
  exact ⟨tempo, shortcut, ⟨template, by decide, List.forall_mem_singleton.mpr placeholder⟩,
    channel, trivial, invocation, graced, parallel, crescendo, fun n same => by cases same; decide,
    nofun⟩

theorem read_render_tune : (∀ node ∈ tune, node.Grammatical) ∧
    ∃ score, read (Score.render .latin tune) = .ok score ∧
      score.map Node.placeless = tune.map Node.placeless :=
  ⟨tune_grammatical, read_render .latin tune_grammatical⟩

end Scores

end TextScore.Score
