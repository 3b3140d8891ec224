import TextScore.Proofs.LocalItems

/-! Scores behind one another. With blanks between them, texts are read one after the other: what the
first one says is read as it is alone, and so is what the second one says, only further on. -/
namespace TextScore

section Later

theorem Chord.later_zero (c : Chord) : c.later 0 = c := by
  have keys : c.keys.map (Key.later 0) = c.keys := List.map_id _
  rw [Chord.later, keys, Nat.add_zero]

mutual

theorem Item.later_zero (item : Item) : item.later 0 = item := by
  cases item with
  | setting s => rfl
  | range offset kind body => rw [Item.later, allLater_zero, Nat.add_zero]
  | key k => rfl
  | chord c => rw [Item.later, Chord.later_zero]
  | ornament offset kind body => rw [Item.later, allLater_zero, Nat.add_zero]
  | tie offset => rfl
  | breakpoint offset value => rfl
  | graced offset graces main => rw [Item.later, allLater_zero, Item.later_zero main, Nat.add_zero]
  | group offset id body => rw [Item.later, allLater_zero, Nat.add_zero]
  | groupRef offset id => rfl
  | parallel offset branches => rw [Item.later, branchesLater_zero, Nat.add_zero]
  | emoji offset symbol => rfl
  | rest offset => rfl

theorem allLater_zero (items : List Item) : allLater 0 items = items := by
  cases items with
  | nil => rfl
  | cons item items => rw [allLater, Item.later_zero item, allLater_zero items]

theorem branchesLater_zero (branches : List (List Item)) : branchesLater 0 branches = branches := by
  cases branches with
  | nil => rfl
  | cons branch branches => rw [branchesLater, allLater_zero branch, branchesLater_zero branches]

end

theorem Node.later_zero (node : Node) : node.later 0 = node := by
  cases node with
  | define offset name template => rw [Node.later, ← allLater_eq, allLater_zero, Nat.add_zero]
  | item i => rw [Node.later, Item.later_zero]
  | global | channel | repeatOpen | repeatClose | volta | declareEmoji => rfl

end Later

/-- What has been read by two readers one after the other. -/
theorem Reader.of_run_bind {α β : Type} {p : Reader α} {f : α → Reader β} {b : β} {c c'' : Cursor}
    (done : (p >>= f).run c = .ok (b, c'')) :
    ∃ a c', p.run c = .ok (a, c') ∧ (f a).run c' = .ok (b, c'') := by
  rw [StateT.run_bind] at done
  cases first : p.run c with
  | error fault =>
    rw [first] at done
    cases done
  | ok read =>
    rw [first] at done
    exact ⟨read.1, read.2, rfl, done⟩

namespace Score
open Reader

variable {before limit limit' most most' : Nat} {after gap text rest : List Char} {c : Cursor}

section Nodes
variable (apart : ∀ t ∈ after.head?, Text.isBlank t)
include apart

theorem persists_global (c : Cursor) : Persists before after (Node.later before) Score.global
    Score.global c fun _ c' => c'.rest.length < c.rest.length := by
  refine .offset (.expect fun c₁ fewer₁ => .expect fun c₂ fewer₂ => ?_)
  refine (persists_word apart c₂).bind fun key c₃ fewer₃ => .expect fun c₄ fewer₄ => ?_
  refine (persists_word apart c₄).bind fun value c₅ fewer₅ => .expect fun c₆ fewer₆ => ?_
  refine .expect fun c₇ fewer₇ => .pure ?_
  omega

theorem persists_declareEmoji (c : Cursor) : Persists before after (Node.later before) declareEmoji
    declareEmoji c fun _ c' => c'.rest.length < c.rest.length := by
  refine .offset (.expect fun c₁ fewer₁ => .expect fun c₂ fewer₂ => ?_)
  refine persists_emojiSymbol (fun _ _ => ⟨_, rfl⟩) fun symbol c₃ fewer₃ => ?_
  refine .expect fun c₄ fewer₄ => .skipBlanks (fun _ => ⟨_, rfl⟩) fun c₅ fewer₅ => ?_
  refine (persists_setting apart c₅).bind fun s c₆ fewer₆ => ?_
  refine .skipBlanks (fun _ => ⟨_, rfl⟩) fun c₇ fewer₇ => ?_
  refine .expect fun c₈ fewer₈ => .expect fun c₉ fewer₉ => .pure ?_
  omega

theorem persists_itemNode (within : c.rest.length ≤ limit)
    (within' : c.rest.length + after.length ≤ limit') :
    Persists before after (Node.later before) (itemNode limit) (itemNode limit') c
      fun _ c' => c'.rest.length < c.rest.length :=
  (persists_nested apart .anywhere within within').bind fun _ _ fewer => .pure fewer

theorem persists_channel (c : Cursor) : Persists before after (Node.later before) Score.channel
    Score.channel c fun _ c' => c'.rest.length < c.rest.length := by
  refine .offset (.expect fun c₁ fewer₁ => .peek (fun _ => ⟨_, rfl⟩) fun x head => ?_)
  have finish (resume : Bool) {c₂ : Cursor} (fewer₂ : c₂.rest.length ≤ c₁.rest.length) :
      Persists before after (Node.later before)
        (do return .channel c.offset (← number) resume : Reader Node)
        (do return .channel (c.offset + before) (← number) resume : Reader Node) c₂
        fun _ c' => c'.rest.length < c.rest.length := by
    refine (persists_number apart c₂).bind fun id c₃ fewer₃ => .pure ?_
    omega
  dsimp only
  split
  · next same =>
    exact .skip (length_rest_pos (head.trans same)) fun c₂ fewer₂ => finish _ (by omega)
  · exact finish _ (Nat.le_refl _)

theorem persists_repeatClose (there : 2 ≤ c.rest.length) :
    Persists before after (Node.later before) repeatClose repeatClose c
      fun _ c' => c'.rest.length < c.rest.length := by
  refine .offset (.skip there fun c₁ fewer₁ => .peek_blind (fun _ t first => ?_) fun x _ => ?_)
  · rw [Option.any_some, (plain_of_isBlank (apart t first)).2.1]
    rfl
  · split
    · refine (persists_number apart c₁).bind fun n c₂ fewer₂ => .pure ?_
      omega
    · exact .pure (by omega)

omit apart in
theorem run_skipBlanks_bind {α : Type} {f : Unit → Reader α} (c : Cursor) :
    (skipBlanks >>= f).run c = (f ()).run
      ⟨c.offset + (c.rest.takeWhile Text.isBlank).length, c.rest.dropWhile Text.isBlank⟩ :=
  run_bind_ok (run_bind_ok (run_takeWhile Text.isBlank c))

omit apart in
/-- Where nothing follows a name in double braces, nothing is read. -/
theorem stuck_itemNode {name : String} {offset : Nat} {more : List Char} {c₁ : Cursor}
    (read : userRangeName.run ⟨offset, '\x7b' :: '\x7b' :: more⟩ = .ok (name, c₁))
    (ended : c₁.rest.dropWhile Text.isBlank = []) (limit : Nat) :
    Stuck (itemNode limit) ⟨offset, '\x7b' :: '\x7b' :: more⟩ := by
  cases limit with
  | zero => exact ⟨_, rfl⟩
  | succ limit =>
    have invoked : Stuck (invocation (enclosed (limit + 1) (nested limit .anywhere)))
        ⟨offset, '\x7b' :: '\x7b' :: more⟩ := by
      rw [Stuck, invocation, run_offset_bind, run_bind_ok read, run_skipBlanks_bind, ended]
      exact ⟨_, rfl⟩
    exact Stuck.bind (p := nested (limit + 1) .anywhere) invoked

theorem persists_definition {offset : Nat} {more : List Char}
    (within : ('\x7b' :: '\x7b' :: more).length ≤ limit)
    (within' : ('\x7b' :: '\x7b' :: more).length + after.length ≤ limit') :
    Persists before after (Node.later before) (definition limit) (definition limit')
      ⟨offset, '\x7b' :: '\x7b' :: more⟩
      fun _ c' => c'.rest.length < ('\x7b' :: '\x7b' :: more).length := by
  refine .get ((persists_userRangeName apart _).ran.bind fun name c₁ known => ?_)
  obtain ⟨fewer₁, read⟩ := known
  dsimp only [List.length_cons] at fewer₁ within within'
  have items : ItemsPersist before after (more.length + 1) (nested limit .anywhere)
      (nested limit' .anywhere) := fun c within => persists_nested apart .anywhere (by omega) (by omega)
  have goesOn (c₂ : Cursor) (fewer₂ : c₂.rest.length ≤ c₁.rest.length) (x : Option Char)
      (head : c₂.rest.head? = x) : Persists before after (Node.later before)
        (if x = some '\x7b' then do
          skip 1
          return .define offset name (← enclosed limit (nested limit .anywhere) .definition)
        else do
          set (⟨offset, '\x7b' :: '\x7b' :: more⟩ : Cursor)
          itemNode limit : Reader Node)
        (if x = some '\x7b' then do
          skip 1
          return .define (offset + before) name
            (← enclosed limit' (nested limit' .anywhere) .definition)
        else do
          set (Cursor.amid before after ⟨offset, '\x7b' :: '\x7b' :: more⟩)
          itemNode limit' : Reader Node) c₂
        fun _ c' => c'.rest.length < ('\x7b' :: '\x7b' :: more).length := by
    split
    · next brace =>
      refine .skip (length_rest_pos (head.trans brace)) fun c₃ fewer₃ => ?_
      refine (persists_enclosed items (by omega) (by omega) .definition c₃ (by omega)).bind
        fun body c₄ fewer₄ => .pure ?_
      dsimp only [List.length_cons]
      omega
    · exact .set (persists_itemNode apart within within')
  by_cases ended : c₁.rest.dropWhile Text.isBlank = []
  · -- nothing follows the name that could tell a definition from an invocation, but neither is read
    refine .of_stuck ?_ ?_
    · rw [Stuck, run_skipBlanks_bind, ended]
      exact stuck_itemNode read ended limit
    · rintro rfl
      exact .skipBlanks_inside (.inl rfl) fun c₂ fewer₂ _ =>
        .peek_blind (fun _ => nofun) (goesOn c₂ fewer₂)
  · exact .skipBlanks_inside (.inr ended) fun c₂ fewer₂ left =>
      .peek_blind (fun none => absurd (left.symm.trans none) ended) (goesOn c₂ fewer₂)

theorem persists_node (within : c.rest.length ≤ limit)
    (within' : c.rest.length + after.length ≤ limit') :
    Persists before after (Node.later before) (Score.node limit) (Score.node limit') c
      fun _ c' => c'.rest.length < c.rest.length := by
  have sign {f : Nat → Node} {c : Cursor} (there : 2 ≤ c.rest.length)
      (known : ∀ start, f (start + before) = (f start).later before) :
      Persists before after (Node.later before) (do skip 2; return f c.offset)
        (do skip 2; return f (c.offset + before)) c fun _ c' => c'.rest.length < c.rest.length :=
    .skip there fun c₁ fewer => .pure_eq (known _) (by omega)
  refine .offset (.get ?_)
  obtain ⟨offset, text⟩ := c
  dsimp only [Cursor.amid]
  split
  · next more => cases more with
    | nil =>
      refine .of_stuck ⟨_, rfl⟩ ?_
      rintro rfl
      exact persists_global apart _
    | cons x more =>
      have opened : Persists before after (Node.later before)
          (if (some x).any isEmoji then declareEmoji else Score.global)
          (if (some x).any isEmoji then declareEmoji else Score.global)
          ⟨offset, '(' :: '(' :: x :: more⟩
          fun _ c' => c'.rest.length < ('(' :: '(' :: x :: more).length := by
        split
        · exact persists_declareEmoji apart _
        · exact persists_global apart _
      exact opened
  · exact persists_definition apart within within'
  · exact sign (f := .repeatOpen) (Nat.le_add_left 2 _) fun _ => rfl
  · exact persists_repeatClose apart (Nat.le_add_left 2 _)
  · exact sign (f := (.volta · .prima)) (Nat.le_add_left 2 _) fun _ => rfl
  · exact sign (f := (.volta · .seconda)) (Nat.le_add_left 2 _) fun _ => rfl
  · exact persists_channel apart _
  · next h₁ h₂ h₃ h₄ h₅ h₆ h₇ =>
    split
    · next same => exact (begins_amid apart ['(', '('] (by decide) h₁ same).elim
    · next same => exact (begins_amid apart ['\x7b', '\x7b'] (by decide) h₂ same).elim
    · next same => exact (begins_amid apart ['|', ':'] (by decide) h₃ same).elim
    · next same => exact (begins_amid apart [':', '|'] (by decide) h₄ same).elim
    · next same => exact (begins_amid apart ['/', '1'] (by decide) h₅ same).elim
    · next same => exact (begins_amid apart ['/', '2'] (by decide) h₆ same).elim
    · next same => exact (begins_amid apart ['#'] (by decide) h₇ same).elim
    · exact persists_itemNode apart within within'

theorem persists_nodesStep (inside : after = [] ∨ c.rest.dropWhile Text.isBlank ≠ [])
    (within : c.rest.length ≤ limit) (within' : c.rest.length + after.length ≤ limit') :
    Persists before after (Option.map (Node.later before)) (nodesStep limit) (nodesStep limit') c
      fun read c' => c'.rest.length + read.toList.length ≤ c.rest.length := by
  refine .skipBlanks_inside inside fun c₁ fewer₁ left => .peek_blind (fun none => ?_) fun x _ => ?_
  · rcases inside with rfl | solid
    · exact nofun
    · exact absurd (left.symm.trans none) solid
  · split
    · exact .pure fewer₁
    · exact .part (f := id) (persists_node apart (by omega) (by omega)) (fun _ => rfl) fewer₁

end Nodes

/-- What stands alone behind other text is read there as it is at the beginning. -/
theorem persists_nodes (within : c.rest.length ≤ most) (within' : c.rest.length ≤ most')
    (enough : c.rest.length < limit) (enough' : c.rest.length < limit') :
    Persists before [] (List.map (Node.later before)) (collect limit (nodesStep most))
      (collect limit' (nodesStep most')) c fun _ c' => c'.rest.length ≤ c.rest.length :=
  persists_collect (fun _ fewer => persists_nodesStep nofun (.inl rfl) (Nat.le_trans fewer within)
    (Nat.le_trans fewer within')) (Nat.le_refl _) enough enough'

/-- Blanks before a score only move it. -/
theorem run_nodes_blanks (blank : ∀ x ∈ gap, Text.isBlank x) (offset : Nat) (rest : List Char) :
    (collect (limit + 1) (nodesStep most)).run ⟨offset, gap ++ rest⟩ =
      (collect (limit + 1) (nodesStep most)).run ⟨offset + gap.length, rest⟩ := by
  have step : (nodesStep most).run ⟨offset, gap ++ rest⟩ =
      (nodesStep most).run ⟨offset + gap.length, rest⟩ := by
    rw [nodesStep, run_skipBlanks_bind, run_skipBlanks_bind]
    dsimp only
    rw [List.takeWhile_append_of_pos blank, List.dropWhile_append_of_pos blank, List.length_append,
      Nat.add_assoc]
  rw [collect, StateT.run_bind, StateT.run_bind, step]

/-- Only where nothing but blanks is left no node is read. -/
theorem run_nodesStep {read : Option Node} {c' : Cursor}
    (done : (nodesStep most).run c = .ok (read, c')) :
    (read = none ∧ (∀ x ∈ c.rest, Text.isBlank x) ∧ c' = ⟨c.offset + c.rest.length, []⟩) ∨
      ∃ node, read = some node ∧ c.rest.dropWhile Text.isBlank ≠ [] := by
  rw [nodesStep, run_skipBlanks_bind, run_peek_bind] at done
  dsimp only at done
  cases left : c.rest.dropWhile Text.isBlank with
  | nil =>
    rw [left] at done
    cases done
    have whole : c.rest.takeWhile Text.isBlank = c.rest :=
      List.takeWhile_eq_self_iff.mpr (List.dropWhile_eq_nil_iff.mp left)
    exact .inl ⟨rfl, List.dropWhile_eq_nil_iff.mp left, by rw [whole]⟩
  | cons x more =>
    rw [left] at done
    obtain ⟨node, c'', -, last⟩ := of_run_bind (p := Score.node most) done
    cases last
    exact .inr ⟨node, rfl, List.cons_ne_nil x more⟩

/-- By induction on the bound of the nodes: behind the last one only blanks are left, and behind these
the other text is read. -/
theorem run_nodes_append {score : List Node} {c c' : Cursor} (blank : ∀ x ∈ gap, Text.isBlank x)
    (between : gap ≠ []) (text : List Char)
    (done : (collect limit (nodesStep most)).run c = .ok (score, c')) (within : c.rest.length ≤ most)
    (within' : c.rest.length + (gap ++ text).length ≤ most')
    (enough' : c.rest.length + (gap ++ text).length < limit') :
    c'.rest = [] ∧ ∃ limit'', text.length < limit'' ∧
      (collect limit' (nodesStep most')).run ⟨c.offset, c.rest ++ (gap ++ text)⟩ =
        (do return score ++ (← collect limit'' (nodesStep most'))).run
          ⟨c'.offset + gap.length, text⟩ := by
  have apart : ∀ t ∈ (gap ++ text).head?, Text.isBlank t := by
    obtain ⟨x, more, rfl⟩ := List.exists_cons_of_ne_nil between
    exact fun t first => blank t (Option.some.inj first ▸ List.mem_cons_self)
  induction limit generalizing limit' score c with
  | zero => cases done
  | succ limit ih => cases limit' with
    | zero => exact absurd enough' (Nat.not_lt_zero _)
    | succ limit' =>
      obtain ⟨read, c₁, step, more⟩ := of_run_bind (p := nodesStep most) done
      rcases run_nodesStep step with ⟨rfl, blanks, rfl⟩ | ⟨node, rfl, solid⟩
      · cases more
        refine ⟨rfl, limit' + 1, ?_, ?_⟩
        · rw [List.length_append] at enough'
          omega
        · have all : ∀ x ∈ c.rest ++ gap, Text.isBlank x := fun x listed =>
            (List.mem_append.mp listed).elim (blanks x) (blank x)
          rw [← List.append_assoc, run_nodes_blanks all, List.length_append, Nat.add_assoc]
          simp only [List.nil_append, bind_pure]
      · obtain ⟨score', c₂, others, last⟩ := of_run_bind (p := collect limit (nodesStep most)) more
        cases last
        have persists : Persists 0 (gap ++ text) _ (nodesStep most) (nodesStep most') c _ :=
          persists_nodesStep apart (.inr solid) within within'
        unfold Persists at persists
        rw [step] at persists
        obtain ⟨fewer, step'⟩ := persists
        have fewer : c₁.rest.length + 1 ≤ c.rest.length := fewer
        obtain ⟨ended, limit'', enough'', run⟩ :=
          @ih limit' score' c₁ others (by omega) (by omega) (by omega)
        refine ⟨ended, limit'', enough'', ?_⟩
        have first : (collect (limit' + 1) (nodesStep most')).run ⟨c.offset, c.rest ++ (gap ++ text)⟩ =
            (do return node :: (← collect limit' (nodesStep most'))).run
              ⟨c₁.offset, c₁.rest ++ (gap ++ text)⟩ := by
          refine (run_bind_ok step').trans ?_
          rw [Option.map_some, Node.later_zero]
          rfl
        rw [first, StateT.run_bind, run, StateT.run_bind, StateT.run_bind]
        cases (collect limit'' (nodesStep most')).run ⟨c'.offset + gap.length, text⟩ <;> rfl

/-- Texts with blanks between them are read one after the other. What is wrong with the second one is
wrong with both, at the same place. -/
theorem read_append {text gap text' : List Char} {score : List Node} (accepted : read text = .ok score)
    (blank : ∀ x ∈ gap, Text.isBlank x) (between : gap ≠ []) :
    read (text ++ gap ++ text') =
      ((read text').map fun score' =>
        score ++ score'.map (Node.later (text.length + gap.length))).mapError
          (Fault.later (text.length + gap.length)) := by
  have meets := meets_nodes (text.length + 1) ⟨0, text⟩
  unfold Meets at meets
  rw [read, StateT.run'_eq] at accepted
  cases done : (nodes (text.length + 1)).run ⟨0, text⟩ with
  | error fault =>
    rw [done] at accepted
    cases accepted
  | ok answer =>
    obtain ⟨first, c'⟩ := answer
    rw [done] at accepted meets
    cases accepted
    have whole := meets.nodes.1.whole
    have within : text.length + (gap ++ text').length < (text ++ (gap ++ text')).length + 1 :=
      Nat.lt_succ_of_le (Nat.le_of_eq List.length_append.symm)
    obtain ⟨ended, limit, enough, run⟩ := run_nodes_append blank between text' done (Nat.le_succ _)
      (Nat.le_of_lt within) within
    rw [ended] at whole
    have there : c'.offset = text.length := by simpa using whole
    have opened : read (text ++ gap ++ text') =
        Prod.fst <$> (do
          let more ← collect limit (nodesStep ((text ++ (gap ++ text')).length + 1))
          return first ++ more).run ⟨text.length + gap.length, text'⟩ := by
      rw [read, StateT.run'_eq, List.append_assoc, ← there]
      exact congrArg (Prod.fst <$> ·) run
    have short : text'.length ≤ (text ++ (gap ++ text')).length + 1 := by
      simp only [List.length_append]
      omega
    have moved : Persists (text.length + gap.length) [] _ (nodes (text'.length + 1)) _ ⟨0, text'⟩ _ :=
      persists_nodes (Nat.le_succ _) short (Nat.lt_succ_self _) enough
    have amid : Cursor.amid (text.length + gap.length) [] ⟨0, text'⟩ =
        ⟨text.length + gap.length, text'⟩ := by
      rw [Cursor.amid, List.append_nil, Nat.zero_add]
    unfold Persists at moved
    rw [amid] at moved
    rw [opened, StateT.run_bind, read, StateT.run'_eq]
    cases alone : (nodes (text'.length + 1)).run ⟨0, text'⟩ with
    | error fault =>
      rw [alone] at moved
      rw [moved rfl]
      rfl
    | ok answer' =>
      rw [alone] at moved
      rw [moved.2]
      rfl

/-- Behind a blank, were it a full-width one, a digit is no count of a repeat but a mistake. -/
theorem read_append_digit :
    read ['|', ':', 'c', ':', '|'] =
      .ok [.repeatOpen 0, .item (.key ⟨2, .pitchClass 0, 0, 0⟩), .repeatClose 3 none] ∧
    (∀ x ∈ [Char.ofNat 0x3000], Text.isBlank x) ∧ [Char.ofNat 0x3000] ≠ [] ∧
    read (['|', ':', 'c', ':', '|'] ++ [Char.ofNat 0x3000] ++ ['3']) =
      .error ⟨.unexpectedCharacter '3', 6⟩ := by
  have accepted : read ['|', ':', 'c', ':', '|'] =
      .ok [.repeatOpen 0, .item (.key ⟨2, .pitchClass 0, 0, 0⟩), .repeatClose 3 none] := rfl
  have blank : ∀ x ∈ [Char.ofNat 0x3000], Text.isBlank x := List.forall_mem_singleton.mpr rfl
  have between : [Char.ofNat 0x3000] ≠ [] := List.cons_ne_nil _ _
  exact ⟨accepted, blank, between, (read_append accepted blank between).trans rfl⟩

end Score
end TextScore
