import TextScore.Proofs.Concatenation
import TextScore.Proofs.Progress

/-! Reading ends. Its bounds are never met: loops come to an end with nothing that bounds their rounds,
items are read the same with nothing that bounds their depth, and a score is read the same with any
bound above the length of its text. -/
namespace TextScore

variable {text : List Char}

theorem Cursor.amid_nil (c : Cursor) : c.amid 0 [] = c := by
  rw [Cursor.amid, Nat.add_zero, List.append_nil]

namespace Reader
variable {α : Type} {p q q' : Reader α} {move : α → α} {c : Cursor} {F : α → Cursor → Prop}

/-- Where nothing stands around the text, what persists is the same. -/
theorem Persists.same (persists : Persists 0 [] move p q c F) (still : ∀ a, move a = a) :
    q.run c = p.run c := by
  unfold Persists at persists
  cases result : p.run c with
  | error fault =>
    rw [result] at persists
    have failed := persists rfl
    rwa [Cursor.amid_nil] at failed
  | ok read =>
    rw [result] at persists
    have moved := persists.2
    rwa [Cursor.amid_nil, Cursor.amid_nil, still] at moved

theorem Persists.congr (persists : Persists 0 [] move p q c F) (same : q'.run c = q.run c) :
    Persists 0 [] move p q' c F := by
  unfold Persists at persists ⊢
  rw [Cursor.amid_nil] at persists ⊢
  rwa [same]

variable {step : Reader (Option α)} {result result' : Except Fault (List α × Cursor)}

/-- What the rounds of a loop come to from this cursor, with nothing that bounds their number. -/
inductive EndsIn (step : Reader (Option α)) : Cursor → Except Fault (List α × Cursor) → Prop
  | fails {c : Cursor} {fault : Fault} (failed : step.run c = .error fault) :
      EndsIn step c (.error fault)
  | ends {c c' : Cursor} (ended : step.run c = .ok (none, c')) : EndsIn step c (.ok ([], c'))
  | goesOn {c c' : Cursor} {a : α} {result : Except Fault (List α × Cursor)}
      (read : step.run c = .ok (some a, c')) (more : EndsIn step c' result) :
      EndsIn step c (result.map fun rest => (a :: rest.1, rest.2))

theorem EndsIn.unique (first : EndsIn step c result) (second : EndsIn step c result') :
    result = result' := by
  induction first generalizing result' with
  | fails failed => cases second with
    | fails failed' => cases failed.symm.trans failed'; rfl
    | ends ended => cases failed.symm.trans ended
    | goesOn read => cases failed.symm.trans read
  | ends ended => cases second with
    | fails failed => cases ended.symm.trans failed
    | ends ended' => cases ended.symm.trans ended'; rfl
    | goesOn read => cases ended.symm.trans read
  | goesOn read _ ih => cases second with
    | fails failed => cases read.symm.trans failed
    | ends ended => cases read.symm.trans ended
    | goesOn read' more =>
      cases read.symm.trans read'
      rw [ih more]

/-- What is collected after a round that reads something, be it read or refused. -/
theorem run_collect_again {limit : Nat} {a : α} {c' : Cursor} (read : step.run c = .ok (some a, c')) :
    (collect (limit + 1) step).run c =
      ((collect limit step).run c').map fun rest => (a :: rest.1, rest.2) := by
  refine (run_bind_ok read).trans ?_
  rw [StateT.run_bind]
  cases (collect limit step).run c' <;> rfl

/-- Where each round takes a character for what it reads, what is collected within a bound above the
number of characters left is what the rounds come to. -/
theorem endsIn_collect (rounds : Rounds text step) {limit : Nat} (within : c.In text)
    (enough : c.rest.length < limit) : EndsIn step c ((collect limit step).run c) := by
  induction limit generalizing c with
  | zero => exact absurd enough (Nat.not_lt_zero _)
  | succ limit ih =>
    have stays := rounds c within
    unfold Stays at stays
    cases taken : step.run c with
    | error fault =>
      rw [collect, StateT.run_bind, taken]
      exact .fails taken
    | ok read =>
      obtain ⟨read, c'⟩ := read
      rw [taken] at stays
      cases read with
      | none =>
        rw [Score.run_collect_none taken]
        exact .ends taken
      | some a =>
        have forth : c.offset + 1 ≤ c'.offset := stays.2
        have fewer : c'.rest.length < limit := by
          have whole := within.whole
          have whole' := stays.1.whole
          omega
        rw [run_collect_again taken]
        exact .goesOn taken (ih stays.1 fewer)

/-- So a loop ends, and no bound above the number of characters left has a part in how it does. -/
theorem exists_endsIn (rounds : Rounds text step) (within : c.In text) :
    ∃ result, EndsIn step c result ∧
      ∀ limit > c.rest.length, (collect limit step).run c = result := by
  have ended := endsIn_collect rounds within (Nat.lt_succ_self _)
  exact ⟨_, ended, fun limit enough => (endsIn_collect rounds within enough).unique ended⟩

end Reader

namespace Score
open Reader

variable {limit limit' : Nat} {c : Cursor} {inner : Place → Reader Item}

/-- Reads an item in its place, and what it holds by the given readers. -/
def itemIn (limit : Nat) (inner : Place → Reader Item) : Place → Reader Item
  | .anywhere => itemAnywhere limit inner
  | .ornament => itemInOrnament limit inner

/-- Readers of items with nothing that bounds the depth: what an item holds is read by the same
readers. The bound of the loops is any above the number of characters left. -/
def Boundless (inner : Place → Reader Item) : Prop :=
  ∀ {limit place c}, c.rest.length < limit → (inner place).run c = (itemIn limit inner place).run c

theorem nested_succ (limit : Nat) (place : Place) :
    nested (limit + 1) place = itemIn (limit + 1) (nested limit) place := by
  cases place <;> rfl

theorem run_itemIn_nil (limit : Nat) (place : Place) (offset : Nat) :
    (itemIn limit inner place).run ⟨offset, []⟩ = .error ⟨.unexpectedEnd, offset⟩ := by
  cases place <;> rfl

theorem persists_itemIn {inner' : Place → Reader Item} {most : Nat}
    (items : ∀ place, ItemsPersist 0 [] most (inner place) (inner' place)) (enough : most < limit)
    (enough' : most < limit') (within : c.rest.length ≤ most + 1) (place : Place) :
    Persists 0 [] (Item.later 0) (itemIn limit inner place) (itemIn limit' inner' place) c
      fun _ c' => c'.rest.length < c.rest.length := by
  cases place with
  | anywhere => exact persists_itemAnywhere items enough enough' within nofun
  | ornament => exact persists_itemInOrnament items enough enough' within nofun

/-- By induction on the number of characters left, of which each level takes one. -/
theorem Boundless.persists (boundless : Boundless inner) {most : Nat} (enough : most ≤ limit)
    (place : Place) : ItemsPersist 0 [] most (nested limit place) (inner place) := by
  induction most generalizing limit place with
  | zero =>
    rintro ⟨offset, text⟩ within
    cases List.eq_nil_of_length_eq_zero (Nat.le_zero.mp within)
    unfold Persists
    rw [run_nested_nil]
    exact fun _ => (boundless Nat.zero_lt_one).trans (run_itemIn_nil 1 place offset)
  | succ most ih => cases limit with
    | zero => exact absurd enough (Nat.not_succ_le_zero _)
    | succ limit =>
      intro c within
      have items (place : Place) := ih (Nat.le_of_succ_le_succ enough) place
      have level := persists_itemIn items enough (Nat.lt_add_of_pos_right Nat.zero_lt_two) within place
      rw [nested_succ]
      exact level.congr (boundless (Nat.lt_succ_of_le within))

/-- No bound that is not below the number of characters left has a part in how an item is read. -/
theorem Boundless.run_nested (boundless : Boundless inner) (enough : c.rest.length ≤ limit)
    (place : Place) : (inner place).run c = (nested limit place).run c :=
  (boundless.persists enough place c (Nat.le_refl _)).same Item.later_zero

theorem Boundless.unique {inner' : Place → Reader Item} (first : Boundless inner)
    (second : Boundless inner') : inner = inner' :=
  funext fun place => funext fun _ =>
    (first.run_nested (Nat.le_refl _) place).trans (second.run_nested (Nat.le_refl _) place).symm

/-- Reads an item within the bound that what is left of the text asks for. -/
def itemAtLength (place : Place) : Reader Item := do nested (← get).rest.length place

theorem boundless_itemAtLength : Boundless itemAtLength := by
  intro limit place c above
  have apart : ∀ t ∈ ([] : List Char).head?, Text.isBlank t := nofun
  have items {most : Nat} (place : Place) :
      ItemsPersist 0 [] most (nested most place) (itemAtLength place) := fun c within =>
    (persists_nested apart place within (Nat.le_refl _)).congr rfl
  obtain ⟨offset, text⟩ := c
  cases text with
  | nil => exact (run_nested_nil 0 place offset).trans (run_itemIn_nil limit place offset).symm
  | cons x more =>
    have level := persists_itemIn (c := ⟨offset, x :: more⟩) items (Nat.lt_succ_self _)
      (Nat.lt_of_succ_lt above) (Nat.le_refl _) place
    rw [level.same Item.later_zero, ← nested_succ]
    rfl

theorem run_nodes (enough : c.rest.length < limit) (enough' : c.rest.length < limit') :
    (nodes limit).run c = (nodes limit').run c := by
  have persists : Persists 0 [] (List.map (Node.later 0)) (nodes limit') (nodes limit) c _ :=
    persists_nodes (Nat.le_of_lt enough') (Nat.le_of_lt enough) enough' enough
  have still : Node.later 0 = id := funext Node.later_zero
  exact persists.same fun score => by rw [still, List.map_id]

/-- The readers of what scores are made of, within any bounds of their loops and of the depth. -/
inductive Construct : {α : Type} → Reader α → Prop
  | node (limit : Nat) : Construct (Score.node limit)
  | item (limit : Nat) (place : Place) : Construct (nested limit place)
  | range (most limit : Nat) : Construct (range (enclosed most (nested limit .anywhere)))
  | parallel (most limit : Nat) : Construct (parallel most (nested limit .anywhere))
  | graces (most limit : Nat) : Construct (graces most (enclosed most (nested limit .anywhere)))
  | chord (most : Nat) : Construct (chord most)
  | key : Construct key
  | ornament (most limit : Nat) : Construct (ornament most (nested limit .ornament))
  | breakpoint : Construct breakpoint

theorem Construct.consumes {α : Type} {p : Reader α} (construct : Construct p) :
    Consumes text 1 p := by
  cases construct with
  | node limit => exact consumes_node limit
  | item limit place => exact consumes_nested limit place
  | range most limit => exact consumes_range (consumes_enclosed (consumes_nested limit .anywhere) most)
  | parallel most limit => exact consumes_parallel (consumes_nested limit .anywhere) most
  | graces most limit =>
    exact consumes_graces (consumes_enclosed (consumes_nested limit .anywhere) most) most
  | chord most => exact consumes_chord most
  | key => exact consumes_key
  | ornament most limit => exact consumes_ornament (consumes_nested limit .ornament) most
  | breakpoint => exact consumes_breakpoint

/-- The rounds of their loops, where the loop belongs to what begins at this offset. -/
inductive Loop (start : Nat) : {α : Type} → Reader (Option α) → Prop
  | nodes (limit : Nat) : Loop start (nodesStep limit)
  | enclosed (limit : Nat) (what : Enclosure) :
      Loop start (enclosedStep (nested limit .anywhere) what start)
  | parallel (limit : Nat) : Loop start (parallelStep (nested limit .anywhere) start)
  | graces (most limit : Nat) :
      Loop start (graceStep most (Score.enclosed most (nested limit .anywhere)) start)
  | chord : Loop start (chordStep start)
  | plain (limit : Nat) (kind : Ornament) : Loop start (plainStep (nested limit .ornament) kind start)
  | dynamics (limit : Nat) : Loop start (dynamicsStep (nested limit .ornament) start)

theorem Loop.rounds {α : Type} {start : Nat} {step : Reader (Option α)} (loop : Loop start step)
    (begun : start ≤ text.length) : Rounds text step := by
  cases loop with
  | nodes limit => exact rounds_nodesStep limit
  | enclosed limit what => exact rounds_enclosedStep (consumes_nested limit .anywhere) what begun
  | parallel limit => exact rounds_parallelStep (consumes_nested limit .anywhere) begun
  | graces most limit =>
    exact rounds_graceStep (consumes_enclosed (consumes_nested limit .anywhere) most) most begun
  | chord => exact rounds_chordStep begun
  | plain limit kind => exact rounds_plainStep (consumes_nested limit .ornament) kind begun
  | dynamics limit => exact rounds_dynamicsStep (consumes_nested limit .ornament) begun

theorem read_inside {fault : Fault} (failed : read text = .error fault) :
    fault.offset ≤ text.length := by
  have stays : Stays text (nodes (text.length + 1)) ⟨0, text⟩ _ :=
    consumes_collect (rounds_nodesStep _) _ _ ⟨Nat.zero_le _, rfl⟩
  unfold Stays at stays
  rw [run_of_read_error failed] at stays
  exact stays

/-- Reading gets on in every text and ends. Wherever it starts, each construct takes a character at
least and stays in the text, and it fails in the text. A round of a loop takes a character or is the
last one, so loops end with nothing that bounds their rounds, and runs of characters are taken one by
one. With nothing that bounds the depth there is just one way to read items, which is how they are
read, and no bound above the length of the text has a part in how a score is read. -/
theorem reading_ends (text : List Char) :
    (∀ {α : Type} {p : Reader α}, Construct p → Consumes text 1 p) ∧
    (∀ {α : Type} {start : Nat} {step : Reader (Option α)}, Loop start step →
      start ≤ text.length → Rounds text step ∧ ∀ c, c.In text →
        ∃ result, EndsIn step c result ∧
          ∀ limit > c.rest.length, (collect limit step).run c = result) ∧
    (∀ among c, c.In text → Stays text (takeWhile among) c fun taken offset =>
      c.offset + taken.length = offset) ∧
    (∃ inner, Boundless inner ∧ (∀ inner', Boundless inner' → inner' = inner) ∧
      ∀ limit place c, c.rest.length ≤ limit →
        (nested limit place).run c = (inner place).run c) ∧
    (∀ limit > text.length, (nodes limit).run' ⟨0, text⟩ = read text) ∧
    ∀ fault, read text = .error fault → fault.offset ≤ text.length := by
  refine ⟨Construct.consumes, fun loop begun => ?_, fun among _ => .taken among, ?_,
    fun limit enough => ?_, fun _ => read_inside⟩
  · exact ⟨loop.rounds begun, fun c within => exists_endsIn (loop.rounds begun) within⟩
  · refine ⟨itemAtLength, boundless_itemAtLength,
      fun _ boundless => boundless.unique boundless_itemAtLength, fun limit place c enough => ?_⟩
    exact (boundless_itemAtLength.run_nested enough place).symm
  · rw [read, StateT.run'_eq, StateT.run'_eq, run_nodes enough (Nat.lt_succ_self _)]

/-- A triplet with a chord that is not closed: the last key is read to the end of the text, the loop
of the chord ends there, and reading fails where the chord begins. -/
theorem unclosed_reading_ends :
    Construct key ∧ Cursor.In ['(', '3', '[', 'c'] ⟨3, ['c']⟩ ∧
    key.run ⟨3, ['c']⟩ = .ok (⟨3, .pitchClass 0, 0, 0⟩, ⟨4, []⟩) ∧
    Cursor.In ['(', '3', '[', 'c'] ⟨4, []⟩ ∧ 3 + 1 ≤ 4 ∧
    EndsIn (chordStep 2) ⟨3, ['c']⟩ (.error ⟨.unclosedChord, 2⟩) ∧
    (∃ inner, Boundless inner ∧
      (inner .anywhere).run ⟨0, ['(', '3', '[', 'c']⟩ = .error ⟨.unclosedChord, 2⟩) ∧
    (nodes 9).run' ⟨0, ['(', '3', '[', 'c']⟩ = .error ⟨.unclosedChord, 2⟩ ∧
    2 ≤ ['(', '3', '[', 'c'].length := by
  obtain ⟨constructs, loops, -, ⟨inner, boundless, -, same⟩, bounds, faults⟩ :=
    reading_ends ['(', '3', '[', 'c']
  have within : Cursor.In ['(', '3', '[', 'c'] ⟨3, ['c']⟩ := ⟨by decide, rfl⟩
  have failed : read ['(', '3', '[', 'c'] = .error ⟨.unclosedChord, 2⟩ := rfl
  obtain ⟨there, taken⟩ := constructs .key ⟨3, ['c']⟩ within
  obtain ⟨-, ending⟩ := loops (.chord : Loop 2 (chordStep 2)) (by decide)
  obtain ⟨result, ended, collected⟩ := ending ⟨3, ['c']⟩ within
  cases collected 2 (by decide)
  have nested := same 4 .anywhere ⟨0, ['(', '3', '[', 'c']⟩ (by decide)
  exact ⟨.key, within, rfl, there, taken, ended, ⟨inner, boundless, nested.symm⟩,
    (bounds 9 (by decide)).trans failed, faults _ failed⟩

end Score
end TextScore
