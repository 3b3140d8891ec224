import Mathlib.Data.List.TakeWhile
import TextScore.Proofs.Places
import TextScore.Proofs.ScoreRoundTrip

/-! What readers accept. From wherever a reader starts, it reads something that the grammar knows and
that stands in its place in the text, or it fails because of the text. -/
namespace TextScore

namespace Reader
variable {α β : Type} {p : Reader α} {f : α → Reader β} {c : Cursor} {F : α → Cursor → Prop}
  {G : β → Cursor → Prop}

/-- From this cursor the reader gets to something of this kind, or the text is at fault. -/
def Meets (p : Reader α) (c : Cursor) (F : α → Cursor → Prop) : Prop :=
  match p.run c with
  | .ok (a, c') => F a c'
  | .error fault => fault.cause.kind = .parse

theorem Meets.pure {a : α} (known : F a c) : Meets (Pure.pure a) c F := known

theorem Meets.failAt {offset : Nat} {cause : Cause} (parse : cause.kind = .parse) :
    Meets (Reader.failAt offset cause) c F := parse

theorem Meets.fail {cause : Cause} (parse : cause.kind = .parse) : Meets (Reader.fail cause) c F :=
  parse

theorem Meets.bind (first : Meets p c F) (second : ∀ a c', F a c' → Meets (f a) c' G) :
    Meets (p >>= f) c G := by
  unfold Meets at first ⊢
  rw [StateT.run_bind]
  cases result : p.run c with
  | error fault =>
    rw [result] at first
    exact first
  | ok read =>
    rw [result] at first
    exact second read.1 read.2 first

theorem Meets.mono {F' : α → Cursor → Prop} (meets : Meets p c F)
    (weaker : ∀ a c', F a c' → F' a c') : Meets p c F' := by
  unfold Meets at meets ⊢
  cases result : p.run c with
  | error fault =>
    rw [result] at meets
    exact meets
  | ok read =>
    rw [result] at meets
    exact weaker _ _ meets

/-- What is met has been read. -/
theorem Meets.ran (meets : Meets p c F) : Meets p c fun a c' => F a c' ∧ p.run c = .ok (a, c') := by
  unfold Meets at meets ⊢
  cases result : p.run c with
  | error fault =>
    rw [result] at meets
    exact meets
  | ok read =>
    rw [result] at meets
    exact ⟨meets, rfl⟩

theorem Meets.after {a : α} {c' : Cursor} (done : p.run c = .ok (a, c')) (rest : Meets (f a) c' G) :
    Meets (p >>= f) c G := by
  unfold Meets
  rw [run_bind_ok done]
  exact rest

theorem Meets.offset {f : Nat → Reader β} (rest : Meets (f c.offset) c G) :
    Meets (Reader.offset >>= f) c G := rest

theorem Meets.peek {f : Option Char → Reader β} (rest : Meets (f c.rest.head?) c G) :
    Meets (Reader.peek >>= f) c G := rest

theorem Meets.get {f : Cursor → Reader β} (rest : Meets (f c) c G) :
    Meets (MonadState.get >>= f) c G := rest

/-- No more is skipped than there is. -/
theorem Meets.skip {f : Unit → Reader β} {count : Nat} (there : count ≤ c.rest.length)
    (rest : ∀ c', c.Leads c' → c'.offset = c.offset + count → Meets (f ()) c' G) :
    Meets (Reader.skip count >>= f) c G :=
  rest ⟨c.offset + count, c.rest.drop count⟩ (c.leads_drop there) rfl

theorem length_rest_pos {c : Cursor} {sign : Char} (head : c.rest.head? = some sign) :
    1 ≤ c.rest.length := by
  cases rest : c.rest with
  | nil =>
    rw [rest] at head
    exact nomatch head
  | cons => exact Nat.succ_le_succ (Nat.zero_le _)

theorem Meets.expect {f : Unit → Reader β} {sign : Char}
    (rest : ∀ c', c.Leads c' → c.offset < c'.offset → Meets (f ()) c' G) :
    Meets (Reader.expect sign >>= f) c G := by
  refine Meets.bind (F := fun _ c' => c.Leads c' ∧ c.offset < c'.offset) (.peek ?_)
    fun _ c' known => rest c' known.1 known.2
  split
  · next found =>
    have there := length_rest_pos found
    refine Meets.mono (Meets.skip (f := Pure.pure) there fun c' leads moved => ?_) fun _ _ known => known
    exact .pure ⟨leads, moved ▸ Nat.lt_succ_self _⟩
  · exact .fail rfl

theorem Meets.takeWhile {f : List Char → Reader β} {p : Char → Bool}
    (rest : ∀ c', c.Leads c' → c'.offset = c.offset + (c.rest.takeWhile p).length →
      c'.rest = c.rest.dropWhile p → Meets (f (c.rest.takeWhile p)) c' G) :
    Meets (Reader.takeWhile p >>= f) c G := by
  have ran : (Reader.takeWhile p >>= f).run c = (f (c.rest.takeWhile p)).run
    ⟨c.offset + (c.rest.takeWhile p).length, c.rest.dropWhile p⟩ := by
    rw [StateT.run_bind, run_takeWhile]
    rfl
  have leads := c.leads_drop (List.takeWhile_sublist p).length_le
  rw [drop_length_takeWhile] at leads
  unfold Meets
  rw [ran]
  exact rest _ leads rfl rfl

theorem Meets.skipBlanks {f : Unit → Reader β}
    (rest : ∀ c', c.Leads c' → Meets (f ()) c' G) : Meets (Reader.skipBlanks >>= f) c G := by
  refine Meets.bind (F := fun _ c' => c.Leads c') ?_ fun _ c' leads => rest c' leads
  exact .takeWhile fun c' leads _ _ => .pure leads

/-- What is collected has been read in a row. -/
theorem meets_collect {step : Reader (Option α)} {F : α → Cursor → Cursor → Prop}
    (each : ∀ c, Meets step c fun read c' => c.Leads c' ∧ ∀ a ∈ read, F a c c') (limit : Nat)
    (c : Cursor) : Meets (collect limit step) c fun as c' => Row F as c c' := by
  induction limit generalizing c with
  | zero => exact .fail rfl
  | succ limit ih =>
    refine (each c).bind fun read c' known => ?_
    cases read with
    | none => exact .pure (.nil known.1)
    | some a => exact (ih c').bind fun as _ row => .pure (.cons (known.2 a rfl) row)

end Reader

namespace Score
open Reader

variable {limit : Nat} {c : Cursor}

section Tokens

theorem length_pos_of_not_isEmpty {cs : List Char} (some : ¬ cs.isEmpty) : 0 < cs.length :=
  List.length_pos_iff.mpr fun none => some (List.isEmpty_iff.mpr none)

theorem word_of_takeWhile {cs : List Char} (some : ¬ (cs.takeWhile isWordChar).isEmpty) :
    Word (String.ofList (cs.takeWhile isWordChar)) := by
  rw [Word, String.toList_ofList]
  exact ⟨fun none => some (List.isEmpty_iff.mpr none), fun _ => List.mem_takeWhile_imp⟩

theorem meets_word (c : Cursor) :
    Meets word c fun s c' => c.Leads c' ∧ c.offset < c'.offset ∧ Word s := by
  refine .takeWhile fun c' leads moved _ => ?_
  split
  · exact .peek (.fail rfl)
  · next some =>
    exact .pure ⟨leads, moved ▸ Nat.lt_add_of_pos_right (length_pos_of_not_isEmpty some),
      word_of_takeWhile some⟩

theorem meets_emojiSymbol (c : Cursor) :
    Meets emojiSymbol c fun s c' => c.Leads c' ∧ c.offset < c'.offset ∧ Symbol s := by
  refine .takeWhile fun c' leads moved _ => ?_
  split
  · exact .fail rfl
  · next some =>
    refine .pure ⟨leads, moved ▸ Nat.lt_add_of_pos_right (length_pos_of_not_isEmpty some), ?_⟩
    rw [Symbol, String.toList_ofList]
    exact ⟨fun none => some (List.isEmpty_iff.mpr none), fun _ => List.mem_takeWhile_imp⟩

theorem meets_number (c : Cursor) :
    Meets number c fun n c' => c.Leads c' ∧ c.offset < c'.offset ∧ n ≤ Duration.greatest := by
  refine .offset (.takeWhile fun c' leads moved _ => ?_)
  split
  · exact .peek (.fail rfl)
  · next some =>
    split
    · exact .failAt rfl
    · next fits =>
      exact .pure ⟨leads, moved ▸ Nat.lt_add_of_pos_right (length_pos_of_not_isEmpty some),
        Nat.le_of_not_lt fits⟩

theorem le_of_class? {sign : Char} {n : Nat} (read : Pitch.class? sign = some n) : n ≤ 11 := by
  unfold Pitch.class? at read
  split at read
  all_goals cases read
  all_goals decide

theorem meets_key (c : Cursor) : Meets key c fun k c' => ∀ site, (Item.key k).Stands site c c' := by
  suffices moves : Meets key c fun k c' =>
      c.Leads c' ∧ c.offset < c'.offset ∧ k.offset = c.offset ∧ k.Grammatical from
    moves.ran.mono fun k c' known site =>
      have ⟨⟨leads, taken, begins, low⟩, ran⟩ := known
      Item.stands_of_bare rfl (.key low) begins ⟨c', ran⟩ leads taken
  refine .offset (.takeWhile fun c₁ leads _ _ => .peek ?_)
  have finish {tone : Tone} (octave : Int) (there : 1 ≤ c₁.rest.length)
      (low : ∀ n, tone = .pitchClass n → n ≤ 11) : Meets (do
        skip 1
        let accidentals ← takeWhile (· ∈ ['+', '-'])
        return {
          offset := c.offset
          tone := tone
          octave := octave
          semitones := Int.ofNat (accidentals.count '+') - Int.ofNat (accidentals.count '-') } :
            Reader Key) c₁ fun k c' =>
              c.Leads c' ∧ c.offset < c'.offset ∧ k.offset = c.offset ∧ k.Grammatical := by
    refine .skip there fun c₂ leads' moved => .takeWhile fun c₃ leads'' _ _ => .pure ?_
    have taken : c.offset < c₃.offset := by
      have first := leads.forth
      have last := leads''.forth
      omega
    exact ⟨leads.trans (leads'.trans leads''), taken, rfl, low⟩
  split
  · exact Meets.bind (F := fun _ _ => False) (.fail rfl) fun _ _ none => none.elim
  · next head => exact finish _ (length_rest_pos head) nofun
  · next _ head =>
    split
    · next read =>
      refine finish _ (length_rest_pos head) fun n same => ?_
      cases same
      exact le_of_class? read
    · exact Meets.bind (F := fun _ _ => False) (.fail rfl) fun _ _ none => none.elim

theorem meets_setting (c : Cursor) :
    Meets setting c fun s c' => ∀ site, (Item.setting s).Stands site c c' := by
  refine .offset (.expect fun c₁ leads₁ taken => (meets_word c₁).bind fun key c₂ key' => ?_)
  refine .expect fun c₃ leads₃ _ => (meets_word c₃).bind fun value c₄ value' => ?_
  refine .expect fun c₅ leads₅ _ => .pure fun site => ?_
  have later := (key'.1.trans leads₃).trans (value'.1.trans leads₅)
  exact Item.stands_of_bare rfl (.setting ⟨key'.2.2, value'.2.2⟩) rfl trivial (leads₁.trans later)
    (Nat.lt_of_lt_of_le taken later.forth)

theorem meets_chordStep (start : Nat) (c : Cursor) : Meets (chordStep start) c fun read c' =>
    c.Leads c' ∧ ∀ k ∈ read, ∀ site, (Item.key k).Stands site c c' := by
  refine .skipBlanks fun c₁ leads => .peek ?_
  split
  · exact .failAt rfl
  · next head => exact .skip (length_rest_pos head) fun c₂ more _ => .pure ⟨leads.trans more, nofun⟩
  · refine (meets_key c₁).bind fun k c₂ stands => .pure ⟨leads.trans (stands .anywhere).leads, ?_⟩
    intro k' same site
    cases same
    exact (stands site).earlier leads

theorem meets_chord (limit : Nat) (c : Cursor) :
    Meets (chord limit) c fun ch c' => ∀ site, (Item.chord ch).Stands site c c' := by
  suffices moves : Meets (chord limit) c fun ch c' => ch.offset = c.offset ∧ ∃ c₁ c₂, c.Leads c₁ ∧
      c.offset < c₁.offset ∧ c₂.Leads c' ∧
      ∀ site, Row (Item.Stands site) (Item.chord ch).parts c₁ c₂ by
    refine moves.ran.mono fun ch c' known site => ?_
    obtain ⟨⟨begins, c₁, c₂, leads, taken, after, row⟩, ran⟩ := known
    refine Item.stands_of_row (.chord _) (row site) (.chord fun k listed => ?_) begins
      ⟨limit, c', ran⟩ leads after taken
    have known := ((row site).items.2.2 (.key k) (List.mem_map_of_mem listed)).2.1
    cases known with
    | key known => exact known
  refine .offset (.expect fun c₁ leads₁ taken => .peek ?_)
  have finish (arpeggio : Bool) {c₂ : Cursor} (leads₂ : c₁.Leads c₂) : Meets (do
      let keys ← collect limit (chordStep c.offset)
      return (⟨c.offset, arpeggio, keys⟩ : Chord) : Reader Chord) c₂
      fun ch c' => ch.offset = c.offset ∧ ∃ c₁ c₂, c.Leads c₁ ∧ c.offset < c₁.offset ∧ c₂.Leads c' ∧
        ∀ site, Row (Item.Stands site) (Item.chord ch).parts c₁ c₂ := by
    refine (meets_collect (meets_chordStep c.offset) limit c₂).bind fun keys c₃ row => .pure ?_
    exact ⟨rfl, c₂, c₃, leads₁.trans leads₂, Nat.lt_of_lt_of_le taken leads₂.forth, .refl c₃,
      fun site => row.map fun stands => stands site⟩
  dsimp only
  split
  · next bar => exact .skip (length_rest_pos bar) fun c₂ leads₂ _ => finish _ leads₂
  · exact finish _ (.refl c₁)

end Tokens

section Constructs
variable {site : Site} {item : Reader Item} {body : Enclosure → Reader (List Item)}

/-- A body is not empty, and all of it stands in a row. -/
def Body (c : Cursor) (items : List Item) (c' : Cursor) : Prop :=
  items ≠ [] ∧ Row (Item.Stands .anywhere) items c c'

theorem Body.known {c c' : Cursor} {items : List Item} (body : Body c items c') :
    ∀ i ∈ items, i.Grammatical .anywhere := fun i listed => (body.2.items.2.2 i listed).2.1

/-- One part of a list. -/
theorem meets_part {c c₁ : Cursor} (items : ∀ c, Meets item c fun i c' => i.Stands site c c')
    (leads : c.Leads c₁) : Meets (do return some (← item)) c₁ fun read c' =>
      c.Leads c' ∧ ∀ i ∈ read, i.Stands site c c' := by
  refine (items c₁).bind fun i c₂ stands => .pure ⟨leads.trans stands.leads, fun j same => ?_⟩
  cases same
  exact stands.earlier leads

theorem meets_enclosed (items : ∀ c, Meets item c fun i c' => i.Stands .anywhere c c')
    (limit : Nat) (what : Enclosure) (c : Cursor) : Meets (enclosed limit item what) c (Body c) := by
  have each (c₁ : Cursor) : Meets (enclosedStep item what c.offset) c₁ fun read c' =>
      c₁.Leads c' ∧ ∀ i ∈ read, i.Stands .anywhere c₁ c' := by
    refine .skipBlanks fun c₂ leads => .peek ?_
    split
    · exact .failAt rfl
    · next head =>
      split
      · exact .skip (length_rest_pos head) fun c₃ more _ => .pure ⟨leads.trans more, nofun⟩
      · exact meets_part items leads
  refine .offset ((meets_collect each limit c).bind fun items c' row => ?_)
  split
  · exact .failAt rfl
  · next some => exact .pure ⟨fun none => some (List.isEmpty_iff.mpr none), row⟩

theorem known_of_rangeKind? {sign : Char} {kind : RangeKind} (found : rangeKind? sign = some kind) :
    kind.Grammatical := by
  unfold rangeKind? at found
  split at found
  all_goals cases found
  all_goals first | trivial | exact .inl rfl | exact .inr (.inl rfl) | exact .inr (.inr rfl)

theorem meets_range (bodies : ∀ what c, Meets (body what) c (Body c)) (c : Cursor) :
    Meets (range body) c fun i c' => i.IsGrace ∧ ∀ site, i.Stands site c c' := by
  refine .offset (.expect fun c₁ leads₁ taken => .peek ?_)
  split
  · exact .fail rfl
  · next kind found =>
    obtain ⟨sign, head, found⟩ := Option.bind_eq_some_iff.mp found
    refine .skip (length_rest_pos head) fun c₂ leads₂ _ => ?_
    refine (bodies .range c₂).bind fun items c₃ read => .pure ⟨trivial, fun site => ?_⟩
    exact Item.stands_of_row (.range c.offset kind items) read.2
      (.range (known_of_rangeKind? found) read.1 read.known) rfl trivial (leads₁.trans leads₂) (.refl c₃)
      (Nat.lt_of_lt_of_le taken leads₂.forth)

theorem meets_userRangeName (c : Cursor) : Meets userRangeName c fun name c' =>
    c.Leads c' ∧ c.offset < c'.offset ∧ Word name := by
  refine .expect fun c₁ leads₁ taken => .expect fun c₂ leads₂ _ => ?_
  refine (meets_word c₂).bind fun name c₃ known => ?_
  refine .expect fun c₄ leads₄ _ => .expect fun c₅ leads₅ _ => .pure ?_
  have later := leads₂.trans (known.1.trans (leads₄.trans leads₅))
  exact ⟨leads₁.trans later, Nat.lt_of_lt_of_le taken later.forth, known.2.2⟩

theorem meets_invocation (bodies : ∀ what c, Meets (body what) c (Body c)) (c : Cursor) :
    Meets (invocation body) c fun i c' => i.IsGrace ∧ ∀ site, i.Stands site c c' := by
  refine .offset ((meets_userRangeName c).bind fun name c₁ known => ?_)
  refine .skipBlanks fun c₂ leads₂ => .expect fun c₃ leads₃ _ => ?_
  refine (bodies .invocation c₃).bind fun items c₄ read => .pure ⟨trivial, fun site => ?_⟩
  have later := leads₂.trans leads₃
  exact Item.stands_of_row (.range c.offset (.userRange name) items) read.2
    (.range known.2.2 read.1 read.known) rfl trivial (known.1.trans later) (.refl c₄)
    (Nat.lt_of_lt_of_le known.2.1 later.forth)

theorem meets_groupRef (c : Cursor) : Meets groupRef c fun i c' => ∀ site, i.Stands site c c' := by
  refine .offset (.expect fun c₁ leads₁ taken => .expect fun c₂ leads₂ _ => ?_)
  refine (meets_number c₂).bind fun id c₃ known => .expect fun c₄ leads₄ _ => .pure fun site => ?_
  have later := leads₂.trans (known.1.trans leads₄)
  exact Item.stands_of_bare rfl (.groupRef known.2.2) rfl trivial (leads₁.trans later)
    (Nat.lt_of_lt_of_le taken later.forth)

theorem meets_group (bodies : ∀ what c, Meets (body what) c (Body c)) (c : Cursor) :
    Meets (group body) c fun i c' => i.Stands .anywhere c c' := by
  refine .offset (.expect fun c₁ leads₁ taken => (meets_number c₁).bind fun id c₂ known => ?_)
  refine (bodies .group c₂).bind fun items c₃ read => .pure ?_
  exact Item.stands_of_row (.group c.offset id items) read.2
    (.group known.2.2 read.1 read.known) rfl trivial (leads₁.trans known.1) (.refl c₃)
    (Nat.lt_of_lt_of_le taken known.1.forth)

theorem meets_emojiRef (c : Cursor) : Meets emojiRef c fun i c' => i.Stands .anywhere c c' := by
  refine .offset (.expect fun c₁ leads₁ taken => (meets_emojiSymbol c₁).bind fun symbol c₂ known => ?_)
  refine .expect fun c₃ leads₃ _ => .pure ?_
  have later := known.1.trans leads₃
  exact Item.stands_of_bare rfl (.emoji known.2.2) rfl trivial (leads₁.trans later)
    (Nat.lt_of_lt_of_le taken later.forth)

theorem meets_rest {c : Cursor} (there : 1 ≤ c.rest.length) :
    Meets Score.rest c fun i c' => ∀ site, i.Stands site c c' := by
  refine .offset (.skip there fun c₁ leads moved => .pure fun site => ?_)
  exact Item.stands_of_bare rfl .rest rfl trivial leads (moved ▸ Nat.lt_succ_self _)

theorem meets_parallel (items : ∀ c, Meets item c fun i c' => i.Stands .anywhere c c')
    (limit : Nat) (c : Cursor) :
    Meets (parallel limit item) c fun i c' => i.Stands .anywhere c c' := by
  have each (start : Nat) (c : Cursor) : Meets (parallelStep item start) c fun read c' =>
      c.Leads c' ∧ ∀ piece ∈ read, c.Leads c' ∧ ∀ i ∈ piece, i.Stands .anywhere c c' := by
    refine .skipBlanks fun c₁ leads => .get ?_
    split
    · exact .failAt rfl
    · next text =>
      have there : 2 ≤ c₁.rest.length := text ▸ Nat.le_add_left 2 _
      exact .skip there fun c₂ more _ => .pure ⟨leads.trans more, nofun⟩
    · next text =>
      refine .skip (text ▸ Nat.le_add_left 1 _) fun c₂ more _ => .pure ⟨leads.trans more, ?_⟩
      rintro _ ⟨⟩
      exact ⟨leads.trans more, nofun⟩
    · refine (items c₁).bind fun i c₂ stands => .pure ⟨leads.trans stands.leads, ?_⟩
      rintro _ ⟨⟩
      refine ⟨leads.trans stands.leads, ?_⟩
      rintro _ ⟨⟩
      exact stands.earlier leads
  refine .offset (.expect fun c₁ leads₁ taken => .expect fun c₂ leads₂ _ => ?_)
  refine (meets_collect (each c.offset) limit c₂).bind fun parts c₃ row => ?_
  dsimp only
  split
  · exact .failAt rfl
  · next several =>
    split
    · exact .failAt rfl
    · next filled =>
      have row : Row (Item.Stands .anywhere) (splitAtBars parts).flatten c₂ c₃ :=
        splitAtBars_flatten parts ▸ row.unbarred
      have nonempty : ∀ branch ∈ splitAtBars parts, branch ≠ [] := fun branch listed none =>
        filled (List.any_eq_true.mpr ⟨branch, listed, List.isEmpty_iff.mpr none⟩)
      refine .pure (Item.stands_of_row (.parallel c.offset (splitAtBars parts)) row
        (.parallel (Nat.le_of_not_lt several) nonempty fun branch listed i inside => ?_) rfl trivial
        (leads₁.trans leads₂) (.refl c₃) (Nat.lt_of_lt_of_le taken leads₂.forth))
      exact (row.items.2.2 i (List.mem_flatten.mpr ⟨branch, listed, inside⟩)).2.1

theorem exists_of_startsBreakpoint {text : List Char} (starts : startsBreakpoint text) :
    ∃ digits more, text = '(' :: (digits ++ ')' :: more) ∧ digits ≠ [] ∧
      ∀ sign ∈ digits, isDecimalChar sign := by
  unfold startsBreakpoint at starts
  split at starts
  · next rest =>
    simp only [Bool.and_eq_true, Bool.not_eq_true', beq_iff_eq] at starts
    obtain ⟨some, closed⟩ := starts
    obtain ⟨more, left⟩ := List.head?_eq_some_iff.mp closed
    refine ⟨rest.takeWhile isDecimalChar, more, ?_, List.isEmpty_eq_false_iff.mp some,
      fun _ => List.mem_takeWhile_imp⟩
    rw [← left, List.takeWhile_append_dropWhile]
  · exact nomatch starts

theorem meets_breakpoint {c : Cursor} (starts : startsBreakpoint c.rest) :
    Meets breakpoint c fun i c' => i.Stands .bend c c' := by
  obtain ⟨offset, text⟩ := c
  obtain ⟨digits, more, rfl, some, decimal⟩ := exists_of_startsBreakpoint starts
  have inside : ∀ sign ∈ digits, decide (sign ≠ ')') := fun sign listed =>
    decide_eq_true fun closes => absurd (decimal sign listed) (closes ▸ by decide)
  refine .offset (.after (run_expect '(' _) ?_)
  refine .after (run_takeWhile_all inside (head_stops (by decide))) (.after (run_expect ')' _) ?_)
  split
  · next value spelled =>
    refine .pure (Item.stands_of_bare rfl (.breakpoint ⟨digits, some, decimal, spelled⟩) rfl trivial
      ⟨?_, ?_, ?_⟩ ?_)
    · dsimp only
      omega
    · simp only [List.length_cons, List.length_append]
      omega
    · have taken : offset + 1 + digits.length + 1 - offset = digits.length + 1 + 1 := by omega
      rw [taken, List.drop_succ_cons, ← List.drop_drop, List.drop_left]
      rfl
    · dsimp only
      omega
  · exact .failAt rfl

section Ornaments
variable {kind : Ornament} {c₁ : Cursor} (items : ∀ c, Meets item c fun i c' => i.Stands .ornament c c')
include items

theorem meets_plainBody (plain : kind.Grammatical) (leads : c.Leads c₁) (taken : c.offset < c₁.offset) :
    Meets (plainBody limit item kind c.offset) c₁ fun i c' =>
      i.IsSound ∧ ∀ site, i.Stands site c c' := by
  have each (c₁ : Cursor) : Meets (plainStep item kind c.offset) c₁ fun read c' =>
      c₁.Leads c' ∧ ∀ i ∈ read, i.Stands kind.site c₁ c' := by
    refine .skipBlanks fun c₂ leads => .get ?_
    split
    · exact .failAt rfl
    · next text =>
      refine .skip (text ▸ Nat.le_add_left 1 _) fun c₃ more _ => ?_
      exact .pure ⟨leads.trans more, nofun⟩
    · split
      · next both =>
        obtain ⟨rfl, starts⟩ := both
        refine (meets_breakpoint starts).bind fun i c₃ stands => .pure ⟨leads.trans stands.leads, ?_⟩
        rintro _ ⟨⟩
        exact stands.earlier leads
      · exact (meets_part items leads).mono fun _ _ known =>
          ⟨known.1, fun i same => (known.2 i same).lift kind.site⟩
  refine (meets_collect each limit c₁).bind fun body c₂ row => ?_
  split
  · exact .failAt rfl
  · next some =>
    refine .pure ⟨trivial, fun site => ?_⟩
    exact Item.stands_of_row (.ornament c.offset kind body) row
      (.ornament plain (fun none => some (List.isEmpty_iff.mpr none))
        fun i listed => (row.items.2.2 i listed).2.1) rfl trivial leads (.refl c₂) taken

theorem meets_dynamicsBody {kind : Nat → Ornament}
    (leading : ∀ target ≤ 127, (kind target).Grammatical) (leads : c.Leads c₁)
    (taken : c.offset < c₁.offset) : Meets (dynamicsBody limit item kind c.offset) c₁ fun i c' =>
      i.IsSound ∧ ∀ site, i.Stands site c c' := by
  have each (c₁ : Cursor) : Meets (dynamicsStep item c.offset) c₁ fun read c' =>
      c₁.Leads c' ∧ ∀ i ∈ read, i.Stands .ornament c₁ c' := by
    refine .skipBlanks fun c₂ leads => .peek ?_
    split
    · exact .failAt rfl
    · split
      · exact .pure ⟨leads, nofun⟩
      · exact meets_part items leads
  refine (meets_collect each limit c₁).bind fun body c₂ row => .offset ?_
  refine (meets_number c₂).bind fun target c₃ number => .expect fun c₄ leads₄ _ => ?_
  split
  · exact .failAt rfl
  · next small =>
    split
    · exact .failAt rfl
    · next some =>
      have row : Row (Item.Stands (kind target).site) body c₁ c₂ :=
        row.mono fun stands => stands.lift _
      refine .pure ⟨trivial, fun site => ?_⟩
      exact Item.stands_of_row (.ornament c.offset (kind target) body) row
        (.ornament (leading target (Nat.le_of_not_lt small))
          (fun none => some (List.isEmpty_iff.mpr none))
          fun i listed => (row.items.2.2 i listed).2.1) rfl trivial leads (number.1.trans leads₄) taken

theorem meets_ornament (limit : Nat) (c : Cursor) : Meets (ornament limit item) c fun i c' =>
    i.IsSound ∧ ∀ site, i.Stands site c c' := by
  refine .offset (.expect fun c₁ leads₁ taken => .peek ?_)
  split
  · next head =>
    refine .skip (length_rest_pos head) fun c₂ leads₂ _ => ?_
    exact meets_dynamicsBody items (fun _ small => small) (leads₁.trans leads₂)
      (Nat.lt_of_lt_of_le taken leads₂.forth)
  · next head =>
    refine .skip (length_rest_pos head) fun c₂ leads₂ _ => ?_
    exact meets_dynamicsBody items (fun _ small => small) (leads₁.trans leads₂)
      (Nat.lt_of_lt_of_le taken leads₂.forth)
  · split
    · next kind found =>
      obtain ⟨sign, head, found⟩ := Option.bind_eq_some_iff.mp found
      have plain : kind.Grammatical := by
        unfold plainOrnament? at found
        split at found <;> cases found <;> trivial
      refine .skip (length_rest_pos head) fun c₂ leads₂ _ => ?_
      exact meets_plainBody items plain (leads₁.trans leads₂)
        (Nat.lt_of_lt_of_le taken leads₂.forth)
    · exact .fail rfl

end Ornaments

theorem meets_graces (bodies : ∀ what c, Meets (body what) c (Body c)) (limit : Nat) (c : Cursor) :
    Meets (graces limit body) c fun graces c' => (∀ i ∈ graces, i.IsGrace) ∧
      ∃ c₁, c.Leads c₁ ∧ c.offset < c₁.offset ∧ Row (Item.Stands .anywhere) graces c₁ c' := by
  have each (start : Nat) (c : Cursor) : Meets (graceStep limit body start) c fun read c' =>
      c.Leads c' ∧ ∀ i ∈ read, i.IsGrace ∧ i.Stands .anywhere c c' := by
    have one {α : Type} {p : Reader α} {f : α → Item} {c₁ : Cursor} (leads : c.Leads c₁)
        (grace : Meets p c₁ fun a c' => (f a).IsGrace ∧ ∀ site, (f a).Stands site c₁ c') :
        Meets (do return some (f (← p))) c₁ fun read c' =>
          c.Leads c' ∧ ∀ i ∈ read, i.IsGrace ∧ i.Stands .anywhere c c' := by
      refine grace.bind fun a c₂ known => .pure ⟨leads.trans (known.2 .anywhere).leads, ?_⟩
      rintro _ ⟨⟩
      exact ⟨known.1, (known.2 .anywhere).earlier leads⟩
    refine .skipBlanks fun c₁ leads => .get ?_
    split
    · exact .failAt rfl
    · next text =>
      exact .skip (text ▸ Nat.le_add_left 1 _) fun c₂ more _ => .pure ⟨leads.trans more, nofun⟩
    · exact one leads ((meets_chord limit c₁).mono fun _ _ stands => ⟨trivial, stands⟩)
    · exact one (f := id) leads (meets_range bodies c₁)
    · exact one (f := id) leads (meets_invocation bodies c₁)
    · exact one leads ((meets_key c₁).mono fun _ _ stands => ⟨trivial, stands⟩)
  refine .offset (.expect fun c₁ leads₁ taken => .expect fun c₂ leads₂ _ => ?_)
  refine (meets_collect (each c.offset) limit c₂).mono fun graces c₃ row => ?_
  exact ⟨row.forall And.left, c₂, leads₁.trans leads₂, Nat.lt_of_lt_of_le taken leads₂.forth,
    row.mono And.right⟩

theorem meets_tie {c : Cursor} (there : 1 ≤ c.rest.length) : Meets (do
      let start ← offset
      skip 1
      return .tie start : Reader Item) c fun i c' => i.IsSound ∧ ∀ site, i.Stands site c c' := by
  refine .offset (.skip there fun c₁ leads moved => .pure ⟨trivial, fun site => ?_⟩)
  exact Item.stands_of_bare rfl .tie rfl trivial leads (moved ▸ Nat.lt_succ_self _)

end Constructs

def Place.site : Place → Site
  | .anywhere => .anywhere
  | .ornament => .ornament

section Items
variable {inner : Place → Reader Item}
  (items : ∀ place c, Meets (inner place) c fun i c' => i.Stands place.site c c')
include items

theorem meets_sound (limit : Nat) (c : Cursor) : Meets (sound limit inner) c fun i c' =>
    i.IsSound ∧ ∀ site, i.Stands site c c' := by
  refine .peek ?_
  split
  · exact meets_ornament (items .ornament) limit c
  · exact (meets_chord limit c).bind fun ch c' stands => .pure ⟨trivial, stands⟩
  · next head => exact meets_tie (length_rest_pos head)
  · next head => exact meets_tie (length_rest_pos head)
  · exact (meets_key c).bind fun k c' stands => .pure ⟨trivial, stands⟩

theorem meets_itemAnywhere (limit : Nat) (c : Cursor) :
    Meets (itemAnywhere limit inner) c fun i c' => i.Stands .anywhere c c' := by
  have bodies (what : Enclosure) (c : Cursor) :
      Meets (enclosed limit (inner .anywhere) what) c (Body c) :=
    meets_enclosed (items .anywhere) limit what c
  have somewhere {p : Reader Item} {Q : Item → Prop}
      (meets : Meets p c fun i c' => Q i ∧ ∀ site, i.Stands site c c') :
      Meets p c fun i c' => i.Stands .anywhere c c' := meets.mono fun _ _ known => known.2 .anywhere
  refine .offset (.get ?_)
  split
  · exact .fail rfl
  · split
    · exact meets_emojiRef c
    · split
      · exact (meets_setting c).bind fun s c' stands => .pure (stands .anywhere)
      · exact somewhere (meets_range bodies c)
  · exact somewhere (meets_invocation bodies c)
  · exact (meets_groupRef c).mono fun _ _ stands => stands .anywhere
  · exact meets_group bodies c
  · exact meets_parallel (items .anywhere) limit c
  · refine (meets_graces bodies limit c).bind fun graces c₁ known => ?_
    obtain ⟨forms, c₂, leads, taken, row⟩ := known
    refine (meets_sound items limit c₁).bind fun main c₃ stands => .pure ?_
    have whole := row.snoc (stands.2 .anywhere)
    exact Item.stands_of_row (.graced c.offset graces main) whole
      (.graced forms (fun i listed => (row.items.2.2 i listed).2.1) stands.1
        (stands.2 .anywhere).known) rfl trivial leads (.refl c₃) taken
  · next text => exact (meets_rest (text ▸ Nat.le_add_left 1 _)).mono fun _ _ stands => stands .anywhere
  · next text => exact (meets_rest (text ▸ Nat.le_add_left 1 _)).mono fun _ _ stands => stands .anywhere
  · exact somewhere (meets_sound items limit c)

theorem meets_itemInOrnament (limit : Nat) (c : Cursor) :
    Meets (itemInOrnament limit inner) c fun i c' => i.Stands .ornament c c' := by
  have bodies (what : Enclosure) (c : Cursor) :
      Meets (enclosed limit (inner .anywhere) what) c (Body c) :=
    meets_enclosed (items .anywhere) limit what c
  refine .get ?_
  split
  · exact (meets_invocation bodies c).mono fun _ _ known => known.2 .ornament
  · exact (meets_groupRef c).mono fun _ _ stands => stands .ornament
  · split
    · exact (meets_setting c).bind fun s c' stands => .pure (stands .ornament)
    · exact (meets_range bodies c).mono fun _ _ known => known.2 .ornament
  · next text => exact (meets_rest (text ▸ Nat.le_add_left 1 _)).mono fun _ _ stands => stands .ornament
  · next text => exact (meets_rest (text ▸ Nat.le_add_left 1 _)).mono fun _ _ stands => stands .ornament
  · exact (meets_sound items limit c).mono fun _ _ known => known.2 .ornament

end Items

/-- By induction on the bound of the depth. -/
theorem meets_nested (limit : Nat) (place : Place) (c : Cursor) :
    Meets (nested limit place) c fun i c' => i.Stands place.site c c' := by
  induction limit generalizing place c with
  | zero => exact .fail rfl
  | succ limit ih => cases place with
    | anywhere => exact meets_itemAnywhere ih (limit + 1) c
    | ornament => exact meets_itemInOrnament ih (limit + 1) c

section Nodes

theorem meets_itemNode (limit : Nat) (c : Cursor) :
    Meets (itemNode limit) c fun node c' => node.Stands c c' :=
  (meets_nested limit .anywhere c).bind fun _ _ stands => .pure (Node.stands_of_item stands)

theorem meets_global (c : Cursor) : Meets Score.global c fun node c' => node.Stands c c' := by
  refine .offset (.expect fun c₁ leads₁ taken => .expect fun c₂ leads₂ _ => ?_)
  refine (meets_word c₂).bind fun key c₃ key' => .expect fun c₄ leads₄ _ => ?_
  refine (meets_word c₄).bind fun value c₅ value' => .expect fun c₆ leads₆ _ => ?_
  refine .expect fun c₇ leads₇ _ => .pure ?_
  have later := (leads₂.trans (key'.1.trans leads₄)).trans (value'.1.trans (leads₆.trans leads₇))
  exact Node.stands_of_bare rfl ⟨key'.2.2, value'.2.2⟩ rfl (leads₁.trans later)
    (Nat.lt_of_lt_of_le taken later.forth)

theorem meets_declareEmoji (c : Cursor) :
    Meets declareEmoji c fun node c' => node.Stands c c' := by
  refine .offset (.expect fun c₁ leads₁ taken => .expect fun c₂ leads₂ _ => ?_)
  refine (meets_emojiSymbol c₂).bind fun symbol c₃ symbol' => .expect fun c₄ leads₄ _ => ?_
  refine .skipBlanks fun c₅ leads₅ => (meets_setting c₅).bind fun s c₆ stands => ?_
  refine .skipBlanks fun c₇ leads₇ => .expect fun c₈ leads₈ _ => .expect fun c₉ leads₉ _ => .pure ?_
  have stands := stands .anywhere
  have words : s.Grammatical := by
    cases stands.known with
    | setting words => exact words
  have before := leads₂.trans (symbol'.1.trans (leads₄.trans leads₅))
  exact Node.stands_of_row (.declareEmoji c.offset symbol s)
    (.cons (stands.earlier before) (.nil (.refl c₆))) ⟨symbol'.2.2, words⟩ rfl leads₁
    (leads₇.trans (leads₈.trans leads₉)) taken

theorem meets_definition (limit : Nat) (c : Cursor) :
    Meets (definition limit) c fun node c' => node.Stands c c' := by
  refine .get ((meets_userRangeName c).bind fun name c₁ known => ?_)
  refine .skipBlanks fun c₂ leads₂ => .peek ?_
  split
  · next head =>
    refine .skip (length_rest_pos head) fun c₃ leads₃ _ => ?_
    refine (meets_enclosed (meets_nested limit .anywhere) limit .definition c₃).bind
      fun items c₄ body => .pure ?_
    have later := leads₂.trans leads₃
    exact Node.stands_of_row (.define c.offset name items) body.2
      ⟨known.2.2, body.1, body.known⟩ rfl (known.1.trans later) (.refl c₄)
      (Nat.lt_of_lt_of_le known.2.1 later.forth)
  · exact meets_itemNode limit c

theorem meets_channel (c : Cursor) : Meets Score.channel c fun node c' => node.Stands c c' := by
  refine .offset (.expect fun c₁ leads₁ taken => .peek ?_)
  have finish (resume : Bool) {c₂ : Cursor} (leads₂ : c₁.Leads c₂) :
      Meets (do return .channel c.offset (← number) resume : Reader Node) c₂
        fun node c' => node.Stands c c' := by
    refine (meets_number c₂).bind fun id c₃ known => .pure ?_
    have later := leads₂.trans known.1
    exact Node.stands_of_bare rfl known.2.2 rfl (leads₁.trans later)
      (Nat.lt_of_lt_of_le taken later.forth)
  dsimp only
  split
  · next head => exact .skip (length_rest_pos head) fun c₂ leads₂ _ => finish _ leads₂
  · exact finish _ (.refl c₁)

theorem meets_repeatClose {c : Cursor} (there : 2 ≤ c.rest.length) :
    Meets repeatClose c fun node c' => node.Stands c c' := by
  refine .offset (.skip there fun c₁ leads₁ moved => .peek ?_)
  have taken : c.offset < c₁.offset := by omega
  split
  · refine (meets_number c₁).bind fun n c₂ known => .pure ?_
    refine Node.stands_of_bare rfl ?_ rfl (leads₁.trans known.1)
      (Nat.lt_of_lt_of_le taken known.1.forth)
    rintro _ ⟨⟩
    exact known.2.2
  · exact .pure (Node.stands_of_bare rfl nofun rfl leads₁ taken)

theorem meets_node (limit : Nat) (c : Cursor) :
    Meets (Score.node limit) c fun node c' => node.Stands c c' := by
  have sign {node : Node} (there : 2 ≤ c.rest.length) (bare : node.parts = [])
      (known : node.Grammatical) (begins : node.offset = c.offset) :
      Meets (do skip 2; return node) c fun node c' => node.Stands c c' := by
    refine .skip there fun c₁ leads moved => .pure ?_
    exact Node.stands_of_bare bare known begins leads (by omega)
  refine .offset (.get ?_)
  split
  · split
    · exact meets_declareEmoji c
    · exact meets_global c
  · exact meets_definition limit c
  · next text => exact sign (text ▸ Nat.le_add_left 2 _) rfl trivial rfl
  · next text => exact meets_repeatClose (text ▸ Nat.le_add_left 2 _)
  · next text => exact sign (text ▸ Nat.le_add_left 2 _) rfl trivial rfl
  · next text => exact sign (text ▸ Nat.le_add_left 2 _) rfl trivial rfl
  · exact meets_channel c
  · exact meets_itemNode limit c

theorem meets_nodes (limit : Nat) (c : Cursor) :
    Meets (nodes limit) c fun score c' => Row Node.Stands score c c' := by
  have each (c : Cursor) : Meets (nodesStep limit) c fun read c' =>
      c.Leads c' ∧ ∀ node ∈ read, node.Stands c c' := by
    refine .skipBlanks fun c₁ leads => .peek ?_
    split
    · exact .pure ⟨leads, nofun⟩
    · refine (meets_node limit c₁).bind fun node c₂ stands => .pure ⟨leads.trans stands.leads, ?_⟩
      rintro _ ⟨⟩
      exact stands.earlier leads
  exact meets_collect each limit c

end Nodes

section Scores
variable {text : List Char} {score : List Node} {fault : Fault}

theorem run_of_read (done : read text = .ok score) :
    ∃ c', (nodes (text.length + 1)).run ⟨0, text⟩ = .ok (score, c') := by
  rw [read, StateT.run'_eq] at done
  cases result : (nodes (text.length + 1)).run ⟨0, text⟩ with
  | error fault =>
    rw [result] at done
    cases done
  | ok answer =>
    rw [result] at done
    cases done
    exact ⟨answer.2, rfl⟩

theorem run_of_read_error (failed : read text = .error fault) :
    (nodes (text.length + 1)).run ⟨0, text⟩ = .error fault := by
  rw [read, StateT.run'_eq] at failed
  cases result : (nodes (text.length + 1)).run ⟨0, text⟩ with
  | error fault =>
    rw [result] at failed
    cases failed
    rfl
  | ok answer =>
    rw [result] at failed
    cases failed

theorem read_row (done : read text = .ok score) : ∃ c', Row Node.Stands score ⟨0, text⟩ c' := by
  have meets := meets_nodes (text.length + 1) ⟨0, text⟩
  unfold Meets at meets
  obtain ⟨c', result⟩ := run_of_read done
  rw [result] at meets
  exact ⟨c', meets⟩

/-- Whatever is read is known to the grammar and stands in its place in the text. -/
theorem read_stands (done : read text = .ok score) :
    (∀ node ∈ score, node.Grammatical) ∧ Placed text.length score := by
  obtain ⟨c', row⟩ := read_row done
  obtain ⟨leads, known, placed⟩ := row.nodes
  have within : c'.offset ≤ text.length := by
    have whole := leads.whole
    dsimp only at whole
    omega
  exact ⟨known, placed.ordered, fun node listed => (placed.nodes node listed).mono within⟩

/-- Whatever is in a score is read where it stands in the text. -/
theorem read_spelled (done : read text = .ok score) :
    ∀ node ∈ score, ∀ part ∈ node.parts, part.Spelled ⟨0, text⟩ := by
  obtain ⟨c', row⟩ := read_row done
  exact row.nodes_spelled

/-- Reading fails because of the text only. -/
theorem read_fails (failed : read text = .error fault) : fault.cause.kind = .parse := by
  have meets := meets_nodes (text.length + 1) ⟨0, text⟩
  unfold Meets at meets
  rw [run_of_read_error failed] at meets
  exact meets

end Scores

end Score

end TextScore
