import TextScore.Proofs.Acceptance

/-! Reading is local. What is read at a cursor is read as well where the text stands further on and
more text stands behind it, and reading fails in the same way if nothing stands behind. -/
namespace TextScore

/-- The fault of a text that stands so much further on. -/
def Fault.later (before : Nat) (fault : Fault) : Fault := { fault with offset := fault.offset + before }

def Key.later (before : Nat) (k : Key) : Key := { k with offset := k.offset + before }

def Chord.later (before : Nat) (c : Chord) : Chord :=
  ⟨c.offset + before, c.arpeggio, c.keys.map (Key.later before)⟩

def Setting.later (before : Nat) (s : Setting) : Setting := { s with offset := s.offset + before }

mutual

/-- The item, so much further on in a text. -/
def Item.later (before : Nat) : Item → Item
  | .setting s => .setting (s.later before)
  | .range offset kind body => .range (offset + before) kind (allLater before body)
  | .key k => .key (k.later before)
  | .chord c => .chord (c.later before)
  | .ornament offset kind body => .ornament (offset + before) kind (allLater before body)
  | .tie offset => .tie (offset + before)
  | .breakpoint offset value => .breakpoint (offset + before) value
  | .graced offset graces main =>
    .graced (offset + before) (allLater before graces) (main.later before)
  | .group offset id body => .group (offset + before) id (allLater before body)
  | .groupRef offset id => .groupRef (offset + before) id
  | .parallel offset branches => .parallel (offset + before) (branchesLater before branches)
  | .emoji offset symbol => .emoji (offset + before) symbol
  | .rest offset => .rest (offset + before)

def allLater (before : Nat) : List Item → List Item
  | [] => []
  | item :: items => item.later before :: allLater before items

def branchesLater (before : Nat) : List (List Item) → List (List Item)
  | [] => []
  | branch :: branches => allLater before branch :: branchesLater before branches

end

theorem allLater_eq (before : Nat) (items : List Item) :
    allLater before items = items.map (Item.later before) := by
  induction items with
  | nil => rfl
  | cons item items ih => rw [allLater, ih, List.map_cons]

theorem branchesLater_eq (before : Nat) (branches : List (List Item)) :
    branchesLater before branches = branches.map (List.map (Item.later before)) := by
  induction branches with
  | nil => rfl
  | cons branch branches ih => rw [branchesLater, ih, allLater_eq, List.map_cons]

def Node.later (before : Nat) : Node → Node
  | .global offset key value => .global (offset + before) key value
  | .channel offset id resume => .channel (offset + before) id resume
  | .define offset name template => .define (offset + before) name (template.map (Item.later before))
  | .repeatOpen offset => .repeatOpen (offset + before)
  | .repeatClose offset count => .repeatClose (offset + before) count
  | .volta offset ending => .volta (offset + before) ending
  | .declareEmoji offset symbol setting =>
    .declareEmoji (offset + before) symbol (setting.later before)
  | .item i => .item (i.later before)

/-- Where the cursor stands if so many characters stand before the text and these behind it. -/
def Cursor.amid (before : Nat) (after : List Char) (c : Cursor) : Cursor :=
  ⟨c.offset + before, c.rest ++ after⟩

namespace Reader
variable {before : Nat} {after : List Char} {α β : Type} {p q : Reader α} {f g : α → Reader β}
  {move : α → α} {move' : β → β} {c : Cursor} {F : α → Cursor → Prop} {G : β → Cursor → Prop}

/-- What `p` reads at the cursor `q` reads amid other text, and there it leaves the same. Where
nothing stands behind, failures are the same, too. -/
def Persists (before : Nat) (after : List Char) (move : α → α) (p q : Reader α) (c : Cursor)
    (F : α → Cursor → Prop) : Prop :=
  match p.run c with
  | .ok (a, c') => F a c' ∧ q.run (c.amid before after) = .ok (move a, c'.amid before after)
  | .error fault => after = [] → q.run (c.amid before after) = .error (fault.later before)

/-- Nothing is read here. -/
def Stuck (p : Reader α) (c : Cursor) : Prop := ∃ fault, p.run c = .error fault

/-- A run of characters ends where it did, unless what stands behind goes on with it. -/
theorem scan_append {among : Char → Bool} {text : List Char}
    (stops : (∀ t ∈ after.head?, among t = false) ∨ text.dropWhile among ≠ []) :
    (text ++ after).takeWhile among = text.takeWhile among ∧
      (text ++ after).dropWhile among = text.dropWhile among ++ after := by
  induction text with
  | nil =>
    have stops := stops.resolve_right (absurd rfl)
    cases after with
    | nil => exact ⟨rfl, rfl⟩
    | cons t after =>
      have ended := Bool.eq_false_iff.mp (stops t rfl)
      exact ⟨List.takeWhile_cons_of_neg ended, List.dropWhile_cons_of_neg ended⟩
  | cons x text ih =>
    by_cases inside : among x
    · rw [List.dropWhile_cons_of_pos inside] at stops ⊢
      rw [List.cons_append, List.takeWhile_cons_of_pos inside, List.takeWhile_cons_of_pos inside,
        List.dropWhile_cons_of_pos inside, (ih stops).1]
      exact ⟨rfl, (ih stops).2⟩
    · rw [List.cons_append, List.takeWhile_cons_of_neg inside, List.takeWhile_cons_of_neg inside,
        List.dropWhile_cons_of_neg inside, List.dropWhile_cons_of_neg inside]
      exact ⟨rfl, rfl⟩

namespace Persists

theorem pure {a : α} (known : F a c) :
    Persists before after move (Pure.pure a) (Pure.pure (move a)) c F := ⟨known, rfl⟩

theorem pure_eq {a b : α} (same : b = move a) (known : F a c) :
    Persists before after move (Pure.pure a) (Pure.pure b) c F := same ▸ pure known

theorem failAt {offset : Nat} {cause : Cause} :
    Persists before after move (Reader.failAt offset cause) (Reader.failAt (offset + before) cause)
      c F := fun _ => rfl

theorem fail {cause : Cause} :
    Persists before after move (Reader.fail cause) (Reader.fail cause) c F := fun _ => rfl

theorem fail_bind {cause : Cause} :
    Persists before after move' (Reader.fail cause >>= f) (Reader.fail cause >>= g) c G := fun _ => rfl

/-- Where reading fails it need only be looked at with nothing behind. -/
theorem of_stuck (stuck : Stuck p c) (same : after = [] → Persists before after move p q c F) :
    Persists before after move p q c F := by
  obtain ⟨fault, failed⟩ := stuck
  unfold Persists at same ⊢
  rw [failed] at same ⊢
  exact fun none => same none none

theorem bind (first : Persists before after move p q c F)
    (second : ∀ a c', F a c' → Persists before after move' (f a) (g (move a)) c' G) :
    Persists before after move' (p >>= f) (q >>= g) c G := by
  unfold Persists at first ⊢
  rw [StateT.run_bind, StateT.run_bind]
  cases result : p.run c with
  | error fault =>
    rw [result] at first
    intro none
    rw [first none]
    rfl
  | ok read =>
    rw [result] at first
    rw [first.2]
    exact second read.1 read.2 first.1

theorem mono {F' : α → Cursor → Prop} (persists : Persists before after move p q c F)
    (weaker : ∀ a c', F a c' → F' a c') : Persists before after move p q c F' := by
  unfold Persists at persists ⊢
  cases result : p.run c with
  | error fault =>
    rw [result] at persists
    exact persists
  | ok read =>
    rw [result] at persists
    exact ⟨weaker _ _ persists.1, persists.2⟩

/-- What persists has been read. -/
theorem ran (persists : Persists before after move p q c F) :
    Persists before after move p q c fun a c' => F a c' ∧ p.run c = .ok (a, c') := by
  unfold Persists at persists ⊢
  cases result : p.run c with
  | error fault =>
    rw [result] at persists
    exact persists
  | ok read =>
    rw [result] at persists
    exact ⟨⟨persists.1, rfl⟩, persists.2⟩

theorem offset {f g : Nat → Reader β}
    (rest : Persists before after move' (f c.offset) (g (c.offset + before)) c G) :
    Persists before after move' (Reader.offset >>= f) (Reader.offset >>= g) c G := rest

theorem get {f g : Cursor → Reader β}
    (rest : Persists before after move' (f c) (g (c.amid before after)) c G) :
    Persists before after move' (MonadState.get >>= f) (MonadState.get >>= g) c G := rest

theorem set {f g : Unit → Reader β} {c' : Cursor}
    (rest : Persists before after move' (f ()) (g ()) c G) : Persists before after move'
      (MonadStateOf.set c >>= f) (MonadStateOf.set (c.amid before after) >>= g) c' G := rest

/-- At the end of the text the next character may be another one, which then makes no difference. -/
theorem peek_blind {f g : Option Char → Reader β}
    (blind : c.rest = [] → ∀ t ∈ after.head?, g (some t) = g none)
    (rest : ∀ x, c.rest.head? = x → Persists before after move' (f x) (g x) c G) :
    Persists before after move' (Reader.peek >>= f) (Reader.peek >>= g) c G := by
  obtain ⟨offset, text⟩ := c
  suffices same : Persists before after move' (f text.head?) (g (text ++ after).head?) ⟨offset, text⟩ G
    from same
  cases text with
  | cons x cs => exact rest (some x) rfl
  | nil => cases after with
    | nil => exact rest none rfl
    | cons t after =>
      rw [List.nil_append, List.head?_cons, blind rfl t rfl]
      exact rest none rfl

/-- Or nothing is read there. -/
theorem peek {f g : Option Char → Reader β} (stuck : ∀ offset, Stuck (f none) ⟨offset, []⟩)
    (rest : ∀ x, c.rest.head? = x → Persists before after move' (f x) (g x) c G) :
    Persists before after move' (Reader.peek >>= f) (Reader.peek >>= g) c G := by
  by_cases ended : c.rest = []
  · obtain ⟨offset, _⟩ := c
    subst ended
    refine of_stuck (stuck offset) ?_
    rintro rfl
    exact peek_blind (fun _ => nofun) rest
  · exact peek_blind (fun none => absurd none ended) rest

theorem skip {f g : Unit → Reader β} {count : Nat} (there : count ≤ c.rest.length)
    (rest : ∀ c', c'.rest.length + count = c.rest.length →
      Persists before after move' (f ()) (g ()) c' G) :
    Persists before after move' (Reader.skip count >>= f) (Reader.skip count >>= g) c G := by
  have known := rest ⟨c.offset + count, c.rest.drop count⟩ (by
    rw [List.length_drop, Nat.sub_add_cancel there])
  have moved : (c.amid before after).offset + count = c.offset + count + before :=
    Nat.add_right_comm ..
  have left : (c.amid before after).rest.drop count = c.rest.drop count ++ after :=
    List.drop_append_of_le_length there
  unfold Persists at known ⊢
  rw [run_skip_bind, run_skip_bind, moved, left]
  exact known

theorem expect {f g : Unit → Reader β} {sign : Char}
    (rest : ∀ c', c'.rest.length < c.rest.length → Persists before after move' (f ()) (g ()) c' G) :
    Persists before after move' (Reader.expect sign >>= f) (Reader.expect sign >>= g) c G := by
  have first : Persists before after id (Reader.expect sign) (Reader.expect sign) c
      fun _ c' => c'.rest.length < c.rest.length := by
    refine peek (fun _ => ⟨_, rfl⟩) fun x head => ?_
    split
    · next found =>
      refine mono (skip (f := Pure.pure) (g := Pure.pure) (length_rest_pos (head.trans found))
        fun c' fewer => ?_) fun _ _ known => known
      exact pure (Nat.lt_of_succ_le (Nat.le_of_eq fewer))
    · exact fail
  exact first.bind fun _ c' fewer => rest c' fewer

/-- A run of characters that does not go on behind the text. -/
theorem takeWhile {f g : List Char → Reader β} {among : Char → Bool}
    (stops : (∀ t ∈ after.head?, among t = false) ∨ c.rest.dropWhile among ≠ [])
    (rest : ∀ c', c'.rest.length ≤ c.rest.length → c'.rest = c.rest.dropWhile among →
      Persists before after move' (f (c.rest.takeWhile among)) (g (c.rest.takeWhile among)) c' G) :
    Persists before after move' (Reader.takeWhile among >>= f) (Reader.takeWhile among >>= g) c G := by
  have known := rest ⟨c.offset + (c.rest.takeWhile among).length, c.rest.dropWhile among⟩
    (List.dropWhile_sublist among).length_le rfl
  obtain ⟨taken, left⟩ := scan_append stops
  have moved (n : Nat) : (c.amid before after).offset + n = c.offset + n + before :=
    Nat.add_right_comm ..
  have first : Persists before after id (Reader.takeWhile among) (Reader.takeWhile among) c
      fun cs c' => cs = c.rest.takeWhile among ∧
        c' = ⟨c.offset + (c.rest.takeWhile among).length, c.rest.dropWhile among⟩ := by
    unfold Persists
    rw [run_takeWhile, run_takeWhile, moved, Cursor.amid, taken, left]
    exact ⟨⟨rfl, rfl⟩, rfl⟩
  refine first.bind ?_
  rintro _ _ ⟨rfl, rfl⟩
  exact known

/-- A run of characters that may go on behind the text, where nothing is read if it does. -/
theorem takeWhile_stuck {f g : List Char → Reader β} {among : Char → Bool}
    (stuck : ∀ offset, Stuck (f (c.rest.takeWhile among)) ⟨offset, []⟩)
    (rest : ∀ c', c'.rest.length ≤ c.rest.length → Persists before after move'
      (f (c.rest.takeWhile among)) (g (c.rest.takeWhile among)) c' G) :
    Persists before after move' (Reader.takeWhile among >>= f) (Reader.takeWhile among >>= g) c G := by
  by_cases ended : c.rest.dropWhile among = []
  · refine of_stuck ?_ fun none => takeWhile (.inl (none ▸ nofun)) fun c' fewer _ => rest c' fewer
    obtain ⟨fault, failed⟩ := stuck (c.offset + (c.rest.takeWhile among).length)
    refine ⟨fault, ?_⟩
    rw [StateT.run_bind, run_takeWhile, ended]
    exact failed
  · exact takeWhile (.inr ended) fun c' fewer _ => rest c' fewer

theorem skipBlanks {f g : Unit → Reader β} (stuck : ∀ offset, Stuck (f ()) ⟨offset, []⟩)
    (rest : ∀ c', c'.rest.length ≤ c.rest.length →
      Persists before after move' (f ()) (g ()) c' G) :
    Persists before after move' (Reader.skipBlanks >>= f) (Reader.skipBlanks >>= g) c G :=
  takeWhile_stuck (f := fun _ => f ()) (g := fun _ => g ()) stuck rest

/-- Blanks that end within the text. -/
theorem skipBlanks_inside {f g : Unit → Reader β}
    (inside : after = [] ∨ c.rest.dropWhile Text.isBlank ≠ [])
    (rest : ∀ c', c'.rest.length ≤ c.rest.length → c'.rest = c.rest.dropWhile Text.isBlank →
      Persists before after move' (f ()) (g ()) c' G) :
    Persists before after move' (Reader.skipBlanks >>= f) (Reader.skipBlanks >>= g) c G :=
  takeWhile (f := fun _ => f ()) (g := fun _ => g ())
    (inside.imp_left (by rintro rfl; exact nofun)) rest

/-- The end of a list. -/
theorem stop {count most : Nat} (there : count ≤ c.rest.length) (within : c.rest.length ≤ most) :
    Persists before after (Option.map move) (do Reader.skip count; return none)
      (do Reader.skip count; return none) c
      fun read c' => c'.rest.length + read.toList.length ≤ most :=
  skip there fun _ fewer => pure (by rw [Option.toList_none, List.length_nil]; omega)

/-- One part of a list. -/
theorem part {f : α → β} {most : Nat} (part : Persists before after move p q c
      fun _ c' => c'.rest.length < c.rest.length) (same : ∀ a, f (move a) = move' (f a))
    (within : c.rest.length ≤ most) :
    Persists before after (Option.map move') (do return some (f (← p))) (do return some (f (← q))) c
      fun read c' => c'.rest.length + read.toList.length ≤ most :=
  part.bind fun a _ fewer => pure_eq (congrArg some (same a)) (Nat.le_trans fewer within)

end Persists

/-- Both readers go round in step, each within its own bound. -/
theorem persists_collect {step step' : Reader (Option α)} {limit limit' most : Nat}
    (each : ∀ c, c.rest.length ≤ most → Persists before after (Option.map move) step step' c
      fun read c' => c'.rest.length + read.toList.length ≤ c.rest.length)
    (within : c.rest.length ≤ most) (enough : c.rest.length < limit)
    (enough' : c.rest.length + after.length < limit') :
    Persists before after (List.map move) (collect limit step) (collect limit' step') c
      fun _ c' => c'.rest.length ≤ c.rest.length := by
  induction limit generalizing limit' c with
  | zero => exact absurd enough (Nat.not_lt_zero _)
  | succ limit ih => cases limit' with
    | zero => exact absurd enough' (Nat.not_lt_zero _)
    | succ limit' =>
      refine (each c within).bind fun read c' fewer => ?_
      cases read with
      | none => exact .pure fewer
      | some a =>
        have fewer : c'.rest.length + 1 ≤ c.rest.length := fewer
        refine (ih (by omega) (by omega) (by omega)).bind fun as c'' fewer' => .pure ?_
        exact Nat.le_trans fewer' (Nat.le_of_succ_le fewer)

theorem Stuck.bind (stuck : Stuck p c) : Stuck (p >>= f) c := by
  obtain ⟨fault, failed⟩ := stuck
  refine ⟨fault, ?_⟩
  rw [StateT.run_bind, failed]
  rfl

theorem stuck_collect {step : Reader (Option α)} (stuck : Stuck step c) :
    (limit : Nat) → Stuck (collect limit step) c
  | 0 => ⟨_, rfl⟩
  | _ + 1 => stuck.bind

end Reader

namespace Score
open Reader

variable {before limit limit' : Nat} {after : List Char} {α : Type} {move : α → α} {c : Cursor}

section Tokens

/-- No word and no number goes on with a blank. -/
theorem plain_of_isBlank {t : Char} (blank : Text.isBlank t) :
    isWordChar t = false ∧ t.isDigit = false ∧ isDecimalChar t = false := by
  have digit : t.isDigit = false :=
    Bool.eq_false_iff.mpr fun digit => nomatch blank.symm.trans (solid_of_isDigit digit)
  have other {signs : List Char} (solid : signs.any Text.isBlank = false) : t ∉ signs :=
    fun listed => List.any_eq_false.mp solid t listed blank
  have letter : t.isAlphanum = false := by
    rw [Char.isAlphanum, digit, Bool.or_false]
    refine Bool.eq_false_iff.mpr fun letter => ?_
    have range : 65 ≤ t.toNat ∧ t.toNat ≤ 122 := by
      simp only [Char.isAlpha, Char.isUpper, Char.isLower, Bool.or_eq_true, Bool.and_eq_true,
        decide_eq_true_eq] at letter
      rcases letter with ⟨low, high⟩ | ⟨low, high⟩
      · exact ⟨UInt32.le_iff_toNat_le.mp low, Nat.le_trans (UInt32.le_iff_toNat_le.mp high) (by decide)⟩
      · exact ⟨Nat.le_trans (by decide) (UInt32.le_iff_toNat_le.mp low), UInt32.le_iff_toNat_le.mp high⟩
    simp only [Text.isBlank, Bool.or_eq_true, Bool.and_eq_true, decide_eq_true_eq, beq_iff_eq] at blank
    omega
  refine ⟨?_, digit, ?_⟩
  · rw [isWordChar, letter, Bool.false_or]
    exact decide_eq_false (other (by decide))
  · have signs : t ∉ ['-', '.'] := other (by decide)
    simp only [List.mem_cons, List.not_mem_nil, or_false, not_or] at signs
    rw [isDecimalChar, digit, Bool.false_or, decide_eq_false signs.1, decide_eq_false signs.2]
    rfl

theorem persists_emojiSymbol {f g : String → Reader α} {F : α → Cursor → Prop}
    (stuck : ∀ s offset, Stuck (f s) ⟨offset, []⟩)
    (rest : ∀ s c', c'.rest.length ≤ c.rest.length → Persists before after move (f s) (g s) c' F) :
    Persists before after move (emojiSymbol >>= f) (emojiSymbol >>= g) c F := by
  rw [emojiSymbol, bind_assoc, bind_assoc]
  refine .takeWhile_stuck (fun offset => ?_) fun c' fewer => ?_
  · split
    · exact ⟨_, rfl⟩
    · exact stuck _ offset
  · split
    · exact .fail_bind
    · exact rest _ c' fewer

variable (apart : ∀ t ∈ after.head?, Text.isBlank t)
include apart

theorem persists_word (c : Cursor) : Persists before after id word word c
    fun _ c' => c'.rest.length ≤ c.rest.length := by
  refine .takeWhile (.inl fun t first => (plain_of_isBlank (apart t first)).1) fun c' fewer _ => ?_
  split
  · exact .peek (fun _ => ⟨_, rfl⟩) fun _ _ => .fail
  · exact .pure fewer

theorem persists_number (c : Cursor) : Persists before after id number number c
    fun _ c' => c'.rest.length ≤ c.rest.length := by
  refine .offset (.takeWhile (.inl fun t first => (plain_of_isBlank (apart t first)).2.1)
    fun c' fewer _ => ?_)
  split
  · exact .peek (fun _ => ⟨_, rfl⟩) fun _ _ => .fail
  · split
    · exact .failAt
    · exact .pure fewer

theorem persists_key (c : Cursor) : Persists before after (Key.later before) key key c
    fun _ c' => c'.rest.length < c.rest.length := by
  have stops {signs : List Char} (solid : signs.any Text.isBlank = false) :
      ∀ t ∈ after.head?, decide (t ∈ signs) = false := fun t first =>
    decide_eq_false fun listed => List.any_eq_false.mp solid t listed (apart t first)
  refine .offset (.takeWhile (.inl (stops (by decide))) fun c₁ fewer₁ _ => ?_)
  refine .peek (fun _ => ⟨_, rfl⟩) fun x head => ?_
  have finish (tone : Tone) (octave : Int) (there : 1 ≤ c₁.rest.length) :
      Persists before after (Key.later before) (do
        skip 1
        let accidentals ← takeWhile (· ∈ ['+', '-'])
        return {
          offset := c.offset
          tone := tone
          octave := octave
          semitones := Int.ofNat (accidentals.count '+') - Int.ofNat (accidentals.count '-') })
       (do
        skip 1
        let accidentals ← takeWhile (· ∈ ['+', '-'])
        return {
          offset := c.offset + before
          tone := tone
          octave := octave
          semitones := Int.ofNat (accidentals.count '+') - Int.ofNat (accidentals.count '-') })
       c₁ fun _ c' => c'.rest.length < c.rest.length := by
    refine .skip there fun c₂ fewer₂ => ?_
    refine .takeWhile (.inl (stops (by decide))) fun c₃ fewer₃ _ => .pure ?_
    omega
  split
  · exact .fail_bind
  · exact finish _ _ (length_rest_pos head)
  · split
    · exact finish _ _ (length_rest_pos head)
    · exact .fail_bind

theorem persists_setting (c : Cursor) : Persists before after (Setting.later before) setting setting
    c fun _ c' => c'.rest.length < c.rest.length := by
  refine .offset (.expect fun c₁ fewer₁ => (persists_word apart c₁).bind fun key c₂ fewer₂ => ?_)
  refine .expect fun c₃ fewer₃ => (persists_word apart c₃).bind fun value c₄ fewer₄ => ?_
  refine .expect fun c₅ fewer₅ => .pure ?_
  omega

theorem persists_chord (enough : c.rest.length ≤ limit)
    (enough' : c.rest.length + after.length ≤ limit') :
    Persists before after (Chord.later before) (chord limit) (chord limit') c
      fun _ c' => c'.rest.length < c.rest.length := by
  have each (start : Nat) (c : Cursor) : Persists before after (Option.map (Key.later before))
      (chordStep start) (chordStep (start + before)) c
      fun read c' => c'.rest.length + read.toList.length ≤ c.rest.length := by
    refine .skipBlanks (fun _ => ⟨_, rfl⟩) fun c₁ fewer₁ => .peek (fun _ => ⟨_, rfl⟩) fun x head => ?_
    split
    · exact .failAt
    · exact .stop (length_rest_pos head) fewer₁
    · exact (persists_key apart c₁).part (f := id) (fun _ => rfl) fewer₁
  refine .offset (.expect fun c₁ fewer₁ => .peek (fun _ => ?_) fun x head => ?_)
  · exact (stuck_collect ⟨_, rfl⟩ limit).bind
  have finish (arpeggio : Bool) {c₂ : Cursor} (fewer₂ : c₂.rest.length ≤ c₁.rest.length) :
      Persists before after (Chord.later before) (do
        let keys ← collect limit (chordStep c.offset)
        return ⟨c.offset, arpeggio, keys⟩) (do
        let keys ← collect limit' (chordStep (c.offset + before))
        return ⟨c.offset + before, arpeggio, keys⟩) c₂
        fun _ c' => c'.rest.length < c.rest.length := by
    refine (persists_collect (fun c _ => each _ c) (Nat.le_refl _) (by omega) (by omega)).bind
      fun keys c₃ fewer₃ => .pure ?_
    omega
  dsimp only
  split
  · next bar => exact .skip (length_rest_pos (head.trans bar)) fun c₂ fewer₂ => finish _ (by omega)
  · exact finish _ (Nat.le_refl _)

end Tokens

end Score
end TextScore
