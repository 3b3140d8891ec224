import TextScore.Proofs.Acceptance

/-! Reading gets on. Wherever in a text a reader starts, it stands further on in the text afterwards,
or it fails at a place of the text. -/
namespace TextScore

/-- The cursor stands in the text, at its end at the latest. -/
structure Cursor.In (text : List Char) (c : Cursor) : Prop where
  inside : c.offset ≤ text.length
  rest : c.rest = text.drop c.offset

variable {text : List Char}

theorem Cursor.In.whole {c : Cursor} (within : c.In text) :
    c.offset + c.rest.length = text.length := by
  rw [within.rest, List.length_drop, Nat.add_sub_cancel' within.inside]

namespace Reader
variable {α β : Type} {p : Reader α} {f : α → Reader β} {c c' : Cursor} {F : α → Nat → Prop}
  {G : β → Nat → Prop}

/-- From this cursor the reader gets to such an offset in the text, or it fails in the text. -/
def Stays (text : List Char) (p : Reader α) (c : Cursor) (F : α → Nat → Prop) : Prop :=
  match p.run c with
  | .ok (a, c') => c'.In text ∧ F a c'.offset
  | .error fault => fault.offset ≤ text.length

/-- Wherever in the text the reader starts, it takes at least so many characters, or it fails in the
text. -/
def Consumes (text : List Char) (count : Nat) (p : Reader α) : Prop :=
  ∀ c, c.In text → Stays text p c fun _ offset => c.offset + count ≤ offset

/-- So does a round of a loop: it takes a character for what it reads. -/
def Rounds (text : List Char) (step : Reader (Option α)) : Prop :=
  ∀ c, c.In text → Stays text step c fun read offset => c.offset + read.toList.length ≤ offset

namespace Stays

theorem pure {a : α} (within : c.In text) (known : F a c.offset) :
    Stays text (Pure.pure a) c F := ⟨within, known⟩

theorem failAt {offset : Nat} {cause : Cause} (inside : offset ≤ text.length) :
    Stays text (Reader.failAt offset cause) c F := inside

theorem fail {cause : Cause} (within : c.In text) : Stays text (Reader.fail cause) c F :=
  within.inside

theorem fail_bind {cause : Cause} (within : c.In text) : Stays text (Reader.fail cause >>= f) c G :=
  within.inside

theorem bind (first : Stays text p c F)
    (second : ∀ a c', c'.In text → F a c'.offset → Stays text (f a) c' G) :
    Stays text (p >>= f) c G := by
  unfold Stays at first ⊢
  rw [StateT.run_bind]
  cases result : p.run c with
  | error fault =>
    rw [result] at first
    exact first
  | ok read =>
    rw [result] at first
    exact second read.1 read.2 first.1 first.2

theorem mono {F' : α → Nat → Prop} (stays : Stays text p c F)
    (weaker : ∀ a offset, F a offset → F' a offset) : Stays text p c F' := by
  unfold Stays at stays ⊢
  cases result : p.run c with
  | error fault =>
    rw [result] at stays
    exact stays
  | ok read =>
    rw [result] at stays
    exact ⟨stays.1, weaker _ _ stays.2⟩

theorem offset {f : Nat → Reader β} (rest : Stays text (f c.offset) c G) :
    Stays text (Reader.offset >>= f) c G := rest

theorem peek {f : Option Char → Reader β} (rest : Stays text (f c.rest.head?) c G) :
    Stays text (Reader.peek >>= f) c G := rest

theorem get {f : Cursor → Reader β} (rest : Stays text (f c) c G) :
    Stays text (MonadState.get >>= f) c G := rest

theorem set {f : Unit → Reader β} (rest : Stays text (f ()) c G) :
    Stays text (MonadStateOf.set c >>= f) c' G := rest

/-- No more is skipped than there is. -/
theorem skip {f : Unit → Reader β} {count : Nat} (within : c.In text) (there : count ≤ c.rest.length)
    (rest : ∀ c', c'.In text → c.offset + count = c'.offset → Stays text (f ()) c' G) :
    Stays text (Reader.skip count >>= f) c G := by
  refine rest ⟨c.offset + count, c.rest.drop count⟩ ⟨?_, ?_⟩ rfl
  · rw [← within.whole]
    exact Nat.add_le_add_left there _
  · rw [within.rest, List.drop_drop]

theorem expect {f : Unit → Reader β} {sign : Char} (within : c.In text)
    (rest : ∀ c', c'.In text → c.offset < c'.offset → Stays text (f ()) c' G) :
    Stays text (Reader.expect sign >>= f) c G := by
  refine bind (F := fun _ offset => c.offset < offset) (peek ?_) fun _ c' => rest c'
  split
  · next found =>
    refine mono (skip (f := Pure.pure) within (length_rest_pos found) fun c' within' moved => ?_)
      fun _ _ known => known
    exact pure within' (moved ▸ Nat.lt_succ_self _)
  · exact fail within

/-- A run of characters is taken one by one. -/
theorem taken (among : Char → Bool) (within : c.In text) :
    Stays text (Reader.takeWhile among) c fun taken offset => c.offset + taken.length = offset :=
  get (skip within (List.takeWhile_sublist among).length_le fun _ within' moved => pure within' moved)

theorem takeWhile {f : List Char → Reader β} {among : Char → Bool} (within : c.In text)
    (rest : ∀ taken c', c'.In text → c.offset + taken.length = c'.offset →
      Stays text (f taken) c' G) :
    Stays text (Reader.takeWhile among >>= f) c G := bind (taken among within) rest

theorem skipBlanks {f : Unit → Reader β} (within : c.In text)
    (rest : ∀ c', c'.In text → c.offset ≤ c'.offset → Stays text (f ()) c' G) :
    Stays text (Reader.skipBlanks >>= f) c G := by
  refine bind (F := fun _ offset => c.offset ≤ offset) ?_ fun _ c' => rest c'
  exact takeWhile within fun _ c' within' moved => pure within' (moved ▸ Nat.le_add_right _ _)

variable {begun : Nat}

/-- The end of a list. -/
theorem stop {count : Nat} (within : c.In text) (there : count ≤ c.rest.length)
    (forth : begun ≤ c.offset) : Stays text (do Reader.skip count; return none : Reader (Option α)) c
      fun read offset => begun + read.toList.length ≤ offset :=
  skip within there fun c' within' moved => pure within' (by
    rw [Option.toList_none, List.length_nil]
    omega)

/-- One part of a list. -/
theorem part {g : α → β} (part : Consumes text 1 p) (within : c.In text)
    (forth : begun ≤ c.offset) : Stays text (do return some (g (← p))) c
      fun read offset => begun + read.toList.length ≤ offset :=
  (part c within).bind fun _ _ within' taken =>
    pure within' (Nat.le_trans (Nat.add_le_add_right forth 1) taken)

end Stays

/-- By induction on the bound of the rounds. -/
theorem consumes_collect {step : Reader (Option α)} (rounds : Rounds text step) (limit : Nat) :
    Consumes text 0 (collect limit step) := by
  induction limit with
  | zero => exact fun c within => .fail within
  | succ limit ih =>
    refine fun c within => (rounds c within).bind fun read c₁ within₁ forth₁ => ?_
    have forth : c.offset ≤ c₁.offset := Nat.le_trans (Nat.le_add_right _ _) forth₁
    cases read with
    | none => exact .pure within₁ forth
    | some a =>
      exact (ih c₁ within₁).bind fun as c₂ within₂ forth₂ => .pure within₂ (Nat.le_trans forth forth₂)

end Reader

namespace Score
open Reader

variable {limit start : Nat}

section Tokens

theorem consumes_word : Consumes text 0 word := by
  refine fun c within => .takeWhile within fun taken c₁ within₁ moved => ?_
  split
  · exact .peek (.fail within₁)
  · exact .pure within₁ (by omega)

theorem consumes_emojiSymbol : Consumes text 0 emojiSymbol := by
  refine fun c within => .takeWhile within fun taken c₁ within₁ moved => ?_
  split
  · exact .fail within₁
  · exact .pure within₁ (by omega)

theorem consumes_number : Consumes text 0 number := by
  refine fun c within => .offset (.takeWhile within fun taken c₁ within₁ moved => ?_)
  split
  · exact .peek (.fail within₁)
  · split
    · exact .failAt within.inside
    · exact .pure within₁ (by omega)

theorem consumes_key : Consumes text 1 key := by
  refine fun c within => .offset (.takeWhile within fun marks c₁ within₁ moved₁ => .peek ?_)
  have finish (tone : Tone) (octave : Int) (there : 1 ≤ c₁.rest.length) : Stays text (do
        skip 1
        let accidentals ← takeWhile (· ∈ ['+', '-'])
        return {
          offset := c.offset
          tone := tone
          octave := octave
          semitones := Int.ofNat (accidentals.count '+') - Int.ofNat (accidentals.count '-') } :
            Reader Key) c₁ fun _ offset => c.offset + 1 ≤ offset := by
    refine .skip within₁ there fun c₂ within₂ moved₂ => ?_
    refine .takeWhile within₂ fun accidentals c₃ within₃ moved₃ => .pure within₃ ?_
    omega
  split
  · exact .fail_bind within₁
  · next head => exact finish _ _ (length_rest_pos head)
  · next head =>
    split
    · exact finish _ _ (length_rest_pos head)
    · exact .fail_bind within₁

theorem consumes_setting : Consumes text 1 setting := by
  refine fun c within => .offset (.expect within fun c₁ within₁ taken => ?_)
  refine (consumes_word c₁ within₁).bind fun key c₂ within₂ forth₂ => ?_
  refine .expect within₂ fun c₃ within₃ forth₃ => ?_
  refine (consumes_word c₃ within₃).bind fun value c₄ within₄ forth₄ => ?_
  refine .expect within₄ fun c₅ within₅ forth₅ => .pure within₅ ?_
  omega

theorem rounds_chordStep (begun : start ≤ text.length) :
    Rounds text (chordStep start) := by
  refine fun c within => .skipBlanks within fun c₁ within₁ forth => .peek ?_
  split
  · exact .failAt begun
  · next head => exact .stop within₁ (length_rest_pos head) forth
  · exact .part (g := id) consumes_key within₁ forth

theorem consumes_chord (limit : Nat) : Consumes text 1 (chord limit) := by
  refine fun c within => .offset (.expect within fun c₁ within₁ taken => .peek ?_)
  have finish (arpeggio : Bool) {c₂ : Cursor} (within₂ : c₂.In text) (forth : c₁.offset ≤ c₂.offset) :
      Stays text (do
        let keys ← collect limit (chordStep c.offset)
        return (⟨c.offset, arpeggio, keys⟩ : Chord) : Reader Chord) c₂
        fun _ offset => c.offset + 1 ≤ offset := by
    refine (consumes_collect (rounds_chordStep within.inside) limit c₂ within₂).bind
      fun keys c₃ within₃ forth₃ => .pure within₃ ?_
    omega
  dsimp only
  split
  · next bar =>
    exact .skip within₁ (length_rest_pos bar) fun c₂ within₂ moved => finish _ within₂ (by omega)
  · exact finish _ within₁ (Nat.le_refl _)

end Tokens

section Constructs
variable {item : Reader Item} {body : Enclosure → Reader (List Item)}

theorem rounds_enclosedStep (items : Consumes text 1 item) (what : Enclosure)
    (begun : start ≤ text.length) : Rounds text (enclosedStep item what start) := by
  refine fun c within => .skipBlanks within fun c₁ within₁ forth => .peek ?_
  split
  · exact .failAt begun
  · next head =>
    split
    · exact .stop within₁ (length_rest_pos head) forth
    · exact .part (g := id) items within₁ forth

theorem consumes_enclosed (items : Consumes text 1 item) (limit : Nat) (what : Enclosure) :
    Consumes text 0 (enclosed limit item what) := by
  refine fun c within => .offset ?_
  refine (consumes_collect (rounds_enclosedStep items what within.inside) limit c within).bind
    fun items c₁ within₁ forth => ?_
  split
  · exact .failAt within.inside
  · exact .pure within₁ forth

theorem consumes_range (bodies : ∀ what, Consumes text 0 (body what)) :
    Consumes text 1 (range body) := by
  refine fun c within => .offset (.expect within fun c₁ within₁ taken => .peek ?_)
  split
  · exact .fail within₁
  · next kind found =>
    obtain ⟨sign, head, -⟩ := Option.bind_eq_some_iff.mp found
    refine .skip within₁ (length_rest_pos head) fun c₂ within₂ moved => ?_
    refine (bodies .range c₂ within₂).bind fun items c₃ within₃ forth => .pure within₃ ?_
    omega

theorem consumes_userRangeName : Consumes text 1 userRangeName := by
  refine fun c within => .expect within fun c₁ within₁ taken => ?_
  refine .expect within₁ fun c₂ within₂ forth₂ => ?_
  refine (consumes_word c₂ within₂).bind fun name c₃ within₃ forth₃ => ?_
  refine .expect within₃ fun c₄ within₄ forth₄ => ?_
  refine .expect within₄ fun c₅ within₅ forth₅ => .pure within₅ ?_
  omega

theorem consumes_invocation (bodies : ∀ what, Consumes text 0 (body what)) :
    Consumes text 1 (invocation body) := by
  refine fun c within => .offset ?_
  refine (consumes_userRangeName c within).bind fun name c₁ within₁ taken => ?_
  refine .skipBlanks within₁ fun c₂ within₂ forth₂ => .expect within₂ fun c₃ within₃ forth₃ => ?_
  refine (bodies .invocation c₃ within₃).bind fun items c₄ within₄ forth₄ => .pure within₄ ?_
  omega

theorem consumes_groupRef : Consumes text 1 groupRef := by
  refine fun c within => .offset (.expect within fun c₁ within₁ taken => ?_)
  refine .expect within₁ fun c₂ within₂ forth₂ => ?_
  refine (consumes_number c₂ within₂).bind fun id c₃ within₃ forth₃ => ?_
  refine .expect within₃ fun c₄ within₄ forth₄ => .pure within₄ ?_
  omega

theorem consumes_group (bodies : ∀ what, Consumes text 0 (body what)) :
    Consumes text 1 (group body) := by
  refine fun c within => .offset (.expect within fun c₁ within₁ taken => ?_)
  refine (consumes_number c₁ within₁).bind fun id c₂ within₂ forth₂ => ?_
  refine (bodies .group c₂ within₂).bind fun items c₃ within₃ forth₃ => .pure within₃ ?_
  omega

theorem consumes_emojiRef : Consumes text 1 emojiRef := by
  refine fun c within => .offset (.expect within fun c₁ within₁ taken => ?_)
  refine (consumes_emojiSymbol c₁ within₁).bind fun symbol c₂ within₂ forth₂ => ?_
  refine .expect within₂ fun c₃ within₃ forth₃ => .pure within₃ ?_
  omega

/-- A sign that is an item by itself. -/
theorem stays_sign {f : Nat → Item} {c : Cursor} (within : c.In text) (there : 1 ≤ c.rest.length) :
    Stays text (do
      let start ← offset
      skip 1
      return f start) c fun _ offset => c.offset + 1 ≤ offset :=
  .offset (.skip within there fun _ within₁ moved => .pure within₁ (Nat.le_of_eq moved))

theorem rounds_parallelStep (items : Consumes text 1 item) (begun : start ≤ text.length) :
    Rounds text (parallelStep item start) := by
  refine fun c within => .skipBlanks within fun c₁ within₁ forth => .get ?_
  split
  · exact .failAt begun
  · next same => exact .stop within₁ (same ▸ Nat.le_add_left 2 _) forth
  · next same =>
    refine .skip within₁ (same ▸ Nat.le_add_left 1 _) fun c₂ within₂ moved => .pure within₂ ?_
    exact Nat.le_trans (Nat.add_le_add_right forth 1) (Nat.le_of_eq moved)
  · exact .part items within₁ forth

theorem consumes_parallel (items : Consumes text 1 item) (limit : Nat) :
    Consumes text 1 (parallel limit item) := by
  refine fun c within => .offset (.expect within fun c₁ within₁ taken => ?_)
  refine .expect within₁ fun c₂ within₂ forth₂ => ?_
  refine (consumes_collect (rounds_parallelStep items within.inside) limit c₂ within₂).bind
    fun parts c₃ within₃ forth₃ => ?_
  dsimp only
  split
  · exact .failAt within.inside
  · split
    · exact .failAt within.inside
    · exact .pure within₃ (by omega)

theorem rounds_graceStep (bodies : ∀ what, Consumes text 0 (body what)) (limit : Nat)
    (begun : start ≤ text.length) : Rounds text (graceStep limit body start) := by
  refine fun c within => .skipBlanks within fun c₁ within₁ forth => .get ?_
  split
  · exact .failAt begun
  · next same => exact .stop within₁ (same ▸ Nat.le_add_left 1 _) forth
  · exact .part (consumes_chord limit) within₁ forth
  · exact .part (g := id) (consumes_range bodies) within₁ forth
  · exact .part (g := id) (consumes_invocation bodies) within₁ forth
  · exact .part consumes_key within₁ forth

theorem consumes_graces (bodies : ∀ what, Consumes text 0 (body what)) (limit : Nat) :
    Consumes text 1 (graces limit body) := by
  refine fun c within => .offset (.expect within fun c₁ within₁ taken => ?_)
  refine .expect within₁ fun c₂ within₂ forth₂ => ?_
  have rounds := rounds_graceStep bodies limit within.inside
  refine (consumes_collect rounds limit c₂ within₂).mono fun graces offset forth₃ => ?_
  omega

theorem consumes_breakpoint : Consumes text 1 breakpoint := by
  refine fun c within => .offset (.expect within fun c₁ within₁ taken => ?_)
  refine .takeWhile within₁ fun inside c₂ within₂ moved₂ => ?_
  refine .expect within₂ fun c₃ within₃ forth₃ => ?_
  split
  · exact .pure within₃ (by omega)
  · exact .failAt within.inside

theorem rounds_plainStep (items : Consumes text 1 item) (kind : Ornament)
    (begun : start ≤ text.length) : Rounds text (plainStep item kind start) := by
  refine fun c within => .skipBlanks within fun c₁ within₁ forth => .get ?_
  split
  · exact .failAt begun
  · next same => exact .stop within₁ (same ▸ Nat.le_add_left 1 _) forth
  · split
    · exact .part (g := id) consumes_breakpoint within₁ forth
    · exact .part (g := id) items within₁ forth

theorem consumes_plainBody (items : Consumes text 1 item) (limit : Nat) (kind : Ornament)
    (begun : start ≤ text.length) : Consumes text 0 (plainBody limit item kind start) := by
  refine fun c within => ?_
  refine (consumes_collect (rounds_plainStep items kind begun) limit c within).bind
    fun body c₁ within₁ forth => ?_
  split
  · exact .failAt begun
  · exact .pure within₁ forth

theorem rounds_dynamicsStep (items : Consumes text 1 item) (begun : start ≤ text.length) :
    Rounds text (dynamicsStep item start) := by
  refine fun c within => .skipBlanks within fun c₁ within₁ forth => .peek ?_
  split
  · exact .failAt begun
  · split
    · exact .pure within₁ forth
    · exact .part (g := id) items within₁ forth

theorem consumes_dynamicsBody (items : Consumes text 1 item) (limit : Nat) (kind : Nat → Ornament)
    (begun : start ≤ text.length) : Consumes text 0 (dynamicsBody limit item kind start) := by
  refine fun c within => ?_
  refine (consumes_collect (rounds_dynamicsStep items begun) limit c within).bind
    fun body c₁ within₁ forth₁ => .offset ?_
  refine (consumes_number c₁ within₁).bind fun target c₂ within₂ forth₂ => ?_
  refine .expect within₂ fun c₃ within₃ forth₃ => ?_
  split
  · exact .failAt within₁.inside
  · split
    · exact .failAt begun
    · exact .pure within₃ (by omega)

theorem consumes_ornament (items : Consumes text 1 item) (limit : Nat) :
    Consumes text 1 (ornament limit item) := by
  refine fun c within => .offset (.expect within fun c₁ within₁ taken => .peek ?_)
  have finish {p : Reader Item} {sign : Char} (head : c₁.rest.head? = some sign)
      (body : Consumes text 0 p) :
      Stays text (do skip 1; p) c₁ fun _ offset => c.offset + 1 ≤ offset := by
    refine .skip within₁ (length_rest_pos head) fun c₂ within₂ moved => ?_
    refine (body c₂ within₂).mono fun _ offset forth => ?_
    omega
  split
  · next head => exact finish head (consumes_dynamicsBody items limit _ within.inside)
  · next head => exact finish head (consumes_dynamicsBody items limit _ within.inside)
  · split
    · next kind found =>
      obtain ⟨sign, head, -⟩ := Option.bind_eq_some_iff.mp found
      exact finish head (consumes_plainBody items limit kind within.inside)
    · exact .fail within₁

end Constructs

section Items
variable {inner : Place → Reader Item} (items : ∀ place, Consumes text 1 (inner place))
include items

theorem consumes_sound (limit : Nat) : Consumes text 1 (sound limit inner) := by
  refine fun c within => .peek ?_
  split
  · exact consumes_ornament (items .ornament) limit c within
  · exact (consumes_chord limit c within).bind fun _ _ within₁ taken => .pure within₁ taken
  · next head => exact stays_sign within (length_rest_pos head)
  · next head => exact stays_sign within (length_rest_pos head)
  · exact (consumes_key c within).bind fun _ _ within₁ taken => .pure within₁ taken

theorem consumes_itemAnywhere (limit : Nat) : Consumes text 1 (itemAnywhere limit inner) := by
  have bodies (what : Enclosure) : Consumes text 0 (enclosed limit (inner .anywhere) what) :=
    consumes_enclosed (items .anywhere) limit what
  refine fun c within => .offset (.get ?_)
  split
  · exact .fail within
  · split
    · exact consumes_emojiRef c within
    · split
      · exact (consumes_setting c within).bind fun _ _ within₁ taken => .pure within₁ taken
      · exact consumes_range bodies c within
  · exact consumes_invocation bodies c within
  · exact consumes_groupRef c within
  · exact consumes_group bodies c within
  · exact consumes_parallel (items .anywhere) limit c within
  · refine (consumes_graces bodies limit c within).bind fun graces c₁ within₁ taken => ?_
    refine (consumes_sound items limit c₁ within₁).bind fun main c₂ within₂ forth => ?_
    exact .pure within₂ (by omega)
  · next same => exact stays_sign within (same ▸ Nat.le_add_left 1 _)
  · next same => exact stays_sign within (same ▸ Nat.le_add_left 1 _)
  · exact consumes_sound items limit c within

theorem consumes_itemInOrnament (limit : Nat) : Consumes text 1 (itemInOrnament limit inner) := by
  have bodies (what : Enclosure) : Consumes text 0 (enclosed limit (inner .anywhere) what) :=
    consumes_enclosed (items .anywhere) limit what
  refine fun c within => .get ?_
  split
  · exact consumes_invocation bodies c within
  · exact consumes_groupRef c within
  · split
    · exact (consumes_setting c within).bind fun _ _ within₁ taken => .pure within₁ taken
    · exact consumes_range bodies c within
  · next same => exact stays_sign within (same ▸ Nat.le_add_left 1 _)
  · next same => exact stays_sign within (same ▸ Nat.le_add_left 1 _)
  · exact consumes_sound items limit c within

end Items

/-- By induction on the bound of the depth. -/
theorem consumes_nested (limit : Nat) (place : Place) : Consumes text 1 (nested limit place) := by
  induction limit generalizing place with
  | zero => exact fun c within => .fail within
  | succ limit ih => cases place with
    | anywhere => exact consumes_itemAnywhere ih (limit + 1)
    | ornament => exact consumes_itemInOrnament ih (limit + 1)

section Nodes

theorem consumes_itemNode (limit : Nat) : Consumes text 1 (itemNode limit) := fun c within =>
  (consumes_nested limit .anywhere c within).bind fun _ _ within₁ taken => .pure within₁ taken

theorem consumes_global : Consumes text 1 Score.global := by
  refine fun c within => .offset (.expect within fun c₁ within₁ taken => ?_)
  refine .expect within₁ fun c₂ within₂ forth₂ => ?_
  refine (consumes_word c₂ within₂).bind fun key c₃ within₃ forth₃ => ?_
  refine .expect within₃ fun c₄ within₄ forth₄ => ?_
  refine (consumes_word c₄ within₄).bind fun value c₅ within₅ forth₅ => ?_
  refine .expect within₅ fun c₆ within₆ forth₆ => ?_
  refine .expect within₆ fun c₇ within₇ forth₇ => .pure within₇ ?_
  omega

theorem consumes_declareEmoji : Consumes text 1 declareEmoji := by
  refine fun c within => .offset (.expect within fun c₁ within₁ taken => ?_)
  refine .expect within₁ fun c₂ within₂ forth₂ => ?_
  refine (consumes_emojiSymbol c₂ within₂).bind fun symbol c₃ within₃ forth₃ => ?_
  refine .expect within₃ fun c₄ within₄ forth₄ => .skipBlanks within₄ fun c₅ within₅ forth₅ => ?_
  refine (consumes_setting c₅ within₅).bind fun value c₆ within₆ forth₆ => ?_
  refine .skipBlanks within₆ fun c₇ within₇ forth₇ => .expect within₇ fun c₈ within₈ forth₈ => ?_
  refine .expect within₈ fun c₉ within₉ forth₉ => .pure within₉ ?_
  omega

theorem consumes_definition (limit : Nat) : Consumes text 1 (definition limit) := by
  refine fun c within => .get ?_
  refine (consumes_userRangeName c within).bind fun name c₁ within₁ taken => ?_
  refine .skipBlanks within₁ fun c₂ within₂ forth₂ => .peek ?_
  split
  · next head =>
    refine .skip within₂ (length_rest_pos head) fun c₃ within₃ moved => ?_
    have body := consumes_enclosed (consumes_nested limit .anywhere) limit .definition c₃ within₃
    refine body.bind fun items c₄ within₄ forth₄ => .pure within₄ ?_
    omega
  · exact .set (consumes_itemNode limit c within)

theorem consumes_channel : Consumes text 1 Score.channel := by
  refine fun c within => .offset (.expect within fun c₁ within₁ taken => .peek ?_)
  have finish (resume : Bool) {c₂ : Cursor} (within₂ : c₂.In text) (forth : c₁.offset ≤ c₂.offset) :
      Stays text (do return .channel c.offset (← number) resume : Reader Node) c₂
        fun _ offset => c.offset + 1 ≤ offset := by
    refine (consumes_number c₂ within₂).bind fun id c₃ within₃ forth₃ => .pure within₃ ?_
    omega
  dsimp only
  split
  · next tilde =>
    exact .skip within₁ (length_rest_pos tilde) fun c₂ within₂ moved => finish _ within₂ (by omega)
  · exact finish _ within₁ (Nat.le_refl _)

theorem stays_repeatClose {c : Cursor} (within : c.In text) (there : 2 ≤ c.rest.length) :
    Stays text repeatClose c fun _ offset => c.offset + 1 ≤ offset := by
  refine .offset (.skip within there fun c₁ within₁ moved => .peek ?_)
  split
  · refine (consumes_number c₁ within₁).bind fun count c₂ within₂ forth => .pure within₂ ?_
    omega
  · exact .pure within₁ (by omega)

theorem consumes_node (limit : Nat) : Consumes text 1 (Score.node limit) := by
  refine fun c within => .offset (.get ?_)
  have sign {node : Node} (there : 2 ≤ c.rest.length) :
      Stays text (do skip 2; return node) c fun _ offset => c.offset + 1 ≤ offset :=
    .skip within there fun _ within₁ moved => .pure within₁ (by omega)
  split
  · split
    · exact consumes_declareEmoji c within
    · exact consumes_global c within
  · exact consumes_definition limit c within
  · next same => exact sign (same ▸ Nat.le_add_left 2 _)
  · next same => exact stays_repeatClose within (same ▸ Nat.le_add_left 2 _)
  · next same => exact sign (same ▸ Nat.le_add_left 2 _)
  · next same => exact sign (same ▸ Nat.le_add_left 2 _)
  · exact consumes_channel c within
  · exact consumes_itemNode limit c within

theorem rounds_nodesStep (limit : Nat) : Rounds text (nodesStep limit) := by
  refine fun c within => .skipBlanks within fun c₁ within₁ forth => .peek ?_
  split
  · exact .pure within₁ forth
  · exact .part (g := id) (consumes_node limit) within₁ forth

end Nodes

end Score
end TextScore
