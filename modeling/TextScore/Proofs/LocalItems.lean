import TextScore.Proofs.Locality

/-! Reading items is local. One or two signs decide what an item is, and amid other text they decide
the same, for blanks keep what stands behind apart. -/
namespace TextScore.Score
open Reader

variable {before limit limit' : Nat} {after : List Char} {c : Cursor}

section Constructs
variable {item item' : Reader Item} {body body' : Enclosure → Reader (List Item)} {most : Nat}

/-- So are the items read whose text is not longer than this. -/
def ItemsPersist (before : Nat) (after : List Char) (most : Nat) (item item' : Reader Item) : Prop :=
  ∀ c, c.rest.length ≤ most → Persists before after (Item.later before) item item' c
    fun _ c' => c'.rest.length < c.rest.length

def BodiesPersist (before : Nat) (after : List Char) (most : Nat)
    (body body' : Enclosure → Reader (List Item)) : Prop :=
  ∀ what c, c.rest.length ≤ most → Persists before after (List.map (Item.later before)) (body what)
    (body' what) c fun _ c' => c'.rest.length ≤ c.rest.length

theorem persists_enclosed (items : ItemsPersist before after most item item') (enough : most < limit)
    (enough' : most + after.length < limit') :
    BodiesPersist before after most (enclosed limit item) (enclosed limit' item') := by
  intro what c within
  have each (c₁ : Cursor) (within : c₁.rest.length ≤ most) :
      Persists before after (Option.map (Item.later before)) (enclosedStep item what c.offset)
        (enclosedStep item' what (c.offset + before)) c₁
        fun read c' => c'.rest.length + read.toList.length ≤ c₁.rest.length := by
    refine .skipBlanks (fun _ => ⟨_, rfl⟩) fun c₂ fewer => .peek (fun _ => ⟨_, rfl⟩) fun x head => ?_
    split
    · exact .failAt
    · split
      · exact .stop (length_rest_pos head) fewer
      · exact (items c₂ (Nat.le_trans fewer within)).part (f := id) (fun _ => rfl) fewer
  refine .offset ((persists_collect each within (by omega) (by omega)).bind fun items c' fewer => ?_)
  rw [List.isEmpty_map]
  split
  · exact .failAt
  · exact .pure fewer

theorem persists_range (bodies : BodiesPersist before after most body body')
    (within : c.rest.length ≤ most + 1) :
    Persists before after (Item.later before) (range body) (range body') c
      fun _ c' => c'.rest.length < c.rest.length := by
  refine .offset (.expect fun c₁ fewer₁ => .peek (fun _ => ⟨_, rfl⟩) fun mark head => ?_)
  split
  · exact .fail
  · next kind found =>
    obtain ⟨sign, rfl, -⟩ := Option.bind_eq_some_iff.mp found
    refine .skip (length_rest_pos head) fun c₂ fewer₂ => ?_
    refine (bodies .range c₂ (by omega)).bind fun items c₃ fewer₃ => ?_
    exact .pure_eq (by rw [Item.later, allLater_eq]) (by omega)

section Names
variable (apart : ∀ t ∈ after.head?, Text.isBlank t)
include apart

theorem persists_userRangeName (c : Cursor) : Persists before after id userRangeName userRangeName c
    fun _ c' => c'.rest.length < c.rest.length := by
  refine .expect fun c₁ fewer₁ => .expect fun c₂ fewer₂ => (persists_word apart c₂).bind
    fun name c₃ fewer₃ => .expect fun c₄ fewer₄ => .expect fun c₅ fewer₅ => .pure ?_
  omega

theorem persists_invocation (bodies : BodiesPersist before after most body body')
    (within : c.rest.length ≤ most + 1) :
    Persists before after (Item.later before) (invocation body) (invocation body') c
      fun _ c' => c'.rest.length < c.rest.length := by
  refine .offset ((persists_userRangeName apart c).bind fun name c₁ fewer₁ => ?_)
  refine .skipBlanks (fun _ => ⟨_, rfl⟩) fun c₂ fewer₂ => .expect fun c₃ fewer₃ => ?_
  refine (bodies .invocation c₃ (by omega)).bind fun items c₄ fewer₄ => ?_
  exact .pure_eq (by rw [Item.later, allLater_eq]; rfl) (by omega)

theorem persists_groupRef (c : Cursor) : Persists before after (Item.later before) groupRef groupRef c
    fun _ c' => c'.rest.length < c.rest.length := by
  refine .offset (.expect fun c₁ fewer₁ => .expect fun c₂ fewer₂ => (persists_number apart c₂).bind
    fun id c₃ fewer₃ => .expect fun c₄ fewer₄ => .pure_eq (by rw [Item.later]; rfl) ?_)
  omega

theorem persists_group (bodies : BodiesPersist before after most body body')
    (within : c.rest.length ≤ most + 1) :
    Persists before after (Item.later before) (group body) (group body') c
      fun _ c' => c'.rest.length < c.rest.length := by
  refine .offset (.expect fun c₁ fewer₁ => (persists_number apart c₁).bind fun id c₂ fewer₂ => ?_)
  refine (bodies .group c₂ (by omega)).bind fun items c₃ fewer₃ => ?_
  exact .pure_eq (by rw [Item.later, allLater_eq]; rfl) (by omega)

end Names

theorem persists_emojiRef (c : Cursor) : Persists before after (Item.later before) emojiRef emojiRef c
    fun _ c' => c'.rest.length < c.rest.length := by
  refine .offset (.expect fun c₁ fewer₁ => persists_emojiSymbol (fun _ _ => ⟨_, rfl⟩)
    fun symbol c₂ fewer₂ => .expect fun c₃ fewer₃ => .pure_eq (by rw [Item.later]) ?_)
  omega

theorem persists_breakpoint (c : Cursor) : Persists before after (Item.later before) breakpoint
    breakpoint c fun _ c' => c'.rest.length < c.rest.length := by
  refine .offset (.expect fun c₁ fewer₁ => .takeWhile_stuck (fun _ => ⟨_, rfl⟩) fun c₂ fewer₂ => ?_)
  refine .expect fun c₃ fewer₃ => ?_
  split
  · exact .pure_eq (by rw [Item.later]) (by omega)
  · exact .failAt

/-- A sign that is an item by itself. -/
theorem persists_sign {f : Nat → Item} (known : ∀ start, f (start + before) = (f start).later before)
    (there : 1 ≤ c.rest.length) : Persists before after (Item.later before) (do
        let start ← offset
        skip 1
        return f start) (do
        let start ← offset
        skip 1
        return f start) c fun _ c' => c'.rest.length < c.rest.length :=
  .offset (.skip there fun _ fewer => .pure_eq (known _) (by omega))

section Signs
variable (apart : ∀ t ∈ after.head?, Text.isBlank t)
include apart

/-- A text that does not begin with these signs does not begin with them amid other text. -/
theorem begins_amid {text rest : List Char} (signs : List Char)
    (solid : signs.any Text.isBlank = false) (other : ∀ rest', text = signs ++ rest' → False) :
    text ++ after ≠ signs ++ rest := by
  intro begins
  rcases List.append_eq_append_iff.mp begins with ⟨more, same, behind⟩ | ⟨more, same, -⟩
  · cases more with
    | nil => exact other [] (by rw [same, List.append_nil, List.append_nil])
    | cons t more =>
      have blank := apart t (by rw [behind]; rfl)
      have sign : t ∈ signs := same ▸ List.mem_append_right text List.mem_cons_self
      exact List.any_eq_false.mp solid t sign blank
  · exact other more same

theorem persists_parallel (items : ItemsPersist before after most item item') (enough : most < limit)
    (enough' : most + after.length < limit') (within : c.rest.length ≤ most + 1) :
    Persists before after (Item.later before) (parallel limit item) (parallel limit' item') c
      fun _ c' => c'.rest.length < c.rest.length := by
  have each (start : Nat) (c : Cursor) (within : c.rest.length ≤ most) :
      Persists before after (Option.map (Option.map (Item.later before))) (parallelStep item start)
        (parallelStep item' (start + before)) c
        fun read c' => c'.rest.length + read.toList.length ≤ c.rest.length := by
    refine .skipBlanks (fun _ => ⟨_, rfl⟩) fun c₁ fewer₁ => .get ?_
    have within₁ := Nat.le_trans fewer₁ within
    obtain ⟨offset, text⟩ := c₁
    dsimp only [Cursor.amid]
    split
    · refine .of_stuck ⟨_, rfl⟩ ?_
      rintro rfl
      exact .failAt
    · exact .stop (Nat.le_add_left 2 _) fewer₁
    · exact .skip (Nat.le_add_left 1 _) fun _ fewer₂ =>
        .pure (Nat.le_trans (Nat.le_of_eq fewer₂) fewer₁)
    · next filled unclosed unbarred =>
      split
      · next none => exact (filled (List.append_eq_nil_iff.mp none).1).elim
      · next closed => exact (begins_amid apart [']', ']'] (by decide) unclosed closed).elim
      · next barred => exact (begins_amid apart ['|'] (by decide) unbarred barred).elim
      · exact .part (f := some) (items _ within₁) (fun _ => by rfl) fewer₁
  refine .offset (.expect fun c₁ fewer₁ => .expect fun c₂ fewer₂ => ?_)
  refine (persists_collect (each c.offset) (by omega) (by omega) (by omega)).bind
    fun parts c₃ fewer₃ => ?_
  rw [splitAtBars_map]
  dsimp only
  rw [List.length_map, List.any_map, Function.comp_def]
  simp only [List.isEmpty_map]
  split
  · exact .failAt
  · split
    · exact .failAt
    · exact .pure_eq (by rw [Item.later, branchesLater_eq]) (by omega)

theorem persists_graces (bodies : BodiesPersist before after most body body') (enough : most < limit)
    (enough' : most + after.length < limit') (within : c.rest.length ≤ most + 1) :
    Persists before after (List.map (Item.later before)) (graces limit body) (graces limit' body') c
      fun _ c' => c'.rest.length < c.rest.length := by
  have each (start : Nat) (c : Cursor) (within : c.rest.length ≤ most) :
      Persists before after (Option.map (Item.later before)) (graceStep limit body start)
        (graceStep limit' body' (start + before)) c
        fun read c' => c'.rest.length + read.toList.length ≤ c.rest.length := by
    refine .skipBlanks (fun _ => ⟨_, rfl⟩) fun c₁ fewer₁ => .get ?_
    have within₁ := Nat.le_trans fewer₁ within
    obtain ⟨offset, text⟩ := c₁
    dsimp only [Cursor.amid]
    split
    · refine .of_stuck ⟨_, rfl⟩ ?_
      rintro rfl
      exact .failAt
    · exact .stop (Nat.le_add_left 1 _) fewer₁
    · exact .part (f := Item.chord)
        (persists_chord apart (Nat.le_of_lt (Nat.lt_of_le_of_lt within₁ enough)) (by omega))
        (fun _ => by rw [Item.later]) fewer₁
    · exact (persists_range bodies (Nat.le_succ_of_le within₁)).part (f := id) (fun _ => rfl) fewer₁
    · exact (persists_invocation apart bodies (Nat.le_succ_of_le within₁)).part (f := id)
        (fun _ => rfl) fewer₁
    · next filled unclosed plain round braced =>
      split
      · next none => exact (filled (List.append_eq_nil_iff.mp none).1).elim
      · next closed => exact (begins_amid apart [']'] (by decide) unclosed closed).elim
      · next same => exact (begins_amid apart ['['] (by decide) plain same).elim
      · next same => exact (begins_amid apart ['('] (by decide) round same).elim
      · next same => exact (begins_amid apart ['\x7b', '\x7b'] (by decide) braced same).elim
      · exact .part (f := Item.key) (persists_key apart _) (fun _ => by rw [Item.later]) fewer₁
  refine .offset (.expect fun c₁ fewer₁ => .expect fun c₂ fewer₂ => ?_)
  refine (persists_collect (each c.offset) (by omega) (by omega) (by omega)).mono
    fun parts c₃ fewer₃ => ?_
  omega

/-- What a bracket holds up to another sign is told amid other text. -/
theorem holds_amid {among : Char → Bool} {sign : Char} (cs : List Char)
    (stops : ∀ t, Text.isBlank t → among t = false) (solid : Text.isBlank sign = false) :
    (!((cs ++ after).takeWhile among).isEmpty && ((cs ++ after).dropWhile among).head? == some sign) =
      (!(cs.takeWhile among).isEmpty && (cs.dropWhile among).head? == some sign) := by
  have stopped : ∀ t ∈ after.head?, among t = false := fun t first => stops t (apart t first)
  obtain ⟨taken, left⟩ := @scan_append after among cs (.inl stopped)
  rw [taken, left]
  cases cs.dropWhile among with
  | cons => rfl
  | nil =>
    have other : after.head? ≠ some sign := fun first =>
      nomatch solid.symm.trans (apart sign (first ▸ rfl))
    rw [List.nil_append, beq_eq_false_iff_ne.mpr other]
    rfl

theorem startsSetting_amid (cs : List Char) :
    startsSetting ('(' :: (cs ++ after)) = startsSetting ('(' :: cs) :=
  holds_amid apart cs (fun _ blank => (plain_of_isBlank blank).1) (by decide)

theorem startsBreakpoint_amid {text : List Char} (some : text ≠ []) :
    startsBreakpoint (text ++ after) = startsBreakpoint text := by
  obtain ⟨x, cs, rfl⟩ := List.exists_cons_of_ne_nil some
  rw [List.cons_append]
  unfold startsBreakpoint
  split
  · next same =>
    cases same
    exact holds_amid apart cs (fun _ blank => (plain_of_isBlank blank).2.2) (by decide)
  · next other =>
    split
    · next same =>
      cases same
      exact (other _ rfl).elim
    · rfl

theorem persists_plainBody (items : ItemsPersist before after most item item') (enough : most < limit)
    (enough' : most + after.length < limit') (within : c.rest.length ≤ most) (kind : Ornament)
    (start : Nat) : Persists before after (Item.later before) (plainBody limit item kind start)
      (plainBody limit' item' kind (start + before)) c fun _ c' => c'.rest.length ≤ c.rest.length := by
  have each (c : Cursor) (within : c.rest.length ≤ most) :
      Persists before after (Option.map (Item.later before)) (plainStep item kind start)
        (plainStep item' kind (start + before)) c
        fun read c' => c'.rest.length + read.toList.length ≤ c.rest.length := by
    refine .skipBlanks (fun _ => ⟨_, rfl⟩) fun c₁ fewer₁ => .get ?_
    have within₁ := Nat.le_trans fewer₁ within
    obtain ⟨offset, text⟩ := c₁
    dsimp only [Cursor.amid]
    split
    · refine .of_stuck ⟨_, rfl⟩ ?_
      rintro rfl
      exact .failAt
    · exact .stop (Nat.le_add_left 1 _) fewer₁
    · next filled unclosed =>
      have same := startsBreakpoint_amid apart filled
      split
      · next bend =>
        split
        · next none => exact (filled (List.append_eq_nil_iff.mp none).1).elim
        · next closed => exact (begins_amid apart ['>'] (by decide) unclosed closed).elim
        · rw [same, if_pos bend]
          exact (persists_breakpoint _).part (f := id) (fun _ => rfl) fewer₁
      · next plain =>
        split
        · next none => exact (filled (List.append_eq_nil_iff.mp none).1).elim
        · next closed => exact (begins_amid apart ['>'] (by decide) unclosed closed).elim
        · rw [same, if_neg plain]
          exact (items _ within₁).part (f := id) (fun _ => rfl) fewer₁
  refine (persists_collect each within (by omega) (by omega)).bind fun body c₁ fewer₁ => ?_
  rw [List.isEmpty_map]
  split
  · exact .failAt
  · exact .pure_eq (by rw [Item.later, allLater_eq]) fewer₁

theorem persists_dynamicsBody (items : ItemsPersist before after most item item')
    (enough : most < limit) (enough' : most + after.length < limit') (within : c.rest.length ≤ most)
    (kind : Nat → Ornament) (start : Nat) :
    Persists before after (Item.later before) (dynamicsBody limit item kind start)
      (dynamicsBody limit' item' kind (start + before)) c
      fun _ c' => c'.rest.length ≤ c.rest.length := by
  have each (c : Cursor) (within : c.rest.length ≤ most) :
      Persists before after (Option.map (Item.later before)) (dynamicsStep item start)
        (dynamicsStep item' (start + before)) c
        fun read c' => c'.rest.length + read.toList.length ≤ c.rest.length := by
    refine .skipBlanks (fun _ => ⟨_, rfl⟩) fun c₁ fewer₁ => .peek (fun _ => ⟨_, rfl⟩) fun x head => ?_
    split
    · exact .failAt
    · split
      · exact .pure fewer₁
      · exact (items c₁ (Nat.le_trans fewer₁ within)).part (f := id) (fun _ => rfl) fewer₁
  refine (persists_collect each within (by omega) (by omega)).bind fun body c₁ fewer₁ => ?_
  refine .offset ((persists_number apart c₁).bind fun target c₂ fewer₂ => .expect fun c₃ fewer₃ => ?_)
  rw [List.isEmpty_map]
  dsimp only [id]
  split
  · exact .failAt
  · split
    · exact .failAt
    · exact .pure_eq (by rw [Item.later, allLater_eq]) (by omega)

theorem persists_ornament (items : ItemsPersist before after most item item') (enough : most < limit)
    (enough' : most + after.length < limit') (within : c.rest.length ≤ most + 1) :
    Persists before after (Item.later before) (ornament limit item) (ornament limit' item') c
      fun _ c' => c'.rest.length < c.rest.length := by
  refine .offset (.expect fun c₁ fewer₁ => .peek (fun _ => ⟨_, rfl⟩) fun x head => ?_)
  split
  · refine .skip (length_rest_pos head) fun c₂ fewer₂ => ?_
    refine (persists_dynamicsBody apart items enough enough' (by omega) _ _).mono fun _ c₃ fewer₃ => ?_
    omega
  · refine .skip (length_rest_pos head) fun c₂ fewer₂ => ?_
    refine (persists_dynamicsBody apart items enough enough' (by omega) _ _).mono fun _ c₃ fewer₃ => ?_
    omega
  · split
    · next kind found =>
      obtain ⟨sign, rfl, -⟩ := Option.bind_eq_some_iff.mp found
      refine .skip (length_rest_pos head) fun c₂ fewer₂ => ?_
      refine (persists_plainBody apart items enough enough' (by omega) _ _).mono fun _ c₃ fewer₃ => ?_
      omega
    · exact .fail

/-- A bracket opens a setting or a range. -/
theorem persists_round (bodies : BodiesPersist before after most body body') {offset : Nat}
    {more : List Char} (within : ('(' :: more).length ≤ most + 1) :
    Persists before after (Item.later before)
      (if startsSetting ('(' :: more) then return .setting (← setting) else range body)
      (if startsSetting ('(' :: (more ++ after)) then return .setting (← setting) else range body')
      ⟨offset, '(' :: more⟩ fun _ c' => c'.rest.length < ('(' :: more).length := by
  rw [startsSetting_amid apart]
  split
  · exact (persists_setting apart _).bind fun _ _ fewer => .pure_eq (by rw [Item.later]) fewer
  · exact persists_range bodies within

/-- Outside of ornaments it may open an emoji shortcut, too. -/
theorem persists_bracket (bodies : BodiesPersist before after most body body') {offset : Nat}
    {more : List Char} (within : ('(' :: more).length ≤ most + 1) :
    Persists before after (Item.later before)
      (if more.head?.any isEmoji then emojiRef
        else if startsSetting ('(' :: more) then return .setting (← setting)
        else range body)
      (if (more ++ after).head?.any isEmoji then emojiRef
        else if startsSetting ('(' :: (more ++ after)) then return .setting (← setting)
        else range body') ⟨offset, '(' :: more⟩
      fun _ c' => c'.rest.length < ('(' :: more).length := by
  have round := @persists_round _ _ _ _ _ apart bodies offset _ within
  cases more with
  | nil =>
    refine .of_stuck ⟨_, rfl⟩ ?_
    rintro rfl
    exact round
  | cons x more =>
    rw [List.cons_append, List.head?_cons, List.head?_cons]
    split
    · exact persists_emojiRef _
    · exact round

end Signs

end Constructs

section Items
variable {inner inner' : Place → Reader Item} {most : Nat}
  (items : ∀ place, ItemsPersist before after most (inner place) (inner' place))
  (enough : most < limit) (enough' : most + after.length < limit') (within : c.rest.length ≤ most + 1)
  (apart : ∀ t ∈ after.head?, Text.isBlank t)
include items enough enough' within apart

theorem persists_sound : Persists before after (Item.later before) (sound limit inner)
    (sound limit' inner') c fun _ c' => c'.rest.length < c.rest.length := by
  refine .peek (fun _ => ⟨_, rfl⟩) fun x head => ?_
  split
  · exact persists_ornament apart (items .ornament) enough enough' within
  · exact (persists_chord apart (by omega) (by omega)).bind fun _ _ fewer =>
      .pure_eq (by rw [Item.later]) fewer
  · exact persists_sign (fun _ => by rw [Item.later]) (length_rest_pos head)
  · exact persists_sign (fun _ => by rw [Item.later]) (length_rest_pos head)
  · exact (persists_key apart c).bind fun _ _ fewer => .pure_eq (by rw [Item.later]) fewer

theorem persists_itemAnywhere : Persists before after (Item.later before) (itemAnywhere limit inner)
    (itemAnywhere limit' inner') c fun _ c' => c'.rest.length < c.rest.length := by
  have bodies : BodiesPersist before after most (enclosed limit (inner .anywhere))
    (enclosed limit' (inner' .anywhere)) := persists_enclosed (items .anywhere) enough enough'
  refine .offset (.get ?_)
  obtain ⟨offset, text⟩ := c
  dsimp only [Cursor.amid]
  split
  · refine .of_stuck ⟨_, rfl⟩ ?_
    rintro rfl
    exact .fail
  · exact persists_bracket apart bodies within
  · exact persists_invocation apart bodies within
  · exact persists_groupRef apart _
  · next more unbraced plain =>
    split
    · next none => exact nomatch none
    · next same => exact nomatch same
    · next same => exact (begins_amid apart ['\x7b'] (by decide) unbraced (List.cons.inj same).2).elim
    · next same => exact (begins_amid apart ['='] (by decide) plain (List.cons.inj same).2).elim
    · exact persists_group apart bodies within
    · next same => exact nomatch same
    · next same => exact nomatch same
    · next same => exact nomatch same
    · next same => exact nomatch same
    · next other _ _ _ _ => exact (other _ rfl).elim
  · exact persists_parallel apart (items .anywhere) enough enough' within
  · refine (persists_graces apart bodies enough enough' within).bind fun graces c₁ fewer₁ => ?_
    have within₁ : c₁.rest.length ≤ most + 1 := Nat.le_trans (Nat.le_of_lt fewer₁) within
    refine (persists_sound items enough enough' within₁ apart).bind fun main c₂ fewer₂ => ?_
    exact .pure_eq (by rw [Item.later, allLater_eq]) (Nat.lt_trans fewer₂ fewer₁)
  · exact persists_sign (fun _ => by rw [Item.later]) (Nat.le_add_left 1 _)
  · exact persists_sign (fun _ => by rw [Item.later]) (Nat.le_add_left 1 _)
  · next filled h₁ h₂ h₃ h₄ h₅ h₆ h₇ h₈ =>
    split
    · next none => exact (filled (List.append_eq_nil_iff.mp none).1).elim
    · next same => exact (begins_amid apart ['('] (by decide) h₁ same).elim
    · next same => exact (begins_amid apart ['\x7b', '\x7b'] (by decide) h₂ same).elim
    · next same => exact (begins_amid apart ['\x7b', '='] (by decide) h₃ same).elim
    · next same => exact (begins_amid apart ['\x7b'] (by decide) h₄ same).elim
    · next same => exact (begins_amid apart ['[', '['] (by decide) h₅ same).elim
    · next same => exact (begins_amid apart ['[', '>'] (by decide) h₆ same).elim
    · next same => exact (begins_amid apart ['_'] (by decide) h₇ same).elim
    · next same => exact (begins_amid apart ['ㅇ'] (by decide) h₈ same).elim
    · exact persists_sound items enough enough' within apart

theorem persists_itemInOrnament : Persists before after (Item.later before)
    (itemInOrnament limit inner) (itemInOrnament limit' inner') c
    fun _ c' => c'.rest.length < c.rest.length := by
  have bodies : BodiesPersist before after most (enclosed limit (inner .anywhere))
    (enclosed limit' (inner' .anywhere)) := persists_enclosed (items .anywhere) enough enough'
  refine .get ?_
  obtain ⟨offset, text⟩ := c
  dsimp only [Cursor.amid]
  split
  · exact persists_invocation apart bodies within
  · next more unbraced =>
    split
    · next same => exact (begins_amid apart ['\x7b'] (by decide) unbraced (List.cons.inj same).2).elim
    · exact persists_groupRef apart _
    · next same => exact nomatch same
    · next same => exact nomatch same
    · next same => exact nomatch same
    · next other _ _ _ => exact (other _ rfl).elim
  · exact persists_round apart bodies within
  · exact persists_sign (fun _ => by rw [Item.later]) (Nat.le_add_left 1 _)
  · exact persists_sign (fun _ => by rw [Item.later]) (Nat.le_add_left 1 _)
  · next h₁ h₂ h₃ h₄ h₅ =>
    split
    · next same => exact (begins_amid apart ['\x7b', '\x7b'] (by decide) h₁ same).elim
    · next same => exact (begins_amid apart ['\x7b'] (by decide) h₂ same).elim
    · next same => exact (begins_amid apart ['('] (by decide) h₃ same).elim
    · next same => exact (begins_amid apart ['_'] (by decide) h₄ same).elim
    · next same => exact (begins_amid apart ['ㅇ'] (by decide) h₅ same).elim
    · exact persists_sound items enough enough' within apart

end Items

theorem run_nested_nil (limit : Nat) (place : Place) (offset : Nat) :
    (nested limit place).run ⟨offset, []⟩ = .error ⟨.unexpectedEnd, offset⟩ := by
  cases limit with
  | zero => rfl
  | succ limit => cases place <;> rfl

theorem persists_nested_nil {place : Place} {offset : Nat} {F : Item → Cursor → Prop} :
    Persists before after (Item.later before) (nested limit place) (nested limit' place)
      ⟨offset, []⟩ F := by
  refine .of_stuck ⟨_, run_nested_nil _ _ _⟩ ?_
  rintro rfl
  unfold Persists
  rw [run_nested_nil]
  exact fun _ => run_nested_nil limit' place (offset + before)

/-- By induction on the bound of the depth. Neither bound is met before the end of its text. -/
theorem persists_nested (apart : ∀ t ∈ after.head?, Text.isBlank t) (place : Place)
    (within : c.rest.length ≤ limit) (within' : c.rest.length + after.length ≤ limit') :
    Persists before after (Item.later before) (nested limit place) (nested limit' place) c
      fun _ c' => c'.rest.length < c.rest.length := by
  induction limit generalizing limit' place c with
  | zero =>
    obtain ⟨offset, text⟩ := c
    cases List.eq_nil_of_length_eq_zero (Nat.le_zero.mp within)
    exact persists_nested_nil
  | succ limit ih =>
    obtain ⟨offset, text⟩ := c
    cases text with
    | nil => exact persists_nested_nil
    | cons x more => cases limit' with
      | zero => exact absurd within' (by simp)
      | succ limit' =>
        dsimp only [List.length_cons] at within within'
        have items (place : Place) : ItemsPersist before after more.length (nested limit place)
            (nested limit' place) := fun c fewer => ih place (by omega) (by omega)
        cases place with
        | anywhere =>
          exact persists_itemAnywhere items (by omega) (by omega) (Nat.le_refl _) apart
        | ornament =>
          exact persists_itemInOrnament items (by omega) (by omega) (Nat.le_refl _) apart

end TextScore.Score
