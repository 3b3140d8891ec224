import TextScore.Proofs.Advances
import TextScore.Proofs.Renditions

/-! What octave ranges do to their bodies. A range moves the octave of its timeline and moves it back
at its end; nothing else tells the body from one whose keys all have one octave mark more. -/
namespace TextScore

/-- By how many octaves a range shifts its body, if it is one that does. -/
def RangeKind.octaves? : RangeKind → Option Int
  | .octaveUp => some 1
  | .octaveDown => some (-1)
  | _ => none

/-- The item does not set an octave, and brings in no items from elsewhere. -/
def Item.KeepsOctave : Item → Prop
  | .setting s => s.key ≠ "o"
  | .group .. | .groupRef .. | .emoji .. | .range _ (.userRange _) _ => False
  | _ => True

/-- An octave mark on the key does the same as an octave of the timeline. -/
theorem Performance.pitch_raise {t t' : Timeline} {octaves : Int} (doubles : t.Doubles t')
    (apart : t.state.octave = t'.state.octave + octaves) (substitution : Option (Nat × Int)) (k : Key) :
    t.state.pitch substitution k = t'.state.pitch substitution (Session.raise octaves k) := by
  have transpose : t.state.transpose = t'.state.transpose := (congrArg (·.state.transpose) doubles :)
  have shifted : t.state.octave + k.octave = t'.state.octave + (k.octave + octaves) := by
    omega
  have shifted' (octave : Int) :
      k.octave + t.state.octave - octave = k.octave + octaves + t'.state.octave - octave := by
    omega
  simp only [Performance.pitch, Session.raise, transpose, shifted, shifted']

namespace Session
open Step (Follows)
variable {s t : Session} {here : TimelineId} {depth references ticks offset : Nat} {octaves : Int}

/-- The body of an octave range, and the same with as many octave marks more on its keys. -/
def raising (octaves : Int) (stack : List Modifier) : Version where
  key := raise octaves
  gap := octaves
  fixed := none
  surplus := 1
  stack := stack
  stack' := stack

theorem faithful_raising (octaves : Int) (stack : List Modifier) :
    (raising octaves stack).Faithful fun fault => fault.cause = .exhausted where
  offset _ := rfl
  pitch doubles apart more k := by
    have commuted : raise octaves (raise more k) = raise more (raise octaves k) := by
      simp only [raise, Int.add_right_comm]
    exact (Performance.pitch_raise doubles apart.octave _ _).trans (congrArg _ commuted)
  audible := rfl
  spent _ _ := rfl

theorem permits_raising {item : Item} (keeps : item.KeepsOctave) (octaves : Int)
    (stack : List Modifier) : (raising octaves stack).Permits item := by
  cases item with
  | setting s => exact fun named => absurd named keeps
  | range offset kind body => cases kind with
    | userRange => exact keeps.elim
    | _ => trivial
  | group | groupRef | emoji => exact keeps.elim
  | _ => trivial

/-- The session with one of its timelines so many octaves higher. -/
def shifted (here : TimelineId) (octaves : Int) (s : Session) : Session :=
  { s with arena := s.arena.adjust here fun t =>
      { t with state := { t.state with octave := t.state.octave + octaves } } }

theorem performOctave_run (inner : Performer) (here : TimelineId) (references : Nat) (octaves : Int)
    (body : List Item) (s : Session) : (performOctave inner here references octaves body).run s =
      match (performAll inner here references body).run (s.shifted here octaves) with
      | .ok ticks t => .ok ticks (t.shifted here (-octaves))
      | .error fault t => .error fault t := by
  have shift (octaves : Int) (s : Session) :
      (shiftOctave here octaves).run s = .ok ⟨⟩ (s.shifted here octaves) := rfl
  simp only [performOctave, EStateM.run_bind, shift]
  cases (performAll inner here references body).run (s.shifted here octaves) <;> rfl

theorem opened_run {p : Play Nat} (room : (s.arena.timeline here).position ≤ longest) :
    (opened here offset p).run s = if s.gas.remaining - 1 = 0 then
        .error ⟨.exhausted, offset⟩ { s with gas := ⟨s.gas.remaining - 1⟩ }
      else p.run { s with gas := ⟨s.gas.remaining - 1⟩ } := by
  rw [opened, EStateM.run_bind, burn_run]
  by_cases last : s.gas.remaining - 1 = 0
  · rw [if_pos last, if_pos last]
  rw [if_neg last, if_neg last]
  have looked (u : Session) : (timeline here).run u = .ok (u.arena.timeline here) u := rfl
  simp only [EStateM.run_bind, looked, if_neg (Nat.not_lt.mpr room)]

/-- Before the body the range has moved its timeline and burnt gas. -/
theorem rendered_shifted {roots : List TimelineId} (forest : Arena.Forest roots s.arena)
    (inside : here < s.arena.timelines.size) (left : s.gas.remaining - 1 ≠ 0) (octaves : Int) :
    Rendered (raising octaves s.modifiers) [here]
      ({ s with gas := ⟨s.gas.remaining - 1⟩ }.shifted here octaves) s where
  gas := by
    simp only [shifted, raising]
    omega
  definitions := rfl
  fermata := rfl
  graces := rfl
  onsets := rfl
  measuring := rfl
  stack := rfl
  stack' := rfl
  arena := by
    refine ⟨(Arena.size_adjust ..).symm, fun id => ?_, fun id listed => ?_, fun id listed => ?_⟩
    · dsimp only [shifted]
      rw [Arena.timeline_adjust_or]
      split
      · next own =>
        rw [own.1]
        exact rfl
      · exact .refl _
    · rw [List.mem_singleton.mp listed, shifted, Arena.timeline_adjust_self _ _ _ inside]
      exact ⟨rfl, nofun⟩
    · rw [List.mem_singleton.mp listed, shifted, Arena.size_adjust]
      exact inside
  forest := ⟨roots, forest.adjust rfl rfl⟩

/-- After the body the range moves its timeline back. -/
theorem Rendered.sounds_shifted {stack : List Modifier} {t' : Session}
    (rendered : Rendered (raising octaves stack) [here] t t') (ticks : Nat) :
    SoundsAlike here (.ok ticks (t.shifted here (-octaves))) (.ok ticks t') := by
  have inside := rendered.arena.inside here (List.mem_singleton_self here)
  have apart := rendered.arena.apart here (List.mem_singleton_self here)
  have same := rendered.arena.timeline here
  have own : (t.shifted here (-octaves)).arena.timeline here = t'.arena.timeline here := by
    rw [shifted, Arena.timeline_adjust_self _ _ _ inside, same, apart.octave]
    exact congrArg (Timeline.inOctave · (t'.arena.timeline here)) (Int.add_neg_cancel_right ..)
  refine .played rfl rfl (rendered.arena.size.trans (Arena.size_adjust ..).symm) (fun id => ?_) own
    rendered.definitions rendered.fermata rendered.graces rendered.onsets
  by_cases other : id = here
  · rw [other, own]
    exact .refl _
  · rw [shifted, Arena.timeline_adjust_ne _ _ (Ne.symm other)]
    exact rendered.arena.timeline id

/-- An octave range plays what its body plays with octave marks on its keys. -/
theorem octave_range_raises {gas : Nat} {score : List Node} (visits : Visits gas score s)
    (inside : here < s.arena.timelines.size) (room : (s.arena.timeline here).position ≤ longest)
    {kind : RangeKind} (shifts : kind.octaves? = some octaves) {body : List Item}
    (plain : ∀ item ∈ body, item.Throughout Item.KeepsOctave)
    (enough : ∀ fault t, (perform (depth + 1) here references (.range offset kind body)).run s =
      .error fault t → fault.cause ≠ .exhausted) :
    SoundsAlike here ((perform (depth + 1) here references (.range offset kind body)).run s)
      ((performAll (perform depth) here references (body.map (Item.mapKeys (raise octaves)))).run s) := by
  obtain ⟨m, live, tended⟩ := visits.tended
  have opening : perform (depth + 1) here references (.range offset kind body) =
      opened here offset (performOctave (perform depth) here references octaves body) := by
    cases kind with
    | octaveUp | octaveDown =>
      cases shifts
      rfl
    | _ => exact nomatch shifts
  rw [opening, opened_run room] at enough ⊢
  by_cases last : s.gas.remaining - 1 = 0
  · rw [if_pos last] at enough
    exact absurd rfl (enough _ _ rfl)
  rw [if_neg last, performOctave_run] at enough ⊢
  have rendered := rendered_shifted tended.sound.forest inside last octaves
  have tracks := tracks_all (renders_perform depth) (faithful_raising octaves s.modifiers)
    (List.mem_singleton_self here) references
    fun item listed inner path => permits_raising (plain item listed inner path) octaves s.modifiers
  have agree := tracks.both _ _ rendered
  have keys : mapAllKeys (raising octaves s.modifiers).key body =
      body.map (Item.mapKeys (raise octaves)) := mapAllKeys_eq ..
  rw [keys] at agree
  generalize (performAll (perform depth) here references body).run _ = r at agree enough ⊢
  generalize (performAll (perform depth) here references (body.map _)).run s = r' at agree ⊢
  cases r with
  | ok ticks t => cases r' with
    | ok ticks' t' =>
      obtain ⟨rfl, rendered⟩ := agree
      exact rendered.sounds_shifted ticks
    | error => exact agree.elim
  | error fault t =>
    have spent := enough fault t rfl
    cases r' with
    | ok => exact absurd agree spent
    | error fault' t' =>
      rcases agree with rfl | lost
      · exact .failed rfl rfl
      · exact absurd lost spent

/-- A range down an octave after a rest, around a trill on a chord with a grace, a tie and a passage. -/
theorem octave_range_raises_passage : ∃ (score : List Node) (s t t' : Session) (body : List Item),
    Visits 40 score s ∧ (s.arena.timeline 0).position = 32 ∧
      (perform 39 0 0 (.range 1 .octaveDown body)).run s = .ok 128 t ∧
      (performAll (perform 38) 0 0 (body.map (Item.mapKeys (raise (-1))))).run s = .ok 128 t' ∧
      t.arena.timeline 0 = t'.arena.timeline 0 := by
  let key : Item := .key ⟨3, .pitchClass 0, 0, 0⟩
  let chord : Item := .chord ⟨5, false, [⟨6, .pitchClass 0, 0, 0⟩, ⟨7, .pitchClass 4, 1, 0⟩]⟩
  let trill : Item := .ornament 2 .trill [.graced 3 [.range 4 .octaveUp [key]] chord]
  let passage : Item := .parallel 10 [[key, .range 11 .sustain [key]], [.rest 12, chord]]
  let body : List Item := [trill, .tie 9, passage]
  let item : Item := .range 1 .octaveDown body
  let repeats : Repeats := { performed := #[.item (.rest 0)] }
  let rested : Timeline :=
    { channel := 1, rests := 32, position := 32, last := .rest, repeats := repeats }
  let call : Call := ⟨0, 0, item, { gas := ⟨39⟩, arena := ⟨#[rested]⟩, channels := #[0] }⟩
  have round : Round (.start 40 [.item (.rest 0), .item item])
      ⟨some 0, [⟨.item item, false⟩], call.session⟩ :=
    @Round.node none (some 0) ⟨.item (.rest 0), false⟩ _ [] _ _ rfl
  have reached : Reaches 40 [.item (.rest 0), .item item] 40 call :=
    Reaches.node (t := call.session) (.single round) rfl
  have simple (item : Item) (keeps : item.KeepsOctave) (none : item.inner = []) :
      item.Throughout Item.KeepsOctave := Item.throughout_iff.mpr ⟨keeps, none ▸ nofun⟩
  have plain : ∀ item ∈ body, item.Throughout Item.KeepsOctave := by
    have graced : (Item.graced 3 [.range 4 .octaveUp [key]] chord).Throughout Item.KeepsOctave :=
      Item.throughout_iff.mpr ⟨trivial, List.forall_mem_singleton.mpr (simple chord trivial rfl)⟩
    have sustained : (Item.range 11 .sustain [key]).Throughout Item.KeepsOctave :=
      Item.throughout_iff.mpr ⟨trivial, List.forall_mem_singleton.mpr (simple key trivial rfl)⟩
    refine List.forall_mem_cons.mpr ⟨?_, List.forall_mem_cons.mpr ⟨simple _ trivial rfl, ?_⟩⟩
    · exact Item.throughout_iff.mpr ⟨trivial, List.forall_mem_singleton.mpr graced⟩
    · refine List.forall_mem_singleton.mpr (Item.throughout_iff.mpr ⟨trivial, ?_⟩)
      refine List.forall_mem_cons.mpr ⟨simple _ trivial rfl, List.forall_mem_cons.mpr ⟨sustained, ?_⟩⟩
      exact List.forall_mem_cons.mpr ⟨simple _ trivial rfl,
        List.forall_mem_singleton.mpr (simple _ trivial rfl)⟩
  have performed : (perform 39 0 0 item).run' call.session = some 128 := by decide +kernel
  obtain ⟨t, done⟩ := Step.exists_of_run' performed
  have inside : 0 < call.session.arena.timelines.size := Nat.zero_lt_one
  have alike := octave_range_raises (.before reached) inside (by decide)
    (rfl : RangeKind.octaveDown.octaves? = some (-1)) plain
    fun fault u failed => nomatch done.symm.trans failed
  cases alike with
  | played first second _ _ own =>
    cases done.symm.trans first
    exact ⟨_, call.session, t, _, body, .before reached, rfl, done, second, own⟩
  | failed first => exact nomatch done.symm.trans first

end Session
end TextScore
