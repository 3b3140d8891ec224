import TextScore.Proofs.Advances
import TextScore.Proofs.Renditions

/-! What a template plays for a key. Placeholders are looked up while the template is performed, from the
pitch that the key had before; the template could as well have been written with the key in their
places. -/
namespace TextScore

/-- The key where a placeholder stood: the marks of the placeholder come on top of its own. -/
def Key.fill (k : Key) (hole : Key) : Key :=
  match hole.tone with
  | .pitchClass _ => hole
  | .placeholder => { hole with
    tone := k.tone
    octave := k.octave + hole.octave
    semitones := k.semitones + hole.semitones }

/-- The item declares no group and brings in no items but templates. -/
def Item.Templated : Item → Prop
  | .group .. | .groupRef .. | .emoji .. => False
  | _ => True

theorem Key.offset_fill (k hole : Key) : (k.fill hole).offset = hole.offset := by
  unfold Key.fill
  split <;> rfl

/-- A pitch that is in range has the height that was asked for. -/
theorem Pitch.height_of_found {n : Int} {base : Nat} (resolved : (match Pitch.ofInt? n with
      | some p => .ok p
      | none => .error .pitchOutOfRange : Except Cause Nat) = .ok base) : (base : Int) = n := by
  unfold Pitch.ofInt? at resolved
  split at resolved
  · next found =>
    split at found
    · next within =>
      cases found
      cases resolved
      exact Int.toNat_of_nonneg within.1
    · cases found
  · cases resolved

/-- Whatever the octave is by now, a placeholder has the pitch of the key with the marks of both. -/
theorem Performance.pitch_fill {state now : Performance} {substitution : Option (Nat × Int)} {k : Key}
    {base : Nat} (resolved : state.pitch substitution k = .ok base)
    (transpose : now.transpose = state.transpose) (hole : Key) :
    now.pitch (some (base, state.octave)) hole = now.pitch substitution (k.fill hole) := by
  obtain ⟨offset, tone, octave, semitones⟩ := hole
  cases tone with
  | pitchClass c => rfl
  | placeholder =>
    simp only [Performance.pitch, Key.fill] at resolved ⊢
    cases kept : k.tone with
    | pitchClass c =>
      rw [kept] at resolved
      have heard := Pitch.height_of_found resolved
      have same : Int.ofNat base + (12 * (octave + now.octave - state.octave) + semitones) =
          (now.octave + (k.octave + octave) + 1) * 12 + Int.ofNat c +
            (now.transpose + (k.semitones + semitones)) := by
        simp only [Int.ofNat_eq_natCast] at heard ⊢
        omega
      dsimp only
      rw [Pitch.midi?, same]
    | placeholder =>
      rw [kept] at resolved
      cases substitution with
      | none => cases resolved
      | some outer =>
        have heard := Pitch.height_of_found resolved
        have same : Int.ofNat base + (12 * (octave + now.octave - state.octave) + semitones) =
            Int.ofNat outer.1 + (12 * (k.octave + octave + now.octave - outer.2) +
              (k.semitones + semitones)) := by
          simp only [Int.ofNat_eq_natCast] at heard ⊢
          omega
        dsimp only
        rw [same]

namespace Session
open Step (Follows)
variable {s t : Session} {here : TimelineId} {depth references ticks base : Nat} {refused : Fault}
  {lost : Fault → Prop} {γ : Version} {live : List TimelineId}

/-- A setting, unless it transposes. -/
def applyUntransposed (refused : Fault) (here : TimelineId) (s : Setting) (offset : Nat) :
    Play Nat := do
  if s.key = "t" then throw refused
  applySetting here s offset
  return 0

/-- Performs items, but fails with this fault where one of them transposes. -/
def performUntransposed (refused : Fault) : (depth : Nat) → Performer
  | 0 => perform 0
  | depth + 1 => fun here references item => match item with
    | .setting s => opened here s.offset (applyUntransposed refused here s s.offset)
    | .emoji offset symbol => opened here offset do
      applyUntransposed refused here (← onDefinitions (Definitions.emoji symbol offset)) offset
    | item => performWith (performUntransposed refused depth) here references item

/-- A template with a key for its placeholders, and the same with the key in their places. -/
def filling (k : Key) (base : Nat) (state : Performance) (stack : List Modifier) : Version where
  key := k.fill
  gap := 0
  fixed := some state.transpose
  surplus := 0
  stack := .substitute base state.octave :: stack
  stack' := stack

theorem follows_lost {α : Type} (loses : lost refused) (q : Play α) :
    Tracks lost γ live (throw refused) q := by
  have left {fault : Fault} (loses : lost fault) (s' : Session) :
      Coupling.Survives (Meets lost) (fun _ => rendering lost γ live) fault (q.run s') := by
    cases q.run s' with
    | ok => exact loses
    | error => exact .inr loses
  exact ⟨fun _ s' _ => left loses s', fun _ s' loses => left loses s'⟩

theorem tracks_untransposed (member : here ∈ live) (s : Setting) (offset : Nat)
    (octave : s.key = "o" → γ.gap = 0) (loses : lost refused) :
    Tracks lost γ live (applyUntransposed refused here s offset)
      (do applySetting here s offset; return 0) := by
  unfold applyUntransposed
  by_cases transposes : s.key = "t"
  · rw [if_pos transposes]
    exact follows_lost loses _
  · rw [if_neg transposes]
    exact (tracks_applySetting member s offset octave fun named => absurd named transposes).bind
      fun _ => tracks_pure 0

theorem renders_untransposed {fixed : Option Int} (loses : lost refused) (depth : Nat) :
    (performUntransposed refused depth).Renders lost fixed (perform depth) := by
  induction depth with
  | zero =>
    intro γ live here _ faithful _ references item _
    exact follows_exhausted faithful references item
  | succ depth ih =>
    intro γ live here same faithful member references item permitted
    have own := (Item.throughout_iff.mp permitted).1
    cases item with
    | setting s =>
      exact tracks_opened faithful member s.offset (tracks_untransposed member s s.offset own loses)
    | emoji offset symbol =>
      exact tracks_opened faithful member offset (tracks_definitions.bind fun s =>
        tracks_untransposed member s offset (fun _ => own.2) loses)
    | _ => exact tracks_with (same ▸ ih) faithful member references permitted fun _ => ⟨nofun, nofun⟩

theorem fill_raise (k : Key) (octaves : Int) (hole : Key) :
    k.fill (raise octaves hole) = raise octaves (k.fill hole) := by
  obtain ⟨offset, tone, marks, semitones⟩ := hole
  cases tone with
  | pitchClass => rfl
  | placeholder => simp only [Key.fill, raise, Int.add_assoc]

theorem faithful_filling {state : Performance} {stack : List Modifier} {k : Key}
    (resolved : state.pitch (Modifier.substitution? stack) k = .ok base) :
    (filling k base state stack).Faithful lost where
  offset := k.offset_fill
  pitch {t t'} doubles apart octaves hole := by
    have transpose := apart.transpose _ rfl
    have same : t = t' := apart.same rfl doubles
    have filled := Performance.pitch_fill resolved transpose (raise octaves hole)
    rw [fill_raise] at filled
    rwa [← same]
  audible := rfl
  spent surplus := absurd rfl surplus

theorem permits_filling {item : Item} (templated : item.Templated) (k : Key) (base : Nat)
    (state : Performance) (stack : List Modifier) : (filling k base state stack).Permits item := by
  cases item with
  | setting => exact fun _ => rfl
  | range offset kind body => cases kind with
    | userRange => exact rfl
    | _ => trivial
  | group | groupRef | emoji => exact templated.elim
  | _ => trivial

/-- The session in which a template is performed for a key of this pitch. -/
def substituting (here : TimelineId) (base : Nat) (s : Session) : Session :=
  { s with modifiers := .substitute base (s.arena.timeline here).state.octave :: s.modifiers }

/-- Nothing transposes while the items are performed: some fault is not seen even if transposing is that
fault. -/
def Untransposed (depth : Nat) (here : TimelineId) (references : Nat) (items : List Item)
    (s : Session) : Prop :=
  ∃ refused, ∀ t,
    (performAll (performUntransposed refused depth) here references items).run s ≠ .error refused t

/-- Where no transposing is seen, the items sound as they do in another version. -/
theorem sounds_untransposed {u : Session} (rendered : Rendered γ [here] s u) (level : γ.gap = 0)
    (faithful : γ.Faithful (· = refused)) {items : List Item}
    (permitted : ∀ item ∈ items, item.Throughout γ.Permits) (unseen : ∀ t,
      (performAll (performUntransposed refused depth) here references items).run s ≠ .error refused t) :
    SoundsAlike here ((performAll (performUntransposed refused depth) here references items).run s)
      ((performAll (perform depth) here references (mapAllKeys γ.key items)).run u) := by
  have renders : (performUntransposed refused depth).Renders (· = refused) γ.fixed (perform depth) :=
    renders_untransposed (by rfl) depth
  have agree := (tracks_all renders faithful
    (List.mem_singleton_self here) references permitted).both _ _ rendered
  generalize (performAll (performUntransposed refused depth) here references items).run s = r
    at agree unseen ⊢
  generalize (performAll (perform depth) here references (mapAllKeys γ.key items)).run u = r' at agree ⊢
  cases r with
  | ok ticks t => cases r' with
    | ok ticks' t' =>
      obtain ⟨rfl, rendered⟩ := agree
      exact rendered.sounds level ticks
    | error => exact agree.elim
  | error fault t =>
    have seen : fault ≠ refused := fun same => unseen t (congrArg (EStateM.Result.error · t) same)
    cases r' with
    | ok => exact absurd agree seen
    | error fault' t' =>
      rcases agree with rfl | lost
      · exact .failed rfl rfl
      · exact absurd lost seen

/-- The same template without other keys. -/
def unchanged (stack : List Modifier) : Version where
  key := id
  gap := 0
  fixed := none
  surplus := 0
  stack := stack
  stack' := stack

theorem faithful_unchanged (stack : List Modifier) : (unchanged stack).Faithful lost where
  offset _ := rfl
  pitch {t t'} doubles apart octaves k := by
    have same : t = t' := apart.same rfl doubles
    rw [same]
    rfl
  audible := rfl
  spent surplus := absurd rfl surplus

/-- For a key that has a pitch, a template that never transposes plays what it would play with the key
written in the place of each placeholder. -/
theorem template_filled {gas : Nat} {score : List Node} (visits : Visits gas score s)
    (inside : here < s.arena.timelines.size) {k : Key} (resolved : (keyPitch here k).run s = .ok base s)
    {template : List Item} (templated : ∀ item ∈ template, item.Throughout Item.Templated)
    (untransposed : Untransposed depth here references template (s.substituting here base)) :
    SoundsAlike here
      ((performAll (perform depth) here references template).run (s.substituting here base))
      ((performAll (perform depth) here references (template.map (Item.mapKeys k.fill))).run s) := by
  obtain ⟨m, live, tended⟩ := visits.tended
  obtain ⟨refused, unseen⟩ := untransposed
  have forest := tended.sound.forest
  let state := (s.arena.timeline here).state
  have pitch : state.pitch (Modifier.substitution? s.modifiers) k = .ok base := by
    rw [keyPitch_run] at resolved
    split at resolved
    · next found =>
      cases resolved
      exact found
    · exact nomatch resolved
  have same {fixed : Option Int} (relied : ∀ n ∈ fixed, state.transpose = n) :
      Arena.Doubled 0 fixed [here] s.arena s.arena :=
    ⟨rfl, fun _ => rfl, List.forall_mem_singleton.mpr ⟨(Int.add_zero _).symm, relied⟩,
      List.forall_mem_singleton.mpr inside⟩
  have plain := sounds_untransposed (s := s.substituting here base) (u := s.substituting here base)
    (γ := unchanged (s.substituting here base).modifiers)
    ⟨rfl, rfl, rfl, rfl, rfl, rfl, rfl, rfl, same nofun, _, forest⟩ rfl (faithful_unchanged _)
    (fun item _ => Version.permits_all rfl rfl item) unseen
  have filled := sounds_untransposed (s := s.substituting here base) (u := s)
    (γ := filling k base state s.modifiers)
    ⟨rfl, rfl, rfl, rfl, rfl, rfl, rfl, rfl, same fun n => Option.some.inj, _, forest⟩ rfl
    (faithful_filling pitch)
    (fun item listed inner path => permits_filling (templated item listed inner path) k base _ _) unseen
  have keys : mapAllKeys (filling k base state s.modifiers).key template =
      template.map (Item.mapKeys k.fill) := mapAllKeys_eq ..
  have keys' : mapAllKeys (unchanged (s.substituting here base).modifiers).key template = template :=
    mapAllKeys_id template
  rw [keys] at filled
  rw [keys'] at plain
  exact plain.trans_of filled

/-- After a rest, a template of a chord with a grace under a trill, a passage with an octave range, and
an invocation of another template that sets the octave, for a key with marks. -/
theorem template_filled_nested :
    ∃ (score : List Node) (s t t' : Session) (template : List Item) (k : Key),
      Visits 40 score s ∧ (s.arena.timeline 0).position = 32 ∧
      (performAll (perform 38) 0 1 template).run (s.substituting 0 73) = .ok 128 t ∧
      (performAll (perform 38) 0 1 (template.map (Item.mapKeys k.fill))).run s = .ok 128 t' ∧
      t.arena.timeline 0 = t'.arena.timeline 0 := by
  let hole (offset : Nat) (octave semitones : Int) : Key := ⟨offset, .placeholder, octave, semitones⟩
  let k : Key := ⟨3, .pitchClass 0, 1, 1⟩
  let chord : Item := .chord ⟨5, false, [hole 6 0 0, hole 7 (-1) 4, ⟨8, .pitchClass 4, 1, 0⟩]⟩
  let raised : Item := .range 12 .octaveUp [.key (hole 13 0 7)]
  let template : List Item := [.ornament 2 .trill [.graced 3 [.key (hole 4 1 0)] chord],
    .parallel 10 [[.key (hole 11 0 0)], [raised]], .range 14 (.userRange "n") [.key (hole 15 0 2)]]
  let other : List Item := [.setting ⟨20, "o", "3"⟩, .key (hole 21 0 0), .rest 22]
  let repeats : Repeats := { performed := #[.item (.rest 0)] }
  let rested : Timeline :=
    { channel := 1, rests := 32, position := 32, last := .rest, repeats := repeats }
  let definitions : Definitions := { templates := [("n", other)] }
  let s : Session :=
    { gas := ⟨38⟩, definitions := definitions, arena := ⟨#[rested]⟩, channels := #[0] }
  have visits : Visits 40 [.define 0 "n" other, .item (.rest 0)] s := by
    have defined : Round (.start 40 [.define 0 "n" other, .item (.rest 0)])
        ⟨none, [⟨.item (.rest 0), false⟩], { gas := ⟨39⟩, definitions := definitions }⟩ :=
      @Round.node none none ⟨.define 0 "n" other, false⟩ _ [] _ _ rfl
    exact .between (.tail (.single defined) (@Round.node none (some 0) ⟨.item (.rest 0), false⟩ _ [] _ _ rfl))
  have simple (item : Item) (keeps : item.Templated) (none : item.inner = []) :
      item.Throughout Item.Templated := Item.throughout_iff.mpr ⟨keeps, none ▸ nofun⟩
  have around (item inner : Item) (keeps : item.Templated) (only : item.inner = [inner])
      (below : inner.Throughout Item.Templated) : item.Throughout Item.Templated :=
    Item.throughout_iff.mpr ⟨keeps, only ▸ List.forall_mem_singleton.mpr below⟩
  have templated : ∀ item ∈ template, item.Throughout Item.Templated := by
    refine List.forall_mem_cons.mpr ⟨?_, List.forall_mem_cons.mpr ⟨?_, List.forall_mem_singleton.mpr ?_⟩⟩
    · exact around _ (.graced 3 [.key (hole 4 1 0)] chord) trivial rfl
        (around _ chord trivial rfl (simple _ trivial rfl))
    · refine Item.throughout_iff.mpr ⟨trivial, List.forall_mem_cons.mpr ⟨simple _ trivial rfl, ?_⟩⟩
      exact List.forall_mem_singleton.mpr
        (around raised (.key (hole 13 0 7)) trivial rfl (simple _ trivial rfl))
    · exact around _ (.key (hole 15 0 2)) trivial rfl (simple _ trivial rfl)
  have resolved : (keyPitch 0 k).run s = .ok 73 s := rfl
  have unseen : (performAll (performUntransposed ⟨.exhausted, 0⟩ 38) 0 1 template).run'
      (s.substituting 0 73) = some 128 := by decide +kernel
  have untransposed : Untransposed 38 0 1 template (s.substituting 0 73) := by
    obtain ⟨t, done⟩ := Step.exists_of_run' unseen
    exact ⟨⟨.exhausted, 0⟩, fun u failed => nomatch done.symm.trans failed⟩
  have performed : (performAll (perform 38) 0 1 template).run' (s.substituting 0 73) = some 128 := by
    decide +kernel
  obtain ⟨t, done⟩ := Step.exists_of_run' performed
  have alike := template_filled visits (Nat.zero_lt_one : 0 < s.arena.timelines.size) resolved templated untransposed
  cases alike with
  | played first second _ _ own =>
    cases done.symm.trans first
    exact ⟨_, s, t, _, template, k, visits, rfl, done, second, own⟩
  | failed first => exact nomatch done.symm.trans first

end Session
end TextScore
