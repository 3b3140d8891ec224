import TextScore.Proofs.Soundness

/-! Properties that all timelines of an arena share. A kind of timelines that small changes keep is
kept by whatever a performance does to an arena: claiming a child, committing a note or an arpeggio,
resting and tying. -/
namespace TextScore

theorem Draft.sum_partition {f : Draft → Nat} {p : Draft → Bool} {drafts left right : List Draft}
    (parted : drafts.partition p = (left, right)) :
    Draft.sum f left + Draft.sum f right = Draft.sum f drafts := by
  rw [List.partition_eq_filter_filter] at parted
  obtain ⟨rfl, rfl⟩ := Prod.ext_iff.mp parted
  clear parted
  induction drafts with
  | nil => rfl
  | cons draft drafts ih =>
    dsimp only at ih ⊢
    simp only [List.filter_cons, Function.comp_apply]
    by_cases chosen : p draft
    · simp only [chosen, Bool.not_true, Bool.false_eq_true, reduceIte, Draft.sum]
      omega
    · simp only [chosen, Bool.not_false, Bool.false_eq_true, reduceIte, Draft.sum]
      omega

/-- A kind of timelines that is passed on to those that a timeline lists, and that stays as drafts of
a kind are played. The kind of a draft may depend on the offset that it is played for. -/
structure Timeline.Kind (D : (offset : Nat) → Draft → Prop) (Q : Timeline → Prop) : Prop where
  list : ∀ {t} id slot, Q t → Q (Slot.push id slot t)
  child : ∀ {t}, Q t → Q { channel := t.channel }
  adopt : ∀ {t child : Timeline}, Q t → Q child →
    Q { child with state := t.state, tuplet := t.tuplet }
  calibrate : ∀ {t} ticks, Q t → Q (t.calibrate ticks).2
  trail : ∀ {t} ticks last, Q t → Q { t.trail ticks with last := last }
  note : ∀ {t draft} offset arpeggio, D offset draft → Q t → Q (t.pushNote offset arpeggio draft)
  lengthen : ∀ {t} index ticks, Q t → Q (t.lengthenNote index ticks)
  shift : ∀ {t : Timeline} ticks, Q t → Q { t with position := t.position + ticks }

namespace Timeline.Kind
variable {D : Nat → Draft → Prop} {Q : Timeline → Prop} {t : Timeline}

theorem pad (kind : Kind D Q) (length : Nat) (holds : Q t) : Q (t.pad length) := by
  unfold Timeline.pad
  split
  · exact holds
  · exact kind.trail length .rest holds

theorem follow (kind : Kind D Q) {child : Timeline} (holds : Q t) (own : Q child) :
    Q (t.follow child) := kind.pad _ (kind.adopt holds own)

theorem rest (kind : Kind D Q) (holds : Q t) : Q t.rest.2 := by
  unfold Timeline.rest restFor
  split
  · exact holds
  · exact kind.pad _ (kind.calibrate _ holds)

theorem notes (kind : Kind D Q) (offset : Nat) {drafts : List Draft}
    (each : ∀ d ∈ drafts, D offset d) (holds : Q t) : Q (t.pushNotes offset drafts) := by
  induction drafts generalizing t with
  | nil => exact holds
  | cons draft drafts ih =>
    have known := List.forall_mem_cons.mp each
    exact ih known.2 (kind.note offset false known.1 holds)

/-- Drafts without length are not played. -/
theorem commit (kind : Kind D Q) (offset : Nat) {staged : Staged}
    (each : ∀ d ∈ (extend (t.calibrate staged.ticks).1 staged).notes, 0 < d.duration → D offset d)
    (holds : Q t) : Q (t.commit offset staged).2 := by
  refine kind.trail _ _ (kind.notes offset (fun d listed => ?_) (kind.calibrate _ holds))
  have kept := List.mem_filter.mp listed
  exact each d kept.1 (of_decide_eq_true kept.2)

theorem lengthenLast (kind : Kind D Q) (ticks : Nat) (holds : Q t) : Q (t.lengthenLast ticks) := by
  unfold Timeline.lengthenLast
  split
  · exact kind.lengthen _ ticks holds
  · exact kind.shift ticks holds

theorem playVoice (kind : Kind D Q) {offset held velocity rest delay pitch : Nat}
    (draft : D offset ⟨[pitch], held - delay, velocity, false⟩) (holds : Q t) :
    Q (Arena.playVoice offset held velocity rest delay pitch t) :=
  kind.trail rest _ (kind.note offset true draft (kind.pad delay holds))

end Timeline.Kind

namespace Arena
variable {D : Nat → Draft → Prop} {Q : Timeline → Prop} {arena arena' : Arena} {id here : TimelineId}

/-- Something that holds of every timeline. -/
def Each (Q : Timeline → Prop) (arena : Arena) : Prop :=
  ∀ id < arena.timelines.size, Q (arena.timeline id)

namespace Each
variable (each : arena.Each Q)
include each

theorem adjust {f : Timeline → Timeline} (keeps : Q (arena.timeline id) → Q (f (arena.timeline id))) :
    (arena.adjust id f).Each Q := by
  intro other inside
  rw [size_adjust] at inside
  rcases Nat.lt_or_ge id arena.timelines.size with present | out
  · rw [timeline_adjust present]
    split
    · exact keeps (each id present)
    · exact each other inside
  · rw [adjust_out out]
    exact each other inside

theorem create {channel : Nat} (new : Q { channel := channel }) :
    (arena.create channel).2.Each Q := by
  intro other inside
  rw [timeline_create]
  split
  · exact new
  · next old =>
    have before : other < arena.timelines.size + 1 := Nat.lt_of_lt_of_eq inside (Array.size_push _)
    exact each other (Nat.lt_of_le_of_ne (Nat.le_of_lt_succ before) old)

theorem addChild (kind : Timeline.Kind D Q) (inside : here < arena.timelines.size) (slot : Slot) :
    (arena.addChild here slot).Each Q := by
  have created := each.create (kind.child (each here inside))
  have same : (arena.create (arena.timeline here).channel).2.timeline here = arena.timeline here := by
    rw [timeline_create, if_neg (Nat.ne_of_lt inside)]
  exact created.adjust fun holds => kind.list _ slot holds

theorem withChild (kind : Timeline.Kind D Q) (inside : here < arena.timelines.size) (slot : Slot) :
    (arena.withChild here slot).Each Q :=
  withChild_rule inside slot each fun inside each => each.addChild kind inside slot

theorem childAt (kind : Timeline.Kind D Q) (inside : here < arena.timelines.size) {offset : Nat}
    {slot : Slot} (done : (Arena.childAt here offset slot).run arena = .ok id arena') :
    arena.timelines.size ≤ arena'.timelines.size ∧ arena'.Each Q := by
  obtain ⟨-, -, rfl⟩ := childAt_ok done
  have grown : arena.timelines.size ≤ (arena.withChild here slot).timelines.size :=
    (size_list_repeat inside slot _).1
  refine ⟨(size_adjust ..).symm ▸ grown, (each.withChild kind inside slot).adjust ?_⟩
  exact kind.follow (each.withChild kind inside slot here (Nat.lt_of_lt_of_le inside grown))

theorem adjustAll {f : Timeline → Timeline} (ids : List TimelineId) (keeps : ∀ {t}, Q t → Q (f t)) :
    (arena.adjustAll ids f).Each Q := by
  induction ids generalizing arena with
  | nil => exact each
  | cons id ids ih => exact ih (each.adjust keeps)

theorem playVoices (kind : Timeline.Kind D Q) {offset held velocity rest interval : Nat}
    {delay : Nat} {pairs : List (TimelineId × Nat)}
    (drafts : ∀ pair ∈ pairs, ∀ later, delay ≤ later →
      later ≤ delay + interval * (pairs.length - 1) →
      D offset ⟨[pair.2], held - later, velocity, false⟩) :
    (Arena.playVoices (Arena.playVoice offset held velocity rest) interval delay pairs arena).Each
      Q := by
  induction pairs generalizing delay arena with
  | nil => exact each
  | cons pair pairs ih =>
    have first := drafts pair List.mem_cons_self delay (Nat.le_refl _) (Nat.le_add_right ..)
    refine ih (each.adjust (kind.playVoice first)) fun other listed later low high => ?_
    refine drafts other (List.mem_cons_of_mem pair listed) later (by omega) ?_
    have some : 0 < pairs.length := List.length_pos_of_mem listed
    obtain ⟨n, same⟩ := Nat.exists_eq_succ_of_ne_zero (Nat.ne_of_gt some)
    simp only [List.length_cons, same, Nat.succ_sub_one, Nat.mul_succ] at high ⊢
    omega

end Each

/-- A tie lengthens what the timeline played last: a note, silence or the latest notes of voices. -/
inductive Ties (here : TimelineId) (arena : Arena) (ticks : Nat) (tuned : Timeline) : Arena → Prop
  | note {index : Nat} (last : tuned.last = .note index) :
    Ties here arena ticks tuned (arena.adjust here fun _ => tuned.lengthenNote index ticks)
  | rest (last : tuned.last = .rest) :
    Ties here arena ticks tuned (arena.adjust here fun _ => tuned.trail ticks)
  | arpeggio {count : Nat} (last : tuned.last = .arpeggio count) :
    Ties here arena ticks tuned ((arena.adjust here fun _ => tuned.trail ticks).adjustAll
      (tuned.voices.toList.take count) (·.lengthenLast ticks))

theorem tie_ok (inside : here < arena.timelines.size) {offset ticks : Nat}
    (done : (tie here offset).run arena = .ok ticks arena') :
    ∃ extra tuned, (arena.timeline here).calibrate (arena.timeline here).state.quantization =
      (extra, tuned) ∧ ticks = (arena.timeline here).state.quantization + extra ∧
      Ties here arena ticks tuned arena' := by
  simp only [Arena.tie, EStateM.run_bind, EStateM.run_get, update_run] at done
  generalize (arena.timeline here).state.quantization = unit at done ⊢
  have tuned : arena.adjust here (fun t => (t.calibrate unit).2) =
      arena.adjust here fun _ => ((arena.timeline here).calibrate unit).2 := adjust_congr rfl
  have combined (f : Timeline → Timeline) (t : Timeline) :
      (arena.adjust here fun _ => t).adjust here f = arena.adjust here fun _ => f t :=
    adjust_adjust ..
  rcases calibrated : (arena.timeline here).calibrate unit with ⟨extra, t⟩
  rw [calibrated] at tuned done
  rw [tuned, timeline_adjust_self here _ arena inside] at done
  refine ⟨extra, t, rfl, ?_⟩
  cases last : t.last with
  | nothing =>
    rw [last] at done
    cases done
  | note index =>
    rw [last] at done
    cases done
    rw [combined]
    exact ⟨rfl, .note last⟩
  | rest =>
    rw [last] at done
    cases done
    rw [combined]
    exact ⟨rfl, .rest last⟩
  | arpeggio count =>
    rw [last] at done
    cases done
    rw [combined]
    exact ⟨rfl, .arpeggio last⟩

/-- Claims the voices of an arpeggio. -/
abbrev claimVoices (here : TimelineId) (offset count : Nat) : Step Arena (List TimelineId) :=
  (List.range count).mapM fun i => childAt here offset (.voice i)

/-- What holds before an arpeggio claims voices and goes on to hold with each one holds with all. -/
theorem claimVoices_rule {motive : Arena → List TimelineId → Prop} {offset count : Nat}
    {claimed : List TimelineId} (start : motive arena [])
    (step : ∀ {middle last : Arena} {before : List TimelineId} {voice : TimelineId} {index : Nat},
      motive middle before → (childAt here offset (.voice index)).run middle = .ok voice last →
      motive last (before ++ [voice]))
    (done : (claimVoices here offset count).run arena = .ok claimed arena') : motive arena' claimed := by
  have each (slots before : List Nat) {arena : Arena} {claimed : List TimelineId}
      (holds : motive arena before)
      (done : (slots.mapM fun i => childAt here offset (.voice i)).run arena = .ok claimed arena') :
      motive arena' (before ++ claimed) := by
    induction slots generalizing arena before claimed with
    | nil =>
      cases done
      exact (List.append_nil before).symm ▸ holds
    | cons slot slots ih =>
      rw [List.mapM_cons] at done
      obtain ⟨voice, middle, one, done⟩ := Step.bind_ok done
      obtain ⟨rest, last, done, ended⟩ := Step.bind_ok done
      cases ended
      exact List.append_cons before voice rest ▸ ih _ (step holds one) done
  exact each _ [] start done

/-- Graces of an arpeggio sound on the timeline itself. Then voices hold the pitches of the chord, if
there still is one, while the timeline is silent. -/
inductive Arpeggiates (here : TimelineId) (offset interval : Nat) (staged : Staged) (arena : Arena)
    (extra : Nat) (tuned : Timeline) : Arena → Prop
  | graces (only : ∀ draft ∈ staged.notes, draft.grace) :
    Arpeggiates here offset interval staged arena extra tuned
      (arena.adjust here fun _ => (tuned.pushNotes offset staged.notes).trail (staged.rest + extra))
  | chord {graces mains : List Draft} {chord : Draft} {held rest : Nat} {voices : List TimelineId}
    {middle : Arena}
    (parted : staged.notes.partition (·.grace) = (graces, chord :: mains))
    (total : Draft.sum Draft.duration (chord :: mains) + staged.rest + extra = held + rest)
    (long : interval * (chord.pitches.length - 1) < held)
    (claimed : (claimVoices here offset chord.pitches.length).run
      (arena.adjust here fun _ => tuned.pushNotes offset graces) = .ok voices middle)
    (lasts : held = Draft.sum Draft.duration (chord :: mains) + if staged.rest = 0 then extra else 0)
    (waits : rest = staged.rest + if staged.rest = 0 then 0 else extra) :
    Arpeggiates here offset interval staged arena extra tuned
      (playVoices (playVoice offset held chord.velocity rest) interval 0 (voices.zip chord.pitches)
        (middle.adjust here fun t =>
          { t.trail (held + rest) with last := .arpeggio chord.pitches.length }))

theorem commitArpeggio_ok {offset interval ticks : Nat} {staged : Staged}
    (done : (commitArpeggio here offset staged interval).run arena = .ok ticks arena') :
    ∃ extra tuned, (arena.timeline here).calibrate staged.ticks = (extra, tuned) ∧
      ticks = staged.ticks + extra ∧
      Arpeggiates here offset interval staged arena extra tuned arena' := by
  obtain ⟨extra, tuned, first, done⟩ := Step.bind_ok done
  rw [update_run] at first
  cases first
  rcases calibrated : (arena.timeline here).calibrate staged.ticks with ⟨extra, t⟩
  refine ⟨extra, t, rfl, ?_⟩
  rcases parted : staged.notes.partition (·.grace) with ⟨graces, mains⟩
  have total := Draft.sum_partition (f := Draft.duration) parted
  rw [parted] at done
  obtain ⟨_, graced, second, done⟩ := Step.bind_ok done
  cases second
  have tuned : (arena.adjust here fun t => (t.calibrate staged.ticks).2).adjust here
      (Timeline.pushNotes offset graces) = arena.adjust here fun _ => t.pushNotes offset graces := by
    rw [adjust_adjust]
    exact adjust_congr (congrArg (Timeline.pushNotes offset graces) (congrArg Prod.snd calibrated))
  rw [calibrated, tuned] at done
  cases mains with
  | nil =>
    have filtered := Prod.ext_iff.mp ((List.partition_eq_filter_filter ..).symm.trans parted)
    have only : ∀ draft ∈ staged.notes, draft.grace := by
      simpa only [List.filter_eq_nil_iff, Function.comp_apply, Bool.not_eq_true', Bool.not_eq_false]
        using filtered.2
    have all : graces = staged.notes := filtered.1.symm.trans (List.filter_eq_self.mpr only)
    cases done
    rw [adjust_adjust, all]
    simp only [Draft.sum] at total
    exact ⟨by simp only [Staged.ticks]; omega, .graces only⟩
  | cons chord mains =>
    obtain ⟨long, done⟩ := Step.unless_ok done
    obtain ⟨voices, middle, claimed, done⟩ := Step.bind_ok done
    have lengths : Draft.sum Draft.duration (chord :: mains) + staged.rest + extra =
        (if 0 < staged.rest then Draft.sum Draft.duration (chord :: mains)
          else Draft.sum Draft.duration (chord :: mains) + extra) +
        if 0 < staged.rest then staged.rest + extra else staged.rest := by
      split <;> omega
    cases done
    refine ⟨?_, .chord parted lengths (Nat.lt_of_not_le long) claimed ?_ ?_⟩
    · simp only [Staged.ticks]
      omega
    · split <;> split <;> omega
    · split <;> split <;> omega

namespace Each
variable (each : arena.Each Q) (kind : Timeline.Kind D Q) (inside : here < arena.timelines.size)
  {offset ticks : Nat}
include each kind inside

theorem tie (done : (Arena.tie here offset).run arena = .ok ticks arena') : arena'.Each Q := by
  obtain ⟨extra, tuned, calibrated, -, ties⟩ := tie_ok inside done
  have holds : Q tuned := (congrArg (Q ·.2) calibrated).mp (kind.calibrate _ (each here inside))
  cases ties with
  | note => exact each.adjust fun _ => kind.lengthen _ ticks holds
  | rest => exact each.adjust fun _ => kind.trail ticks _ holds
  | arpeggio =>
    have silent : (arena.adjust here fun _ => tuned.trail ticks).Each Q :=
      each.adjust fun _ => kind.trail ticks _ holds
    exact silent.adjustAll _ fun holds => kind.lengthenLast ticks holds

theorem claimVoices {count : Nat} {voices : List TimelineId}
    (done : (Arena.claimVoices here offset count).run arena = .ok voices arena') :
    arena'.Each Q := by
  have claimed := claimVoices_rule (motive := fun arena _ => here < arena.timelines.size ∧ arena.Each Q)
    ⟨inside, each⟩ (fun ⟨inside, each⟩ one => ?_) done
  · exact claimed.2
  · obtain ⟨grown, each⟩ := each.childAt kind inside one
    exact ⟨Nat.lt_of_lt_of_le inside grown, each⟩

/-- Graces are played as they are; of the first other draft, each pitch is played alone. -/
theorem commitArpeggio {interval : Nat} {staged : Staged}
    (graces : ∀ draft ∈ staged.notes, draft.grace → D offset draft)
    (alone : ∀ draft ∈ staged.notes, ∀ pitch ∈ draft.pitches, ∀ duration, 1 ≤ duration →
      D offset ⟨[pitch], duration, draft.velocity, false⟩)
    (done : (Arena.commitArpeggio here offset staged interval).run arena = .ok ticks arena') :
    arena'.Each Q := by
  obtain ⟨extra, tuned, calibrated, -, arpeggiates⟩ := commitArpeggio_ok done
  have holds : Q tuned := (congrArg (Q ·.2) calibrated).mp (kind.calibrate _ (each here inside))
  cases arpeggiates with
  | graces only =>
    exact each.adjust fun _ => kind.trail _ _
      (kind.notes offset (fun draft listed => graces draft listed (only draft listed)) holds)
  | @chord before mains chord held rest voices _ parted total long claimed =>
    obtain ⟨first, others⟩ :=
      Prod.ext_iff.mp ((List.partition_eq_filter_filter ..).symm.trans parted)
    dsimp only at first others
    have listed : chord ∈ staged.notes := by
      have member : chord ∈ chord :: mains := List.mem_cons_self
      rw [← others] at member
      exact (List.mem_filter.mp member).1
    have sounded : (arena.adjust here fun _ => tuned.pushNotes offset before).Each Q := by
      refine each.adjust fun _ => kind.notes offset (fun draft member => ?_) holds
      rw [← first] at member
      exact graces draft (List.mem_filter.mp member).1 (List.mem_filter.mp member).2
    have middle := sounded.claimVoices kind ((size_adjust ..).symm ▸ inside) claimed
    have silent : (Arena.adjust here (fun t =>
        { t.trail (held + rest) with last := .arpeggio chord.pitches.length }) _).Each Q :=
      middle.adjust fun holds => kind.trail _ _ holds
    refine silent.playVoices kind fun pair there later low high => ?_
    refine alone chord listed pair.2 (List.of_mem_zip there).2 _ ?_
    have few : interval * ((voices.zip chord.pitches).length - 1) ≤
        interval * (chord.pitches.length - 1) := by
      rw [List.length_zip]
      exact Nat.mul_le_mul_left _ (Nat.sub_le_sub_right (Nat.min_le_right ..) 1)
    omega

end Each

end Arena
end TextScore
