import TextScore.Proofs.Advances
import TextScore.Proofs.Entries

/-! What a key or chord does with the graces that wait for it. Ornaments change neither their pitches nor
their lengths, so they come into the log as they were prepared, one right after the other, before
anything else that the key or chord plays. -/
namespace TextScore

/-- What ornaments do not change: the pitches and the length of a grace. -/
def Draft.trait (d : Draft) : Option (List Nat × Nat) :=
  if d.grace then some (d.pitches, d.duration) else none

theorem Draft.trait_some {d : Draft} {pitches : List Nat} {length : Nat}
    (known : d.trait = some (pitches, length)) :
    d.grace ∧ d.pitches = pitches ∧ d.duration = length := by
  unfold trait at known
  split at known
  · next grace =>
    cases known
    exact ⟨grace, rfl, rfl⟩
  · exact nomatch known

theorem Draft.trait_none {d : Draft} : d.trait = none ↔ ¬ d.grace := by
  unfold trait
  split <;> simp_all

theorem Draft.sum_graces {drafts : List Draft}
    (paced : ∀ d ∈ drafts, d.duration = Modifier.graceLength) :
    Draft.sum Draft.duration drafts = Modifier.graceLength * drafts.length := by
  induction drafts with
  | nil => rfl
  | cons d drafts ih =>
    obtain ⟨first, paced⟩ := List.forall_mem_cons.mp paced
    rw [Draft.sum, ih paced, first, List.length_cons, Nat.mul_succ, Nat.add_comm]

/-- Graces come first, and others follow. -/
structure Prefaced (notes graces mains : List Draft) : Prop where
  all : notes = graces ++ mains
  grace : ∀ d ∈ graces, d.grace
  main : ∀ d ∈ mains, ¬ d.grace

/-- Graces of these pitches come first, each as long as a grace is, and others follow. -/
structure Garnished (pitches : List (List Nat)) (notes graces mains : List Draft) : Prop where
  all : notes = graces ++ mains
  traits : graces.map Draft.trait = pitches.map fun p => some (p, Modifier.graceLength)
  main : ∀ d ∈ mains, ¬ d.grace

section Ornaments
open Modifier
variable {pitches : List (List Nat)} {notes notes' graces mains : List Draft} {staged : Staged}

theorem Prefaced.of_traits (prefaced : Prefaced notes graces mains)
    (same : notes'.map Draft.trait = notes.map Draft.trait) :
    ∃ graces' mains', Prefaced notes' graces' mains' ∧
      graces'.map Draft.trait = graces.map Draft.trait := by
  rw [prefaced.all, List.map_append] at same
  obtain ⟨graces', mains', rfl, ahead, behind⟩ := List.map_eq_append_iff.mp same
  refine ⟨graces', mains', ⟨rfl, fun d listed => ?_, fun d listed => ?_⟩, ahead⟩
  · have member : d.trait ∈ graces.map Draft.trait := ahead ▸ List.mem_map_of_mem listed
    obtain ⟨grace, old, found⟩ := List.mem_map.mp member
    by_contra main
    exact Draft.trait_none.mp (found.trans (Draft.trait_none.mpr main)) (prefaced.grace grace old)
  · have member : d.trait ∈ mains.map Draft.trait := behind ▸ List.mem_map_of_mem listed
    obtain ⟨main, old, found⟩ := List.mem_map.mp member
    rw [← Draft.trait_none, ← found, Draft.trait_none]
    exact prefaced.main main old

theorem traits_clip {cut : Nat} {clipped : List Draft} (done : clip notes = some (clipped, cut)) :
    clipped.map Draft.trait = notes.map Draft.trait := by
  induction notes generalizing clipped with
  | nil => cases done
  | cons draft rest ih =>
    rw [clip] at done
    split at done
    · next below =>
      cases done
      exact congrArg (draft.trait :: ·) (ih below)
    · split at done
      · cases done
      · next sounding =>
        cases done
        have cut : Draft.trait { draft with
            duration := draft.duration - (draft.duration - staccatoLength) } = none :=
          Draft.trait_none.mpr sounding
        have main : draft.trait = none := Draft.trait_none.mpr sounding
        exact congrArg (· :: rest.map Draft.trait) (cut.trans main.symm)

theorem traits_shade (velocity : Nat → Nat) (start : Nat) (notes : List Draft) :
    (List.zipWith (fun d tick => { d with velocity := velocity tick }) notes
      (Draft.onsets start notes)).map Draft.trait = notes.map Draft.trait := by
  induction notes generalizing start with
  | nil => rfl
  | cons draft rest ih => exact congrArg (draft.trait :: ·) (ih _)

theorem strokes_grace {d : Draft} (grace : d.grace) : strokes d = [d] := if_pos grace

theorem not_grace_stroke {d stroke : Draft} (main : ¬ d.grace) (listed : stroke ∈ strokes d) :
    ¬ stroke.grace := by
  rw [strokes, if_neg main] at listed
  obtain ⟨index, -, rfl⟩ := List.mem_map.mp listed
  exact main

theorem Prefaced.apply (prefaced : Prefaced staged.notes graces mains) (onset : Nat)
    (modifier : Modifier) :
    ∃ graces' mains', Prefaced (Modifier.apply onset staged modifier).notes graces' mains' ∧
      graces'.map Draft.trait = graces.map Draft.trait := by
  have mapped {f : Draft → Draft} (same : ∀ d, (f d).trait = d.trait) :
      (staged.notes.map f).map Draft.trait = staged.notes.map Draft.trait := by
    rw [List.map_map]
    exact List.map_congr_left fun d _ => same d
  cases modifier with
  | fermata factor =>
    refine prefaced.of_traits (mapped fun d => ?_)
    split
    · rfl
    · next main =>
      have stretched : Draft.trait { d with duration := stretch factor d.duration } = none :=
        Draft.trait_none.mpr main
      exact stretched.trans (Draft.trait_none.mpr main).symm
  | staccato =>
    dsimp only [Modifier.apply]
    cases clipped : clip staged.notes with
    | none => exact ⟨graces, mains, prefaced, rfl⟩
    | some pair => exact prefaced.of_traits (traits_clip clipped)
  | sforzando => exact prefaced.of_traits (mapped fun _ => rfl)
  | trill =>
    refine ⟨graces, mains.flatMap strokes, ⟨?_, prefaced.grace, fun d listed => ?_⟩, rfl⟩
    · have kept : graces.flatMap strokes = graces := by
        rw [List.flatMap_congr fun d listed => strokes_grace (prefaced.grace d listed)]
        exact List.flatMap_singleton' graces
      exact (congrArg (List.flatMap strokes) prefaced.all).trans (by rw [List.flatMap_append, kept])
    · obtain ⟨main, old, listed⟩ := List.mem_flatMap.mp listed
      exact not_grace_stroke (prefaced.main main old) listed
  | dynamics ramp => exact prefaced.of_traits (traits_shade ramp.velocity onset staged.notes)
  | substitute => exact ⟨graces, mains, prefaced, rfl⟩

theorem Prefaced.applyAll (prefaced : Prefaced staged.notes graces mains) (stack : List Modifier)
    (onset : Nat) :
    ∃ graces' mains', Prefaced (Modifier.applyAll stack onset staged).notes graces' mains' ∧
      graces'.map Draft.trait = graces.map Draft.trait := by
  induction stack generalizing staged graces mains with
  | nil => exact ⟨graces, mains, prefaced, rfl⟩
  | cons modifier stack ih =>
    obtain ⟨graces, mains, prefaced, first⟩ := prefaced.apply onset modifier
    obtain ⟨graces', mains', prefaced, others⟩ := ih prefaced
    exact ⟨graces', mains', prefaced, others.trans first⟩

theorem Garnished.of_grace (garnished : Garnished pitches notes graces mains) {d : Draft}
    (listed : d ∈ graces) : d.grace ∧ d.pitches ∈ pitches ∧ d.duration = graceLength := by
  have member : d.trait ∈ pitches.map fun p => some (p, graceLength) :=
    garnished.traits ▸ List.mem_map_of_mem listed
  obtain ⟨p, known, same⟩ := List.mem_map.mp member
  obtain ⟨grace, rfl, length⟩ := Draft.trait_some same.symm
  exact ⟨grace, known, length⟩

theorem Garnished.applyAll (garnished : Garnished pitches staged.notes graces mains)
    (stack : List Modifier) (onset : Nat) :
    ∃ graces mains, Garnished pitches (Modifier.applyAll stack onset staged).notes graces mains := by
  have prefaced : Prefaced staged.notes graces mains :=
    ⟨garnished.all, fun _ listed => (garnished.of_grace listed).1, garnished.main⟩
  obtain ⟨graces', mains', prefaced, same⟩ := prefaced.applyAll stack onset
  exact ⟨graces', mains', prefaced.all, same.trans garnished.traits, prefaced.main⟩

/-- The graces and the others that are logged of what was staged. Where nothing follows the last grace
takes what a tuplet owes. -/
structure Trimmed (pitches : List (List Nat)) (owed : Prop) (graces mains : List Draft) : Prop where
  pitched : graces.map Draft.pitches = pitches
  grace : ∀ d ∈ graces, d.grace
  main : ∀ d ∈ mains, ¬ d.grace
  lasting : (∀ d ∈ graces, d.duration = graceLength) ∨
    (mains = [] ∧ owed ∧ ∀ d ∈ graces.dropLast, d.duration = graceLength)

theorem Garnished.pitched (garnished : Garnished pitches notes graces mains) :
    graces.map Draft.pitches = pitches := by
  refine List.map_injective_iff.mpr (fun _ _ => Option.some.inj) ?_
  have told : (graces.map Draft.trait).map (Option.map Prod.fst) = pitches.map some := by
    rw [garnished.traits, List.map_map]
    rfl
  rw [← told, List.map_map, List.map_map]
  refine List.map_congr_left fun d listed => ?_
  rw [Function.comp_apply, Function.comp_apply, Draft.trait, if_pos (garnished.of_grace listed).1]
  rfl

theorem Garnished.filter_grace (garnished : Garnished pitches notes graces mains)
    {graces' mains' : List Draft}
    (parted : (notes.filter (·.grace), notes.filter (not ∘ (·.grace))) = (graces', mains')) :
    graces' = graces := by
  have kept : graces.filter (·.grace) = graces :=
    List.filter_eq_self.mpr fun d listed => (garnished.of_grace listed).1
  have none : mains.filter (·.grace) = [] :=
    List.filter_eq_nil_iff.mpr garnished.main
  have parted := congrArg Prod.fst parted
  rw [garnished.all, List.filter_append, kept, none, List.append_nil] at parted
  exact parted.symm

theorem Garnished.trimmed (garnished : Garnished pitches notes graces mains) (owed : Prop) :
    Trimmed pitches owed graces mains :=
  ⟨garnished.pitched, fun _ listed => (garnished.of_grace listed).1, garnished.main,
    .inl fun _ listed => (garnished.of_grace listed).2.2⟩

/-- Drafts without a length are left out, but graces have one. -/
theorem Garnished.sounding (garnished : Garnished pitches notes graces mains) (owed : Prop) :
    ∃ mains', notes.filter (0 < ·.duration) = graces ++ mains' ∧
      Trimmed pitches owed graces mains' := by
  have kept : graces.filter (0 < ·.duration) = graces := List.filter_eq_self.mpr fun d listed => by
    rw [(garnished.of_grace listed).2.2]
    rfl
  have trimmed := garnished.trimmed owed
  exact ⟨mains.filter (0 < ·.duration), by rw [garnished.all, List.filter_append, kept],
    { trimmed with
      main := fun d listed => trimmed.main d (List.mem_filter.mp listed).1
      lasting := .inl fun d listed => (garnished.of_grace listed).2.2 }⟩

/-- What a tuplet owes goes to a main note if there is one. -/
theorem Garnished.lengthen (garnished : Garnished pitches notes graces mains) {draft : Draft}
    (last : notes.getLast? = some draft) (extra : Nat) {owed : Prop} (owes : owed) :
    ∃ graces mains, (notes.dropLast ++ [{ draft with duration := draft.duration + extra }]).filter
      (0 < ·.duration) = graces ++ mains ∧ Trimmed pitches owed graces mains := by
  rw [garnished.all] at last
  rcases List.eq_nil_or_concat' mains with rfl | ⟨others, main, rfl⟩
  · rw [List.append_nil] at last
    have split := List.dropLast_append_getLast? _ last
    have listed := List.mem_of_getLast? last
    have pitched := garnished.pitched
    refine ⟨graces.dropLast ++ [{ draft with duration := draft.duration + extra }], [], ?_, ?_, ?_,
      nofun, .inr ⟨rfl, owes, fun d listed => ?_⟩⟩
    · rw [garnished.all, List.append_nil, List.append_nil]
      refine List.filter_eq_self.mpr (List.forall_mem_append.mpr ⟨fun d listed => ?_, ?_⟩)
      · rw [(garnished.of_grace (List.dropLast_subset _ listed)).2.2]
        rfl
      · refine List.forall_mem_singleton.mpr (decide_eq_true (Nat.add_pos_left ?_ extra))
        rw [(garnished.of_grace listed).2.2]
        decide
    · rw [← pitched]
      nth_rewrite 2 [← split]
      rw [List.map_append, List.map_append]
      rfl
    · exact List.forall_mem_append.mpr
        ⟨fun d listed => (garnished.of_grace (List.dropLast_subset _ listed)).1,
          List.forall_mem_singleton.mpr (garnished.of_grace listed).1⟩
    · rw [List.dropLast_concat] at listed
      exact (garnished.of_grace (List.dropLast_subset _ listed)).2.2
  · rw [← List.append_assoc, List.getLast?_concat] at last
    cases last
    let longer : Draft := { draft with duration := draft.duration + extra }
    have garnished : Garnished pitches (notes.dropLast ++ [longer]) graces (others ++ [longer]) := by
      refine ⟨?_, garnished.traits, List.forall_mem_append.mpr ⟨fun d listed => ?_, ?_⟩⟩
      · rw [garnished.all, ← List.append_assoc, List.dropLast_concat, List.append_assoc]
      · exact garnished.main d (List.mem_append_left _ listed)
      · exact List.forall_mem_singleton.mpr
          (garnished.main draft (List.mem_append_right _ (List.mem_singleton_self draft)))
    exact ⟨graces, garnished.sounding owed⟩

theorem Garnished.room (garnished : Garnished pitches staged.notes graces mains) :
    graceLength * pitches.length ≤ staged.ticks := by
  have paced : ∀ d ∈ graces, d.duration = graceLength := fun _ listed =>
    (garnished.of_grace listed).2.2
  rw [Staged.ticks, garnished.all, Draft.sum_append, Draft.sum_graces paced, ← garnished.pitched,
    List.length_map]
  omega

/-- What is logged of what was staged, with what a tuplet owes. -/
theorem Garnished.extend (garnished : Garnished pitches staged.notes graces mains) (extra : Nat) :
    ∃ graces mains, (Timeline.extend extra staged).notes.filter (0 < ·.duration) = graces ++ mains ∧
      Trimmed pitches (extra ≠ 0) graces mains := by
  unfold Timeline.extend
  split
  · exact ⟨graces, garnished.sounding _⟩
  · next owes =>
    split
    · next last => exact garnished.lengthen last extra owes
    · exact ⟨graces, garnished.sounding _⟩

end Ornaments

/-- The notes that are logged for drafts that sound one after the other. -/
def Draft.log (offset : Nat) : (rests start : Nat) → List Draft → List Note
  | _, _, [] => []
  | rests, start, d :: more =>
    ⟨offset, d.pitches, rests, start, d.duration, d.velocity, d.grace, false⟩ ::
      log offset 0 (start + d.duration) more

section Logs
open Modifier
variable {offset rests start : Nat} {drafts : List Draft} {pitches : List (List Nat)}

theorem Draft.log_append (offset rests start : Nat) (first second : List Draft) :
    ∃ rests', Draft.log offset rests start (first ++ second) =
      Draft.log offset rests start first ++
        Draft.log offset rests' (start + Draft.sum Draft.duration first) second := by
  induction first generalizing rests start with
  | nil => exact ⟨rests, rfl⟩
  | cons d first ih =>
    obtain ⟨rests', same⟩ := ih 0 (start + d.duration)
    refine ⟨rests', ?_⟩
    rw [List.cons_append, log, same, log, Draft.sum, Nat.add_assoc]
    rfl

theorem Timeline.answered_commit (offset : Nat) (staged : Staged) (t : Timeline) :
    (t.commit offset staged).1 = staged.ticks + (t.calibrate staged.ticks).1 := by
  have position := position_answered offset staged t
  rw [position_commit] at position
  omega

theorem Timeline.notes_pushNotes (offset : Nat) (drafts : List Draft) (t : Timeline) :
    (t.pushNotes offset drafts).notes = t.notes ++ Draft.log offset t.rests t.position drafts := by
  induction drafts generalizing t with
  | nil => exact (List.append_nil _).symm
  | cons d drafts ih =>
    have first : (t.pushNote offset false d).notes = t.notes ++
        [⟨offset, d.pitches, t.rests, t.position, d.duration, d.velocity, d.grace, false⟩] :=
      notes_push _
    exact (ih _).trans (by rw [first, List.append_assoc]; rfl)

theorem Draft.mem_log {n : Note} (listed : n ∈ Draft.log offset rests start drafts) :
    start ≤ n.start ∧ ∃ d ∈ drafts, n.grace = d.grace ∧ n.duration = d.duration := by
  induction drafts generalizing rests start with
  | nil => exact nomatch listed
  | cons d drafts ih =>
    rcases List.mem_cons.mp listed with rfl | listed
    · exact ⟨Nat.le_refl _, d, List.mem_cons_self, rfl, rfl⟩
    · obtain ⟨later, e, found, same⟩ := ih listed
      exact ⟨Nat.le_trans (Nat.le_add_right ..) later, e, List.mem_cons_of_mem d found, same⟩

theorem Draft.pitches_log (offset rests start : Nat) (drafts : List Draft) :
    (Draft.log offset rests start drafts).map Note.pitches = drafts.map Draft.pitches := by
  induction drafts generalizing rests start with
  | nil => rfl
  | cons d drafts ih => exact congrArg (d.pitches :: ·) (ih ..)

theorem Draft.starts_log (paced : ∀ d ∈ drafts.dropLast, d.duration = graceLength) {i : Nat} {n : Note}
    (found : (Draft.log offset rests start drafts)[i]? = some n) : n.start = start + graceLength * i := by
  induction drafts generalizing rests start i with
  | nil => exact nomatch found
  | cons d drafts ih => cases i with
    | zero =>
      cases found
      rfl
    | succ i =>
      have found : (log offset 0 (start + d.duration) drafts)[i]? = some n := found
      cases drafts with
      | nil => exact nomatch found
      | cons e drafts =>
        have first := paced d List.mem_cons_self
        rw [ih (fun d listed => paced d (List.mem_cons_of_mem _ listed)) found, first, Nat.mul_succ]
        omega

/-- Notes of graces with these pitches, each as long after the one before as a grace is. -/
structure Ornate (start : Nat) (pitches : List (List Nat)) (notes : List Note) : Prop where
  pitched : notes.map Note.pitches = pitches
  grace : ∀ n ∈ notes, n.grace
  start : ∀ i n, notes[i]? = some n → n.start = start + graceLength * i

theorem Draft.ornate_log (pitched : drafts.map Draft.pitches = pitches) (grace : ∀ d ∈ drafts, d.grace)
    (paced : ∀ d ∈ drafts.dropLast, d.duration = graceLength) :
    Ornate start pitches (Draft.log offset rests start drafts) where
  pitched := (Draft.pitches_log ..).trans pitched
  grace n listed := by
    obtain ⟨-, d, found, same, -⟩ := Draft.mem_log listed
    exact same ▸ grace d found
  start _ _ found := Draft.starts_log paced found

theorem Draft.lasting_log (lasting : ∀ d ∈ drafts, d.duration = graceLength) :
    ∀ n ∈ Draft.log offset rests start drafts, n.duration = graceLength := fun n listed => by
  obtain ⟨-, d, found, -, same⟩ := Draft.mem_log listed
  exact same.trans (lasting d found)

/-- Notes that follow graces: they are none, and the first one starts when the graces are over. -/
structure Decorated (floor : Nat) (notes : List Note) : Prop where
  later : ∀ n ∈ notes, ¬ n.grace ∧ floor ≤ n.start
  next : notes = [] ∨ ∃ n ∈ notes, n.start = floor

/-- The log begins with the graces, and what they decorate comes next. -/
theorem Trimmed.log {owed : Prop} {graces mains : List Draft}
    (trimmed : Trimmed pitches owed graces mains) (offset rests start : Nat) :
    ∃ ahead behind, Draft.log offset rests start (graces ++ mains) = ahead ++ behind ∧
      Ornate start pitches ahead ∧ Decorated (start + graceLength * pitches.length) behind ∧
      ((∀ n ∈ ahead, n.duration = graceLength) ∨ behind = [] ∧ owed) := by
  obtain ⟨rests', split⟩ := Draft.log_append offset rests start graces mains
  have paced : ∀ d ∈ graces.dropLast, d.duration = graceLength := fun d listed =>
    trimmed.lasting.elim (fun each => each d (List.dropLast_subset _ listed)) fun last => last.2.2 d listed
  refine ⟨_, _, split, Draft.ornate_log trimmed.pitched trimmed.grace paced, ?_, ?_⟩
  · cases mains with
    | nil => exact ⟨nofun, .inl rfl⟩
    | cons main mains =>
      have each : ∀ d ∈ graces, d.duration = graceLength :=
        trimmed.lasting.resolve_right fun last => nomatch And.left last
      have total : Draft.sum Draft.duration graces = graceLength * pitches.length := by
        rw [Draft.sum_graces each, ← trimmed.pitched, List.length_map]
      rw [total]
      refine ⟨fun n listed => ?_, .inr ⟨_, List.mem_cons_self, rfl⟩⟩
      obtain ⟨later, d, found, same, -⟩ := Draft.mem_log listed
      exact ⟨same ▸ trimmed.main d found, later⟩
  · rcases trimmed.lasting with each | ⟨rfl, owes, -⟩
    · exact .inl (Draft.lasting_log each)
    · exact .inr ⟨rfl, owes⟩

end Logs

namespace Arena
open Modifier
variable {roots : List TimelineId} {arena arena' : Arena} {here id : TimelineId} {floor ticks : Nat}
  {pitches : List (List Nat)}

/-- A voice that is claimed catches up with its timeline. No other cursor moves. -/
theorem position_claimVoice (inside : here < arena.timelines.size) {offset index : Nat}
    (present : id < arena'.timelines.size)
    (done : (childAt here offset (.voice index)).run arena = .ok id arena') (other : TimelineId) :
    (arena'.timeline other).position =
      if other = id then (arena.timeline here).position else (arena.timeline other).position := by
  obtain ⟨-, behind, rfl⟩ := childAt_ok done
  rw [timeline_adjust ((size_adjust ..).symm ▸ present)]
  split
  · rw [(Level.position_follow behind).1, Level.position_withChild inside]
  · exact Level.position_withChild inside ..

/-- Voices catch up with their timeline as they are claimed, and it waits for them. -/
theorem claimed_ready (forest : Forest roots arena) (inside : here < arena.timelines.size)
    {offset count : Nat} {claimed : List TimelineId}
    (done : (claimVoices here offset count).run arena = .ok claimed arena') :
    arena.Silent arena' ∧ ∀ voice ∈ claimed, here < voice ∧ voice < arena'.timelines.size ∧
      (arena'.timeline voice).position = (arena.timeline here).position := by
  obtain ⟨-, grown, owned⟩ := Frame.claimVoices forest inside done
  have ready := claimVoices_rule (motive := fun arena' claimed => Frame here 0 arena arena' ∧
    Forest roots arena' ∧ arena.Silent arena' ∧
      ∀ voice ∈ claimed, (arena'.timeline voice).position = (arena.timeline here).position)
    ⟨.refl here _, forest, fun _ => rfl, nofun⟩ (fun ⟨frame, forest, silent, caught⟩ one => ?_) done
  · refine ⟨ready.2.2.1, fun voice listed => ?_⟩
    have voices := owned voice listed
    exact ⟨grown.younger here voice (.inr voices),
      grown.lt_size (List.mem_append_right _ (voice_listed voices)), ready.2.2.2 voice listed⟩
  · have inside := Nat.lt_of_lt_of_le inside frame.size
    obtain ⟨more, grown, owned⟩ := Frame.claimVoice forest inside one
    have present := grown.lt_size (List.mem_append_right _ (voice_listed owned))
    have moved := position_claimVoice inside present one
    have cursor := frame.cursor
    rw [Nat.add_zero] at cursor
    refine ⟨frame.trans more, grown, silent.trans (silent_childAt inside one),
      List.forall_mem_append.mpr ⟨fun voice listed => ?_, List.forall_mem_singleton.mpr ?_⟩⟩
    · rw [moved, cursor, caught voice listed, ite_self]
    · rw [moved, if_pos rfl, cursor]

/-- What is logged when a key or chord is played on a timeline with graces of these pitches before it.
The graces come first. Where no other note follows, the last of them may be longer in a tuplet. -/
structure Graced (here : TimelineId) (pitches : List (List Nat)) (graces : List Note)
    (mains : TimelineId → List Note) (arena arena' : Arena) : Prop where
  logged : ∀ id, (arena'.timeline id).notes =
    (arena.timeline id).notes ++ ((if id = here then graces else []) ++ mains id)
  ornate : Ornate (arena.timeline here).position pitches graces
  later : ∀ id, ∀ n ∈ mains id,
    ¬ n.grace ∧ (arena.timeline here).position + graceLength * pitches.length ≤ n.start
  next : (∀ id, mains id = []) ∨ ∃ id, ∃ n ∈ mains id,
    n.start = (arena.timeline here).position + graceLength * pitches.length
  lasting : (∀ n ∈ graces, n.duration = graceLength) ∨
    (∀ id, mains id = []) ∧ (arena.timeline here).inTuplet

/-- Everything is logged on the timeline itself. -/
theorem Graced.own {f : Timeline → Timeline} (inside : here < arena.timelines.size)
    {ahead behind : List Note}
    (logged : (f (arena.timeline here)).notes = (arena.timeline here).notes ++ (ahead ++ behind))
    (ornate : Ornate (arena.timeline here).position pitches ahead)
    (decorated : Decorated ((arena.timeline here).position + graceLength * pitches.length) behind)
    (lasting : (∀ n ∈ ahead, n.duration = graceLength) ∨
      behind = [] ∧ (arena.timeline here).inTuplet) :
    Graced here pitches ahead (fun id => if id = here then behind else []) arena
      (arena.adjust here f) where
  logged id := by
    rw [timeline_adjust inside]
    split
    · next same => exact same ▸ logged
    · exact (List.append_nil _).symm
  ornate := ornate
  later id n listed := by
    split at listed
    · exact decorated.later n listed
    · exact nomatch listed
  next := by
    refine decorated.next.imp (fun none id => ?_) fun ⟨n, listed, start⟩ => ⟨here, n, ?_, start⟩
    · rw [none, ite_self]
    · rwa [if_pos rfl]
  lasting := lasting.imp id fun last => ⟨fun id => by rw [last.1, ite_self], last.2⟩

theorem inTuplet_of_owed {t : Timeline} {due : Nat} (owed : (t.calibrate due).1 ≠ 0) : t.inTuplet := by
  unfold Timeline.calibrate at owed
  split at owed
  · exact absurd rfl owed
  · next tuplet known => exact (congrArg Option.isSome known).trans rfl

theorem graced_commit (inside : here < arena.timelines.size) {staged : Staged}
    {graces mains : List Draft} (garnished : Garnished pitches staged.notes graces mains)
    (offset : Nat) :
    ∃ graces mains, Graced here pitches graces mains arena
      (arena.adjust here fun t => (t.commit offset staged).2) := by
  obtain ⟨graces, mains, split, trimmed⟩ :=
    garnished.extend ((arena.timeline here).calibrate staged.ticks).1
  have still := Timeline.calibrate_still staged.ticks (arena.timeline here)
  obtain ⟨ahead, behind, log, ornate, decorated, lasting⟩ :=
    trimmed.log offset (arena.timeline here).rests (arena.timeline here).position
  refine ⟨ahead, _, .own inside ?_ ornate decorated (lasting.imp id fun last =>
    ⟨last.1, inTuplet_of_owed last.2⟩)⟩
  have pushed := Timeline.notes_pushNotes offset (graces ++ mains)
    ((arena.timeline here).calibrate staged.ticks).2
  rw [still.notes, still.rests, still.position, log, ← split] at pushed
  exact pushed

theorem notes_playVoice (offset held velocity rest delay pitch : Nat) (t : Timeline) :
    ∃ n, (playVoice offset held velocity rest delay pitch t).notes = t.notes ++ [n] ∧ ¬ n.grace ∧
      n.start = t.position + delay := by
  refine ⟨⟨offset, [pitch], (t.pad delay).rests, (t.pad delay).position, held - delay, velocity, false,
    true⟩, ?_, Bool.false_ne_true, Timeline.position_pad delay t⟩
  exact (Timeline.notes_push (t := t.pad delay) _).trans (by rw [Timeline.notes_pad]; rfl)

/-- What is played on top of an arena from a tick on, no graces. -/
structure Voiced (floor : Nat) (mains : TimelineId → List Note) (arena arena' : Arena) : Prop where
  logged : ∀ id, (arena'.timeline id).notes = (arena.timeline id).notes ++ mains id
  later : ∀ id, ∀ n ∈ mains id, ¬ n.grace ∧ floor ≤ n.start

theorem Voiced.trans {arena'' : Arena} {mains mains' : TimelineId → List Note}
    (first : Voiced floor mains arena arena') (second : Voiced floor mains' arena' arena'') :
    Voiced floor (fun id => mains id ++ mains' id) arena arena'' where
  logged id := by rw [second.logged, first.logged, List.append_assoc]
  later id := List.forall_mem_append.mpr ⟨first.later id, second.later id⟩

theorem voiced_adjust {voice : TimelineId} (inside : voice < arena.timelines.size)
    (offset held velocity rest delay pitch : Nat)
    (ready : floor ≤ (arena.timeline voice).position) :
    ∃ n, n.start = (arena.timeline voice).position + delay ∧
      Voiced floor (fun id => if id = voice then [n] else []) arena
        (arena.adjust voice (playVoice offset held velocity rest delay pitch)) := by
  obtain ⟨n, logged, main, start⟩ :=
    notes_playVoice offset held velocity rest delay pitch (arena.timeline voice)
  refine ⟨n, start, fun id => ?_, fun id n' listed => ?_⟩
  · rw [timeline_adjust inside]
    split
    · next same => exact same ▸ logged
    · exact (List.append_nil _).symm
  · split at listed
    · cases List.mem_singleton.mp listed
      exact ⟨main, start ▸ Nat.le_trans ready (Nat.le_add_right ..)⟩
    · exact nomatch listed

/-- The voices of an arpeggio sound one after the other, the first one at once. -/
theorem voiced_voices {offset held velocity rest interval : Nat} (delay : Nat)
    {pairs : List (TimelineId × Nat)}
    (ready : ∀ pair ∈ pairs, pair.1 < arena.timelines.size ∧ floor ≤ (arena.timeline pair.1).position) :
    ∃ mains, Voiced floor mains arena
        (playVoices (playVoice offset held velocity rest) interval delay pairs arena) ∧
      ((∀ id, mains id = []) ∨ ∃ pair ∈ pairs, ∃ n ∈ mains pair.1,
        n.start = (arena.timeline pair.1).position + delay) := by
  induction pairs generalizing arena delay with
  | nil => exact ⟨fun _ => [], ⟨fun _ => (List.append_nil _).symm, nofun⟩, .inl fun _ => rfl⟩
  | cons pair pairs ih =>
    obtain ⟨⟨inside, first⟩, others⟩ := List.forall_mem_cons.mp ready
    obtain ⟨n, start, voiced⟩ := voiced_adjust inside offset held velocity rest delay pair.2 first
    have ready : ∀ other ∈ pairs,
        other.1 < (arena.adjust pair.1 (playVoice offset held velocity rest delay pair.2)).timelines.size ∧
        floor ≤ ((arena.adjust pair.1 (playVoice offset held velocity rest delay pair.2)).timeline
          other.1).position := fun other listed => by
      obtain ⟨present, low⟩ := others other listed
      refine ⟨(size_adjust ..).symm ▸ present, Nat.le_trans low ?_⟩
      rw [timeline_adjust inside]
      split
      · next same => exact same ▸ (Timeline.Onward.playVoice ..).position
      · exact Nat.le_refl _
    obtain ⟨mains, more, -⟩ := ih (delay + interval) ready
    refine ⟨_, voiced.trans more, .inr ⟨pair, List.mem_cons_self, n, ?_, start⟩⟩
    rw [if_pos rfl]
    exact List.mem_cons_self

theorem graced_arpeggio (forest : Forest roots arena) (inside : here < arena.timelines.size)
    {staged : Staged} {graces mains : List Draft}
    (garnished : Garnished pitches staged.notes graces mains) {offset interval : Nat}
    (done : (commitArpeggio here offset staged interval).run arena = .ok ticks arena') :
    ∃ graces mains, Graced here pitches graces mains arena arena' := by
  obtain ⟨extra, tuned, calibrated, -, arpeggiates⟩ := commitArpeggio_ok done
  have still := Timeline.calibrate_still staged.ticks (arena.timeline here)
  have onward := Timeline.Onward.calibrate staged.ticks (arena.timeline here)
  rw [calibrated] at still onward
  dsimp only at still onward
  have pushed (drafts : List Draft) := Timeline.notes_pushNotes offset drafts tuned
  rw [still.notes, still.rests, still.position] at pushed
  cases arpeggiates with
  | graces only =>
    obtain ⟨ahead, behind, log, ornate, decorated, lasting⟩ := (garnished.trimmed False).log offset
      (arena.timeline here).rests (arena.timeline here).position
    have logged := pushed staged.notes
    rw [garnished.all, log] at logged
    exact ⟨ahead, _, .own inside (garnished.all ▸ logged) ornate decorated
      (lasting.imp id fun last => last.2.elim)⟩
  | @chord graces' mains' chord held rest voices middle parted total long claimed =>
    obtain rfl := garnished.filter_grace ((List.partition_eq_filter_filter ..).symm.trans parted)
    have family := onward.trans (.pushNotes offset graces' tuned)
    have graced := forest.onward (f := fun _ => tuned.pushNotes offset graces') family
    have inside' : here < (arena.adjust here fun _ => tuned.pushNotes offset graces').timelines.size :=
      (size_adjust ..).symm ▸ inside
    obtain ⟨silent, caught⟩ := claimed_ready graced inside' claimed
    have floor : ((arena.adjust here fun _ => tuned.pushNotes offset graces').timeline here).position =
        (arena.timeline here).position + graceLength * pitches.length := by
      rw [timeline_adjust_self _ _ _ inside, Level.position_pushNotes, still.position,
        Draft.sum_graces fun d listed => (garnished.of_grace listed).2.2, ← garnished.pitched,
        List.length_map]
    let trail (t : Timeline) : Timeline :=
      { t.trail (held + rest) with last := .arpeggio chord.pitches.length }
    have ready : ∀ pair ∈ voices.zip chord.pitches, pair.1 < (middle.adjust here trail).timelines.size ∧
        ((middle.adjust here trail).timeline pair.1).position =
          (arena.timeline here).position + graceLength * pitches.length := fun pair listed => by
      obtain ⟨younger, present, caught⟩ := caught pair.1 (List.of_mem_zip listed).1
      refine ⟨(size_adjust ..).symm ▸ present, ?_⟩
      rw [timeline_adjust_ne _ _ (Nat.ne_of_lt younger), caught, floor]
    obtain ⟨mains, voiced, next⟩ := voiced_voices 0 fun pair listed =>
      (ready pair listed).imp id (Nat.le_of_eq ∘ Eq.symm)
    refine ⟨Draft.log offset (arena.timeline here).rests (arena.timeline here).position graces', mains,
      fun id => ?_, ?_, voiced.later, ?_, .inl ?_⟩
    · have waits : middle.Silent (middle.adjust here trail) := silent_adjust here rfl
      rw [voiced.logged, waits, silent, timeline_adjust inside, ← List.append_assoc]
      split
      · next same =>
        rw [same]
        exact congrArg (· ++ mains here) (pushed graces')
      · rw [List.append_nil]
    · exact Draft.ornate_log garnished.pitched (fun d listed => (garnished.of_grace listed).1)
        fun d listed => (garnished.of_grace (List.dropLast_subset _ listed)).2.2
    · refine next.imp id fun ⟨pair, listed, n, sounds, start⟩ => ⟨pair.1, n, sounds, ?_⟩
      rw [start, (ready pair listed).2, Nat.add_zero]
    · exact Draft.lasting_log fun d listed => (garnished.of_grace listed).2.2

end Arena

namespace Session
open Modifier
variable {here : TimelineId} {s t : Session} {ticks : Nat} {roots : List TimelineId}

/-- The pitches of the graces that wait. -/
def waitingGraces (s : Session) : List (List Nat) := (s.graces.map Prod.snd).getD []

/-- A key or chord has been played. The graces that waited are over before its ticks are, and none wait
any longer. -/
structure Strikes (here : TimelineId) (ticks : Nat) (graces : List Note)
    (mains : TimelineId → List Note) (s t : Session) : Prop where
  inside : here < s.arena.timelines.size
  graced : s.arena.Graced here s.waitingGraces graces mains t.arena
  taken : t.graces = none
  size : s.arena.timelines.size ≤ t.arena.timelines.size
  cursor : (t.arena.timeline here).position = (s.arena.timeline here).position + ticks
  room : graceLength * s.waitingGraces.length ≤ ticks

theorem garnished_stage {pitches : List Nat} {plain : Staged}
    (done : (stage here pitches).run s = .ok plain t) :
    ∃ graces mains, Garnished s.waitingGraces plain.notes graces mains := by
  obtain ⟨-, staged⟩ := Custody.stage_ok done
  have alone (pitches : List Nat) (duration velocity : Nat) :
      ∀ d ∈ [(⟨pitches, duration, velocity, false⟩ : Draft)], ¬ d.grace :=
    List.forall_mem_singleton.mpr Bool.false_ne_true
  unfold waitingGraces
  cases waits : s.graces with
  | none =>
    rw [waits] at staged
    exact ⟨[], _, by rw [staged]; rfl, rfl, alone _ _ _⟩
  | some graces =>
    rw [waits] at staged
    obtain ⟨-, rfl⟩ := staged
    exact ⟨_, _, rfl, List.map_map, alone _ _ _⟩

/-- A key or chord takes the graces that wait. -/
theorem strikes_commit (forest : Arena.Forest roots s.arena) (inside : here < s.arena.timelines.size)
    {offset : Nat} {pitches : List Nat} {arpeggio : Bool}
    (done : (commit here offset pitches arpeggio).run s = .ok ticks t) :
    ∃ graces mains, s.Strikes here ticks graces mains t := by
  have moves := moves_commit forest inside done
  obtain ⟨_, _, read, done⟩ := Step.bind_ok done
  cases read
  obtain ⟨plain, u, staged, done⟩ := Step.bind_ok done
  obtain ⟨graces, mains, garnished⟩ := garnished_stage staged
  obtain ⟨rfl, -⟩ := Custody.stage_ok staged
  obtain ⟨_, _, read, done⟩ := Step.bind_ok done
  cases read
  obtain ⟨_, _, heard, done⟩ := Step.bind_ok done
  cases heard
  obtain ⟨graces, mains, garnished⟩ :=
    garnished.applyAll s.modifiers (s.arena.timeline here).position
  have room := garnished.room
  cases arpeggio with
  | false =>
    obtain ⟨arena, ran, rfl⟩ := onArena_ok done
    rw [Arena.update_run] at ran
    cases ran
    obtain ⟨graces, mains, graced⟩ := Arena.graced_commit inside garnished offset
    refine ⟨graces, mains, inside, graced, rfl, moves.frame.size, moves.frame.cursor, ?_⟩
    exact Nat.le_trans room (Timeline.answered_commit .. ▸ Nat.le_add_right ..)
  | true =>
    obtain ⟨arena, ran, rfl⟩ := onArena_ok done
    obtain ⟨graces, mains, graced⟩ := Arena.graced_arpeggio forest inside garnished ran
    obtain ⟨extra, -, -, total, -⟩ := Arena.commitArpeggio_ok ran
    exact ⟨graces, mains, inside, graced, rfl, moves.frame.size, moves.frame.cursor,
      Nat.le_trans room (total ▸ Nat.le_add_right ..)⟩

end Session
end TextScore
