import TextScore.Proofs.Stretching

/-! What dynamics make of a unit. A ramp is exact at its ends, and gives every draft the velocity that
belongs to its onset. Ornaments around the dynamics leave it there as long as they move no onset:
staccatos do not, and fermatas do not where a unit is a single note. -/
namespace TextScore

namespace Rounding

theorem halfEven_intCast (n : Int) : halfEven (n : Rat) = n := by
  simp only [halfEven, Rat.floor_intCast, sub_self]
  rw [if_pos (by norm_num)]

theorem floor_le_halfEven (q : Rat) : q.floor ≤ halfEven q := by
  unfold halfEven
  dsimp only
  split
  · exact Int.le_refl _
  · split <;> omega

theorem halfUp_natCast (n : Nat) : halfUp (n : Rat) = n := by
  have below : ((n : Int) : Rat) ≤ (n : Rat) + 1 / 2 := by
    rw [Int.cast_natCast]
    linarith
  have above : (n : Rat) + 1 / 2 < ((n + 1 : Int) : Rat) := by
    push_cast
    linarith
  exact Int.le_antisymm (Int.lt_add_one_iff.mp (Rat.floor_lt_iff.mpr above))
    (Rat.le_floor_iff.mpr below)

/-- A number that is not too large is fine-grained enough for whole numbers. -/
theorem exists_unit {e : Int} (fine : e ≤ 0) : ∃ k : Nat, (2 : Rat) ^ e * 2 ^ k = 1 := by
  refine ⟨(-e).toNat, ?_⟩
  rw [← zpow_natCast, ← zpow_add₀ (by norm_num), Int.toNat_of_nonneg (Int.neg_nonneg.mpr fine),
    Int.add_right_neg, zpow_zero]

/-- Rounding to binary64 is exact for whole numbers that are not too large. -/
theorem toBinary_intCast {n : Int} (small : n.natAbs < 2 ^ 52) : toBinary (n : Rat) = n := by
  unfold toBinary
  split
  · next zero => exact zero.symm
  · next other =>
    have some : n.natAbs ≠ 0 := fun zero => other (by simp [Int.natAbs_eq_zero.mp zero])
    have logs : n.natAbs.log2 < 52 := (Nat.log2_lt some).mpr small
    have fine : lastPlace (n : Rat) ≤ 0 := by
      unfold lastPlace
      have one : Nat.log2 1 = 0 := by decide
      simp only [Rat.num_intCast, Rat.den_intCast, one, Int.ofNat_eq_natCast]
      split <;> omega
    obtain ⟨k, unit⟩ := exists_unit fine
    have whole : (n : Rat) / 2 ^ lastPlace (n : Rat) = ((n * 2 ^ k : Int) : Rat) := by
      rw [div_eq_iff (zpow_ne_zero _ (by norm_num))]
      push_cast
      rw [mul_assoc, mul_comm (2 ^ k), unit, mul_one]
    dsimp only
    rw [whole, halfEven_intCast]
    push_cast
    rw [mul_assoc, mul_comm (2 ^ k), unit, mul_one]

theorem toBinary_natCast {n : Nat} (small : n < 2 ^ 52) : toBinary (n : Rat) = n := by
  have exactly := toBinary_intCast (n := n) small
  rwa [Int.cast_natCast] at exactly

theorem zpow_lastPlace_le {q : Rat} (positive : 0 < q) : (2 : Rat) ^ lastPlace q ≤ q := by
  have numerator : 2 ^ q.num.natAbs.log2 ≤ q.num.natAbs :=
    Nat.log2_self_le (Int.natAbs_ne_zero.mpr (Rat.num_pos.mpr positive).ne')
  have denominator : q.den < 2 ^ (q.den.log2 + 1) := Nat.lt_log2_self
  have place : lastPlace q + q.den.log2 + 1 ≤ q.num.natAbs.log2 := by
    unfold lastPlace
    dsimp only [Int.ofNat_eq_natCast]
    split <;> omega
  have product : (2 : Rat) ^ lastPlace q * q.den ≤ q.num.natAbs := by
    calc (2 : Rat) ^ lastPlace q * q.den
        ≤ 2 ^ lastPlace q * 2 ^ ((q.den.log2 + 1 : Nat) : Int) := by
          refine mul_le_mul_of_nonneg_left ?_ (zpow_nonneg (by norm_num) _)
          rw [zpow_natCast]
          exact_mod_cast denominator.le
      _ = 2 ^ (lastPlace q + q.den.log2 + 1) := by
          rw [← zpow_add₀ (by norm_num)]
          push_cast
          rw [add_assoc]
      _ ≤ 2 ^ ((q.num.natAbs.log2 : Nat) : Int) := zpow_le_zpow_right₀ (by norm_num) place
      _ ≤ q.num.natAbs := by
          rw [zpow_natCast]
          exact_mod_cast numerator
  have whole : ((q.num.natAbs : Nat) : Rat) = q * q.den := by
    rw [Rat.mul_den_eq_num, ← Int.cast_natCast,
      Int.natAbs_of_nonneg (Rat.num_nonneg.mpr positive.le)]
  rw [whole] at product
  exact le_of_mul_le_mul_right product (by exact_mod_cast q.pos)

/-- What is a half at least stays so. -/
theorem half_le_toBinary {q : Rat} (large : 1 / 2 ≤ q) : 1 / 2 ≤ toBinary q := by
  have positive : 0 < q := lt_of_lt_of_le (by norm_num) large
  have unit : (0 : Rat) < 2 ^ lastPlace q := zpow_pos (by norm_num) _
  have rounded {n : Int} (below : (n : Rat) ≤ q / 2 ^ lastPlace q) :
      (n : Rat) * 2 ^ lastPlace q ≤ toBinary q := by
    rw [toBinary, if_neg positive.ne']
    have floored := (Rat.le_floor_iff.mpr below).trans (floor_le_halfEven _)
    exact mul_le_mul_of_nonneg_right (by exact_mod_cast floored) unit.le
  rcases lt_or_ge (lastPlace q) 0 with fine | coarse
  · obtain ⟨k, half⟩ := exists_unit (e := lastPlace q + 1) (by omega)
    rw [zpow_add_one₀ (by norm_num)] at half
    have same : ((2 ^ k : Int) : Rat) * 2 ^ lastPlace q = 1 / 2 := by
      push_cast
      linarith
    rw [← same]
    exact rounded ((le_div_iff₀ unit).mpr (same ▸ large))
  · have whole : (1 : Rat) ≤ 2 ^ lastPlace q := one_le_zpow₀ (by norm_num) coarse
    have once := rounded (n := 1) ((le_div_iff₀ unit).mpr (by simpa using zpow_lastPlace_le positive))
    rw [Int.cast_one, one_mul] at once
    linarith

end Rounding

namespace Ramp
open Rounding
variable {r : Ramp}

/-- A velocity that a note can have is exact as a binary64. -/
theorem toBinary_velocity {velocity : Nat} (small : velocity ≤ Pitch.highest) :
    toBinary (velocity : Rat) = velocity :=
  toBinary_natCast (Nat.lt_of_le_of_lt small (by decide))

theorem velocity_first (rising : r.first < r.last) (small : r.start ≤ Pitch.highest) :
    r.velocity r.first = r.start := by
  have none : toBinary 0 = 0 := if_pos rfl
  have elapsed : min (max r.first r.first) r.last - r.first = 0 := by omega
  rw [velocity, if_neg (by omega)]
  simp only [elapsed, Nat.cast_zero, zero_div, none, zero_mul, add_zero, toBinary_velocity small,
    halfUp_natCast, Int.toNat_natCast]
  exact Nat.min_eq_right small

theorem velocity_last (small : r.start ≤ Pitch.highest) (small' : r.target ≤ Pitch.highest) :
    r.velocity r.last = r.target := by
  unfold velocity
  split
  · rfl
  · next rising =>
    have whole : toBinary 1 = 1 := by exact_mod_cast toBinary_natCast (n := 1) (by decide)
    have change : toBinary ((r.target : Rat) - r.start) = r.target - r.start := by
      have highest : Pitch.highest = 127 := rfl
      exact_mod_cast toBinary_intCast (n := (r.target : Int) - r.start) (by omega)
    have span : ((r.last - r.first : Nat) : Rat) ≠ 0 := by
      exact_mod_cast (Nat.sub_pos_of_lt (Nat.lt_of_not_le rising)).ne'
    have elapsed : min (max r.last r.first) r.last - r.first = r.last - r.first := by omega
    simp only [elapsed, div_self span, whole, one_mul, change, add_sub_cancel,
      toBinary_velocity small', halfUp_natCast, Int.toNat_natCast]
    exact Nat.min_eq_right small'

end Ramp

namespace Draft

/-- Onset and velocity of each draft when the first one sounds at `start`. -/
def strikes (start : Nat) : List Draft → List (Nat × Nat)
  | [] => []
  | draft :: rest => (start, draft.velocity) :: strikes (start + draft.duration) rest

theorem strikes_onsets (start : Nat) (notes : List Draft) :
    (strikes start notes).map Prod.fst = onsets start notes := by
  induction notes generalizing start with
  | nil => rfl
  | cons draft rest ih => exact congrArg (start :: ·) (ih _)

/-- Drafts have lengths, and graces come before all others. Where there are no trills, there is one
other at most. -/
structure Regular (trilled : Prop) (notes : List Draft) : Prop where
  long : ∀ d ∈ notes, 0 < d.duration
  ahead : notes.Pairwise fun d later => later.grace → d.grace
  single : ¬ trilled → notes.Pairwise fun d _ => d.grace

variable {trilled : Prop} {notes notes' : List Draft}

theorem Regular.of_graces (regular : Regular trilled notes)
    (graces : notes'.map grace = notes.map grace) (long : ∀ d ∈ notes', 0 < d.duration) :
    Regular trilled notes' := by
  have moved {R : Bool → Bool → Prop} (ordered : notes.Pairwise fun d later => R d.grace later.grace) :
      notes'.Pairwise fun d later => R d.grace later.grace := by
    rw [← List.pairwise_map (f := grace)] at ordered ⊢
    exact graces ▸ ordered
  exact ⟨long, moved (R := fun g later => later → g) regular.ahead,
    fun none => moved (R := fun g _ => g) (regular.single none)⟩

theorem Regular.map (regular : Regular trilled notes) {f : Draft → Draft}
    (grace : ∀ d, (f d).grace = d.grace) (long : ∀ d, 0 < d.duration → 0 < (f d).duration) :
    Regular trilled (notes.map f) := by
  refine regular.of_graces ?_ fun d listed => ?_
  · rw [List.map_map]
    exact List.map_congr_left fun d _ => grace d
  · obtain ⟨draft, member, rfl⟩ := List.mem_map.mp listed
    exact long draft (regular.long draft member)

end Draft

/-- No length is stretched to nothing. -/
def Binary64.Sustains (factor : Binary64) : Prop :=
  ∀ duration, 0 < duration → 0 < Modifier.stretch factor duration

theorem Binary64.sustains_of_half {mantissa : Nat} {exponent : Int}
    (half : 1 / 2 ≤ magnitude mantissa exponent) : (finite false mantissa exponent).Sustains := by
  intro duration long
  have product : 1 / 2 ≤ (duration : Rat) * magnitude mantissa exponent :=
    calc (1 / 2 : Rat) ≤ magnitude mantissa exponent := half
      _ ≤ duration * magnitude mantissa exponent :=
        le_mul_of_one_le_left ((by norm_num : (0 : Rat) ≤ 1 / 2).trans half) (by exact_mod_cast long)
  have rounded : 1 ≤ Rounding.halfUp
      (Rounding.toBinary ((duration : Rat) * magnitude mantissa exponent)) := by
    rw [Rounding.halfUp, Rat.le_floor_iff, Int.cast_one]
    linarith [Rounding.half_le_toBinary product]
  rw [Modifier.stretch]
  exact Nat.lt_min.mpr ⟨by decide, by omega⟩

namespace Modifier
variable {trilled : Prop} {modifier : Modifier} {notes : List Draft} {staged : Staged}

/-- An ornament that leaves no note without a length; it is no trill where there are none. -/
structure Even (trilled : Prop) (modifier : Modifier) : Prop where
  trill : modifier = .trill → trilled
  sustains : ∀ factor, modifier = .fermata factor → factor.Sustains

/-- An ornament that moves no onset within a unit. -/
inductive Steady (trilled : Prop) : Modifier → Prop
  | staccato : Steady trilled .staccato
  | substitute (base : Nat) (octave : Int) : Steady trilled (.substitute base octave)
  | fermata {factor : Binary64} (single : ¬ trilled) (sustains : factor.Sustains) :
    Steady trilled (.fermata factor)

theorem Steady.even (steady : Steady trilled modifier) : Even trilled modifier := by
  cases steady with
  | staccato | substitute => exact ⟨nofun, nofun⟩
  | fermata _ sustains => exact ⟨nofun, fun _ same => Modifier.fermata.inj same ▸ sustains⟩

/-- A clip cuts the last draft, if graces come first. -/
theorem clip_some {cut : Nat} {clipped : List Draft} (done : clip notes = some (clipped, cut))
    (long : ∀ d ∈ notes, 0 < d.duration) (ahead : notes.Pairwise fun d later => later.grace → d.grace)
    (start : Nat) : clipped.map Draft.grace = notes.map Draft.grace ∧
      (∀ d ∈ clipped, 0 < d.duration) ∧ Draft.strikes start clipped = Draft.strikes start notes := by
  induction notes generalizing clipped start with
  | nil => cases done
  | cons draft rest ih =>
    obtain ⟨first, others⟩ := List.forall_mem_cons.mp long
    obtain ⟨leads, ahead⟩ := List.pairwise_cons.mp ahead
    rw [clip] at done
    split at done
    · next below =>
      cases done
      obtain ⟨graces, long, strikes⟩ := ih below others ahead (start + draft.duration)
      exact ⟨congrArg (draft.grace :: ·) graces, List.forall_mem_cons.mpr ⟨first, long⟩,
        congrArg ((start, draft.velocity) :: ·) strikes⟩
    · next none =>
      split at done
      · cases done
      · next sounding =>
        cases done
        have alone : rest = [] := by
          cases rest with
          | nil => rfl
          | cons later rest =>
            have sounds : ¬ later.grace := fun grace => sounding (leads later List.mem_cons_self grace)
            rw [clip] at none
            split at none
            · cases none
            · cases none.symm.trans (if_neg sounds)
        subst alone
        refine ⟨rfl, List.forall_mem_singleton.mpr ?_, rfl⟩
        have cut : 0 < staccatoLength := by decide
        dsimp only
        omega

theorem shade_drafts (velocity : Nat → Nat) (start : Nat) (notes : List Draft) :
    let shaded := List.zipWith (fun d tick => { d with velocity := velocity tick }) notes
      (Draft.onsets start notes)
    shaded.map Draft.grace = notes.map Draft.grace ∧
      shaded.map Draft.duration = notes.map Draft.duration ∧
      ∀ strike ∈ Draft.strikes start shaded, strike.2 = velocity strike.1 := by
  induction notes generalizing start with
  | nil => exact ⟨rfl, rfl, nofun⟩
  | cons draft rest ih =>
    obtain ⟨graces, durations, strikes⟩ := ih (start + draft.duration)
    exact ⟨congrArg (draft.grace :: ·) graces, congrArg (draft.duration :: ·) durations,
      List.forall_mem_cons.mpr ⟨rfl, strikes⟩⟩

theorem regular_trill (regular : Draft.Regular trilled notes) (possible : trilled) :
    Draft.Regular trilled (notes.flatMap strokes) := by
  have graces {d stroke : Draft} (listed : stroke ∈ strokes d) : stroke.grace = d.grace := by
    unfold strokes at listed
    split at listed
    · rw [List.mem_singleton.mp listed]
    · obtain ⟨index, -, rfl⟩ := List.mem_map.mp listed
      rfl
  refine ⟨fun stroke listed => ?_, ?_, fun none => absurd possible none⟩
  · obtain ⟨d, member, listed⟩ := List.mem_flatMap.mp listed
    unfold strokes at listed
    split at listed
    · exact List.mem_singleton.mp listed ▸ regular.long d member
    · obtain ⟨index, -, rfl⟩ := List.mem_map.mp listed
      exact (by decide : 0 < trillLength)
  · refine List.pairwise_flatMap.mpr ⟨fun d _ => ?_, regular.ahead.imp fun ordered a first b later => ?_⟩
    · refine List.pairwise_iff_forall_sublist.mpr fun {a b} within grace => ?_
      have first := within.subset List.mem_cons_self
      have second := within.subset (List.mem_cons_of_mem a List.mem_cons_self)
      rwa [graces first, ← graces second]
    · rw [graces first, graces later]
      exact ordered

theorem regular_apply (regular : Draft.Regular trilled staged.notes) (even : Even trilled modifier)
    (onset : Nat) : Draft.Regular trilled (apply onset staged modifier).notes := by
  cases modifier with
  | fermata factor =>
    refine regular.map (fun d => ?_) fun d long => ?_
    · split <;> rfl
    · split
      · exact long
      · exact even.sustains factor rfl _ long
  | staccato =>
    dsimp only [apply]
    cases clipped : clip staged.notes with
    | none => exact regular
    | some pair =>
      obtain ⟨graces, long, -⟩ := clip_some clipped regular.long regular.ahead onset
      exact regular.of_graces graces long
  | sforzando => exact regular.map (fun _ => rfl) fun _ long => long
  | trill => exact regular_trill regular (even.trill rfl)
  | dynamics ramp =>
    obtain ⟨graces, durations, -⟩ := shade_drafts ramp.velocity onset staged.notes
    refine regular.of_graces graces fun d listed => ?_
    have same := durations ▸ List.mem_map_of_mem (f := Draft.duration) listed
    obtain ⟨draft, member, length⟩ := List.mem_map.mp same
    exact length ▸ regular.long draft member
  | substitute => exact regular

theorem strikes_stretch {factor : Binary64} (single : notes.Pairwise fun d _ => d.grace) (start : Nat) :
    Draft.strikes start (notes.map fun d =>
      if d.grace then d else { d with duration := stretch factor d.duration }) =
        Draft.strikes start notes := by
  induction notes generalizing start with
  | nil => rfl
  | cons draft rest ih =>
    obtain ⟨leads, single⟩ := List.pairwise_cons.mp single
    cases rest with
    | nil =>
      simp only [List.map_cons, List.map_nil, Draft.strikes]
      split <;> rfl
    | cons later rest =>
      rw [List.map_cons, if_pos (leads later List.mem_cons_self)]
      exact congrArg ((start, draft.velocity) :: ·) (ih single _)

/-- What is steady leaves onsets and velocities as they are. -/
theorem strikes_apply (regular : Draft.Regular trilled staged.notes) (steady : Steady trilled modifier)
    (onset : Nat) :
    Draft.strikes onset (apply onset staged modifier).notes = Draft.strikes onset staged.notes := by
  cases steady with
  | staccato =>
    dsimp only [apply]
    cases clipped : clip staged.notes with
    | none => rfl
    | some pair => exact (clip_some clipped regular.long regular.ahead onset).2.2
  | substitute => rfl
  | fermata single => exact strikes_stretch (regular.single single) onset

theorem regular_applyAll {stack : List Modifier} (regular : Draft.Regular trilled staged.notes)
    (even : ∀ m ∈ stack, Even trilled m) (onset : Nat) :
    Draft.Regular trilled (applyAll stack onset staged).notes := by
  induction stack generalizing staged with
  | nil => exact regular
  | cons modifier stack ih =>
    obtain ⟨first, others⟩ := List.forall_mem_cons.mp even
    exact ih (regular_apply regular first onset) others

/-- Steady ornaments leave onsets and velocities as they are. -/
theorem strikes_applyAll {stack : List Modifier} (regular : Draft.Regular trilled staged.notes)
    (steady : ∀ m ∈ stack, Steady trilled m) (onset : Nat) :
    Draft.strikes onset (applyAll stack onset staged).notes = Draft.strikes onset staged.notes := by
  induction stack generalizing staged with
  | nil => rfl
  | cons modifier stack ih =>
    obtain ⟨first, others⟩ := List.forall_mem_cons.mp steady
    exact (ih (regular_apply regular first.even onset) others).trans (strikes_apply regular first onset)

/-- Dynamics shade a unit under any ornaments inside them, if those around them are steady. -/
theorem shaded_applyAll {inner outer : List Modifier} {ramp : Ramp} {plain : Staged}
    (regular : Draft.Regular trilled plain.notes) (even : ∀ m ∈ inner, Even trilled m)
    (steady : ∀ m ∈ outer, Steady trilled m) (onset : Nat) :
    ∀ strike ∈ Draft.strikes onset (applyAll (inner ++ .dynamics ramp :: outer) onset plain).notes,
      strike.2 = ramp.velocity strike.1 := by
  have own : Even trilled (.dynamics ramp) := ⟨nofun, nofun⟩
  have split : applyAll (inner ++ .dynamics ramp :: outer) onset plain =
      applyAll outer onset (apply onset (applyAll inner onset plain) (.dynamics ramp)) := by
    simp only [applyAll, List.foldl_append, List.foldl_cons]
  rw [split, strikes_applyAll (regular_apply (regular_applyAll regular even onset) own onset) steady]
  exact (shade_drafts ramp.velocity onset (applyAll inner onset plain).notes).2.2

end Modifier
end TextScore
