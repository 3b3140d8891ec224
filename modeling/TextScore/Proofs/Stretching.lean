import Mathlib.Data.Rat.Floor
import TextScore.Staging.Modifier

/-! How long a key or chord becomes. Only fermatas make it longer: each multiplies its length by its
factor, and rounding to binary64 does not carry it beyond a whole number that the factor is not
above. All other ornaments share its length out between notes and the silence after them. -/
namespace TextScore

namespace Rounding

theorem halfEven_le (q : Rat) : (halfEven q : Rat) ≤ q + 1 / 2 := by
  have low := Rat.floor_le q
  unfold halfEven
  dsimp only
  split
  · linarith
  · next down =>
    split
    · next up =>
      rw [Int.cast_add, Int.cast_one]
      linarith
    · have parity : q.floor % 2 ≤ 1 := by omega
      have parity : ((q.floor % 2 : Int) : Rat) ≤ 1 := by exact_mod_cast parity
      rw [Int.cast_add]
      linarith

theorem lastPlace_neg {q : Rat} (positive : 0 < q) (small : q ≤ 2 ^ 51) : lastPlace q < 0 := by
  have below : q.num.natAbs ≤ 2 ^ 51 * q.den := by
    have scaled : q * q.den ≤ 2 ^ 51 * q.den :=
      mul_le_mul_of_nonneg_right small (Nat.cast_nonneg _)
    rw [Rat.mul_den_eq_num] at scaled
    have numerator : q.num ≤ 2 ^ 51 * q.den := by exact_mod_cast scaled
    have sign := Rat.num_pos.mpr positive
    omega
  have denominator : q.den < 2 ^ (q.den.log2 + 1) := Nat.lt_log2_self
  have some : q.num.natAbs ≠ 0 := Int.natAbs_ne_zero.mpr (Rat.num_pos.mpr positive).ne'
  have logs : q.num.natAbs.log2 < q.den.log2 + 52 := by
    rw [Nat.log2_lt some]
    calc q.num.natAbs ≤ 2 ^ 51 * q.den := below
      _ < 2 ^ 51 * 2 ^ (q.den.log2 + 1) := by gcongr
      _ = 2 ^ (q.den.log2 + 52) := by rw [← Nat.pow_add]; congr 1; omega
  unfold lastPlace
  dsimp only [Int.ofNat_eq_natCast]
  split <;> omega

/-- Below 2 ^ 51, rounding is off by less than a half. -/
theorem toBinary_lt {q : Rat} (nonneg : 0 ≤ q) (small : q ≤ 2 ^ 51) : toBinary q < q + 1 / 2 := by
  unfold toBinary
  split
  · next zero => linarith
  · next other =>
    have positive : 0 < q := lt_of_le_of_ne nonneg (Ne.symm other)
    have fine : (2 : Rat) ^ lastPlace q < 1 :=
      zpow_lt_one_of_neg₀ (by norm_num) (lastPlace_neg positive small)
    have unit : (0 : Rat) < 2 ^ lastPlace q := zpow_pos (by norm_num) _
    dsimp only
    calc (halfEven (q / 2 ^ lastPlace q) : Rat) * 2 ^ lastPlace q
        ≤ (q / 2 ^ lastPlace q + 1 / 2) * 2 ^ lastPlace q := by
          gcongr
          exact halfEven_le _
      _ = q + 2 ^ lastPlace q / 2 := by field_simp
      _ < q + 1 / 2 := by linarith

/-- What is no longer than a whole number of ticks does not become longer by being rounded. -/
theorem halfUp_toBinary_le {q : Rat} {n : Nat} (nonneg : 0 ≤ q) (below : q ≤ n)
    (small : n ≤ 2 ^ 51) : halfUp (toBinary q) ≤ n := by
  have bound : (n : Rat) ≤ 2 ^ 51 := by exact_mod_cast small
  have rounded := toBinary_lt nonneg (below.trans bound)
  apply Int.lt_add_one_iff.mp
  rw [halfUp, Rat.floor_lt_iff, Int.cast_add, Int.cast_natCast, Int.cast_one]
  linarith

end Rounding

namespace Modifier
variable {stack : List Modifier} {modifier : Modifier} {notes : List Draft} {staged : Staged}
  {most : Nat}

def isFermata : Modifier → Bool
  | fermata _ => true
  | _ => false

/-- How many fermatas there are. -/
def fermatas (stack : List Modifier) : Nat := stack.countP isFermata

theorem stretch_le {factor : Binary64} (real : factor.isPositiveUpTo most) (duration : Nat)
    (short : most * duration ≤ 2 ^ 51) : stretch factor duration ≤ most * duration := by
  unfold Binary64.isPositiveUpTo at real
  split at real
  · next mantissa exponent =>
    obtain ⟨-, small⟩ := of_decide_eq_true real
    have unit : (0 : Rat) ≤ Binary64.magnitude mantissa exponent :=
      mul_nonneg (Nat.cast_nonneg _) (zpow_nonneg (by norm_num) _)
    have rounded : Rounding.halfUp (Rounding.toBinary
        ((duration : Rat) * Binary64.magnitude mantissa exponent)) ≤ ((most * duration : Nat) : Int) := by
      refine Rounding.halfUp_toBinary_le (mul_nonneg (Nat.cast_nonneg _) unit) ?_ short
      rw [Nat.cast_mul, mul_comm]
      exact mul_le_mul_of_nonneg_right small (Nat.cast_nonneg _)
    exact Nat.le_trans (Nat.min_le_right ..) (Int.toNat_le.mpr rounded)
  · exact nomatch real

/-- The length of the notes. -/
abbrev length (notes : List Draft) : Nat := Draft.sum Draft.duration notes

theorem length_clip {cut : Nat} {clipped : List Draft} (done : clip notes = some (clipped, cut)) :
    length clipped + cut = length notes := by
  induction notes generalizing clipped with
  | nil => cases done
  | cons draft rest ih =>
    rw [clip] at done
    split at done
    · next below =>
      cases done
      have rest := ih below
      simp only [length, Draft.sum] at rest ⊢
      omega
    · split at done
      · cases done
      · cases done
        simp only [length, Draft.sum]
        omega

theorem length_strokes (draft : Draft) : length (strokes draft) + leftover draft = draft.duration := by
  have even (indices : List Nat) :
      length (indices.map (stroke draft)) = trillLength * indices.length := by
    induction indices with
    | nil => rfl
    | cons index rest ih =>
      have first : (stroke draft index).duration = trillLength := rfl
      simp only [length, List.map_cons, Draft.sum, List.length_cons] at ih ⊢
      rw [ih, first, Nat.mul_succ, Nat.add_comm]
  unfold strokes leftover
  split
  · simp only [length, Draft.sum, Nat.add_zero]
  · rw [even, List.length_range]
    exact Nat.div_add_mod ..

theorem length_trill (notes : List Draft) :
    length (notes.flatMap strokes) + Draft.sum leftover notes = length notes := by
  induction notes with
  | nil => rfl
  | cons draft rest ih =>
    have first := length_strokes draft
    simp only [length, List.flatMap_cons, Draft.sum_append, Draft.sum] at ih first ⊢
    omega

theorem length_shade (velocity : Nat → Nat) (onset : Nat) (notes : List Draft) :
    length (List.zipWith (fun d tick => { d with velocity := velocity tick }) notes
      (Draft.onsets onset notes)) = length notes := by
  induction notes generalizing onset with
  | nil => rfl
  | cons draft rest ih =>
    have rest := ih (onset + draft.duration)
    simp only [length, Draft.onsets, List.zipWith_cons_cons, Draft.sum] at rest ⊢
    omega

theorem length_loud (velocity : Nat) (notes : List Draft) :
    length (notes.map fun d => { d with velocity := velocity }) = length notes := by
  induction notes with
  | nil => rfl
  | cons draft rest ih =>
    simp only [length, List.map_cons, Draft.sum] at ih ⊢
    omega

theorem length_stretch {factor : Binary64} (real : factor.isPositiveUpTo most) (some : 1 ≤ most)
    (notes : List Draft) (short : most * length notes ≤ 2 ^ 51) :
    length (notes.map fun d =>
      if d.grace then d else { d with duration := stretch factor d.duration }) ≤
        most * length notes := by
  induction notes with
  | nil => exact Nat.zero_le _
  | cons draft rest ih =>
    have own : draft.duration ≤ most * draft.duration := Nat.le_mul_of_pos_left _ some
    simp only [length, List.map_cons, Draft.sum, Nat.mul_add] at ih short ⊢
    have rest := ih (by omega)
    have first := stretch_le real draft.duration (by omega)
    split
    · omega
    · dsimp only
      omega

theorem ticks_apply (onset : Nat) (other : modifier.isFermata = false) :
    (apply onset staged modifier).ticks = staged.ticks := by
  cases modifier with
  | fermata => exact nomatch other
  | staccato =>
    dsimp only [apply]
    cases clipped : clip staged.notes with
    | none => rfl
    | some pair =>
      have same := length_clip clipped
      simp only [Staged.ticks, length] at same ⊢
      omega
  | sforzando => exact congrArg (· + staged.rest) (length_loud ..)
  | trill =>
    have same := length_trill staged.notes
    simp only [apply, Staged.ticks, length] at same ⊢
    omega
  | dynamics => exact congrArg (· + staged.rest) (length_shade ..)
  | substitute => rfl

theorem ticks_fermata {factor : Binary64} (real : factor.isPositiveUpTo most) (some : 1 ≤ most)
    (onset : Nat) (short : most * staged.ticks ≤ 2 ^ 51) :
    (apply onset staged (.fermata factor)).ticks ≤ most * staged.ticks := by
  have own : staged.rest ≤ most * staged.rest := Nat.le_mul_of_pos_left _ some
  simp only [Staged.ticks, Nat.mul_add] at short
  have notes := length_stretch real some staged.notes (by simp only [length]; omega)
  simp only [apply, Staged.ticks, length, Nat.mul_add] at notes ⊢
  omega

/-- However ornaments are stacked, only fermatas lengthen what is staged. -/
theorem ticks_applyAll (onset : Nat) (some : 1 ≤ most)
    (real : ∀ factor, .fermata factor ∈ stack → factor.isPositiveUpTo most)
    (short : most ^ fermatas stack * staged.ticks ≤ 2 ^ 51) :
    (applyAll stack onset staged).ticks ≤ most ^ fermatas stack * staged.ticks := by
  induction stack generalizing staged with
  | nil => exact Nat.le_of_eq (Nat.one_mul _).symm
  | cons modifier stack ih =>
    have below := fun factor listed => real factor (List.mem_cons_of_mem modifier listed)
    cases kind : modifier.isFermata with
    | false =>
      have same : (apply onset staged modifier).ticks = staged.ticks := ticks_apply onset kind
      have count : fermatas (modifier :: stack) = fermatas stack := by
        simp only [fermatas, List.countP_cons, kind, Bool.false_eq_true, reduceIte, Nat.add_zero]
      rw [count, ← same] at short ⊢
      exact ih below short
    | true =>
      obtain ⟨factor, rfl⟩ : ∃ factor, modifier = .fermata factor := by
        cases modifier with
        | fermata factor => exact ⟨factor, rfl⟩
        | _ => exact nomatch kind
      have count : fermatas (.fermata factor :: stack) = fermatas stack + 1 := by
        simp only [fermatas, List.countP_cons, isFermata, reduceIte]
      have split : most ^ fermatas (.fermata factor :: stack) * staged.ticks =
          most ^ fermatas stack * (most * staged.ticks) := by
        rw [count, Nat.pow_succ, Nat.mul_assoc]
      rw [split] at short ⊢
      have once : most * staged.ticks ≤ most ^ fermatas stack * (most * staged.ticks) :=
        Nat.le_mul_of_pos_left _ (Nat.pow_pos some)
      have stretched := Nat.mul_le_mul_left (most ^ fermatas stack)
        (ticks_fermata (real factor List.mem_cons_self) some onset (once.trans short))
      exact (ih below (stretched.trans short)).trans stretched

end Modifier
end TextScore
