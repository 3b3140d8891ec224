import Mathlib.Algebra.GroupWithZero.Nat
import TextScore.Proofs.Checking
import TextScore.Staging.Modifier

/-! Ornaments with every operation checked. Whatever is staged, none of them is undefined: a note is
cut only if it is longer than what is left of it, a trill takes strokes only while there is room, and
a ramp without length is not divided by. -/
namespace TextScore
open Checked

namespace Ramp

/-- The bounds of an interval must be in order. -/
def clamp? (n low high : Nat) : Option Nat :=
  if low ≤ high then some (min (max n low) high) else none

def ratio? (a b : Nat) : Option Rat := if b = 0 then none else some ((a : Rat) / (b : Rat))

def velocity? (r : Ramp) (tick : Nat) : Option Nat :=
  if r.last ≤ r.first then some r.target
  else do
    let elapsed ← minus? (← clamp? tick r.first r.last) r.first
    let share := Rounding.toBinary (← ratio? elapsed (← minus? r.last r.first))
    let change := Rounding.toBinary (share * ((r.target : Rat) - (r.start : Rat)))
    return min Pitch.highest (Rounding.halfUp (Rounding.toBinary ((r.start : Rat) + change))).toNat

theorem velocity?_eq (r : Ramp) (tick : Nat) : r.velocity? tick = some (r.velocity tick) := by
  unfold velocity? velocity
  split
  · rfl
  · next long =>
    have order : r.first ≤ r.last := by omega
    have after : r.first ≤ min (max tick r.first) r.last := by omega
    have length : r.last - r.first ≠ 0 := by omega
    simp only [clamp?, if_pos order, ratio?, if_neg length, minus?_eq order, minus?_eq after,
      Option.bind_eq_bind, Option.bind_some, Option.pure_def]

end Ramp

theorem Draft.sum_eq (f : Draft → Nat) (drafts : List Draft) :
    Draft.sum f drafts = (drafts.map f).sum := by
  induction drafts with
  | nil => rfl
  | cons draft drafts ih => rw [Draft.sum, ih, List.map_cons, List.sum_cons]

namespace Modifier

def clip? : List Draft → Option (Option (List Draft × Nat))
  | [] => some none
  | draft :: rest => do
    match ← clip? rest with
    | some (rest, cut) => return some (draft :: rest, cut)
    | none =>
      if draft.grace then return none
      else if staccatoLength < draft.duration then
        let cut ← minus? draft.duration staccatoLength
        return some ({ draft with duration := staccatoLength } :: rest, cut)
      else return some (draft :: rest, 0)

/-- The strokes of a trill from one of them on, and what is left when there is no room for more. -/
def strokesFrom? (draft : Draft) (index left : Nat) : Option (List Draft × Nat) :=
  if left < trillLength then some ([], left)
  else match _less : minus? left trillLength with
    | none => none
    | some less => do
      let (strokes, leftover) ← strokesFrom? draft (index + 1) less
      return (stroke draft index :: strokes, leftover)
termination_by left
decreasing_by
  simp only [minus?, trillLength] at *
  grind

def strokes? (draft : Draft) : Option (List Draft × Nat) :=
  if draft.grace then some ([draft], 0) else strokesFrom? draft 0 draft.duration

def effect? (onset : Nat) (staged : Staged) : Modifier → Option Staged
  | staccato => do
    match ← clip? staged.notes with
    | some (notes, cut) => return ⟨notes, staged.rest + cut⟩
    | none => return staged
  | trill => do
    let struck ← staged.notes.mapM strokes?
    return ⟨struck.flatMap Prod.fst, staged.rest + (struck.map Prod.snd).sum⟩
  | dynamics ramp => do
    let shade? (pair : Draft × Nat) : Option Draft := do
      return { pair.1 with velocity := ← ramp.velocity? pair.2 }
    return { staged with notes := ← (staged.notes.zip (Draft.onsets onset staged.notes)).mapM shade? }
  | modifier => some (apply onset staged modifier)

def applyAll? (stack : List Modifier) (onset : Nat) (staged : Staged) : Option Staged :=
  stack.foldlM (effect? onset) staged

theorem clip?_eq (notes : List Draft) : clip? notes = some (clip notes) := by
  induction notes with
  | nil => rfl
  | cons draft rest ih =>
    simp only [clip?, clip, ih, Option.bind_eq_bind, Option.bind_some, Option.pure_def]
    cases clip rest with
    | some pair => rfl
    | none =>
      dsimp only
      split
      · rfl
      · split
        · next long =>
          have left : draft.duration - (draft.duration - staccatoLength) = staccatoLength := by omega
          simp only [minus?_eq (Nat.le_of_lt long), Option.bind_some, left]
        · next short =>
          have none : draft.duration - staccatoLength = 0 := by omega
          simp only [none, Nat.sub_zero]

theorem strokesFrom?_eq (draft : Draft) (index left : Nat) : strokesFrom? draft index left =
    some ((List.range (left / trillLength)).map fun i => stroke draft (index + i),
      left % trillLength) := by
  fun_induction strokesFrom? draft index left with
  | case1 index left short => simp [Nat.div_eq_of_lt short, Nat.mod_eq_of_lt short]
  | case2 index left long undefined =>
    exact nomatch (minus?_eq (Nat.le_of_not_lt long)).symm.trans undefined
  | case3 index left long less defined ih =>
    have room := Nat.le_of_not_lt long
    obtain rfl : left - trillLength = less :=
      Option.some.inj ((minus?_eq room).symm.trans defined)
    have one : left / trillLength = (left - trillLength) / trillLength + 1 :=
      Nat.div_eq_sub_div (by decide) room
    rw [ih, one, List.range_succ_eq_map, Nat.mod_eq_sub_mod room]
    simp only [Option.bind_eq_bind, Option.bind_some, Option.pure_def, List.map_cons, List.map_map,
      Function.comp_def, Nat.succ_eq_add_one, Nat.add_zero, Nat.add_right_comm index 1,
      ← Nat.add_assoc]

theorem strokes?_eq (draft : Draft) : strokes? draft = some (strokes draft, leftover draft) := by
  unfold strokes? strokes leftover
  split
  · rfl
  · simp only [strokesFrom?_eq, Nat.zero_add]

theorem effect?_eq (onset : Nat) (staged : Staged) (modifier : Modifier) :
    effect? onset staged modifier = some (apply onset staged modifier) := by
  cases modifier with
  | staccato =>
    simp only [effect?, apply, clip?_eq, Option.bind_eq_bind, Option.bind_some]
    cases clip staged.notes <;> rfl
  | trill =>
    have struck : staged.notes.mapM strokes? = some (staged.notes.map _) :=
      mapM_defined fun draft _ => strokes?_eq draft
    simp only [effect?, apply, struck, Option.bind_eq_bind, Option.bind_some, Option.pure_def,
      List.flatMap_map, List.map_map, Function.comp_def, Draft.sum_eq]
  | dynamics ramp =>
    simp only [effect?, apply, Option.bind_eq_bind, Option.pure_def, Ramp.velocity?_eq,
      Option.bind_some, mapM_defined fun _ _ => rfl, ← List.map_uncurry_zip_eq_zipWith]
    rfl
  | fermata | sforzando | substitute => rfl

theorem applyAll?_eq (stack : List Modifier) (onset : Nat) (staged : Staged) :
    applyAll? stack onset staged = some (applyAll stack onset staged) := by
  have each : effect? onset = fun staged modifier => some (apply onset staged modifier) :=
    funext fun staged => funext fun modifier => effect?_eq onset staged modifier
  rw [applyAll?, each]
  exact List.foldlM_pure

end Modifier
end TextScore
