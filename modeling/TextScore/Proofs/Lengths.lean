import TextScore.Proofs.Levels
import TextScore.Proofs.Placement
import TextScore.Proofs.Ranges
import TextScore.Proofs.Stretching

/-! How long a song becomes. A timeline takes nothing more past a certain tick, but what it takes
before that may be as long as the fermatas around it make it. Where these are not nested too deeply,
every cursor stays below 2 ^ 28, and so does every delay of a track. -/
namespace TextScore

/-- The last tick that a delay can lead to. -/
def latest : Nat := 2 ^ 28 - 1

namespace Tuplet

theorem units_le {unit : Nat} (some : 1 ≤ unit) (ticks : Nat) : units unit ticks ≤ ticks := by
  refine Nat.le_of_lt_succ (Nat.div_lt_of_lt_mul ?_)
  have scaled : ticks ≤ unit * ticks := Nat.le_mul_of_pos_left _ some
  rw [Nat.mul_assoc, Nat.mul_succ]
  omega

/-- Each unit owes less than a tick. -/
theorem Steady.pay_le {t : Tuplet} (steady : t.Steady) (units : Nat) : (t.pay units).1 ≤ units := by
  refine Nat.le_of_lt_succ (Nat.div_lt_of_lt_mul ?_)
  have parts : units * t.remainder ≤ units * t.divisor :=
    Nat.mul_le_mul_left _ (Nat.le_of_lt steady.remainder)
  have owed := steady.owed
  rw [Nat.mul_succ, Nat.mul_comm t.divisor]
  omega

end Tuplet

namespace Timeline
variable {t : Timeline}

/-- A unit is a tick at least, so no more is owed than has been played. -/
theorem Real.calibrate_le (real : t.Real) (ticks : Nat) : (t.calibrate ticks).1 ≤ ticks := by
  unfold Timeline.calibrate
  split
  · exact Nat.zero_le _
  · next tuplet counts =>
    exact Nat.le_trans ((real.tuplet tuplet counts).pay_le _)
      (Tuplet.units_le (Nat.le_max_right ..) ticks)

theorem Real.position_rest (real : t.Real) :
    t.position ≤ t.rest.2.position ∧ t.rest.2.position ≤ t.position + 2 * t.state.quantization := by
  unfold Timeline.rest restFor
  split
  · exact ⟨Nat.le_refl _, Nat.le_add_right ..⟩
  · have owed := real.calibrate_le t.state.quantization
    have still := (calibrate_still t.state.quantization t).position
    simp only [pad]
    split
    · omega
    · simp only [trail]
      omega

/-- No bend comes after a tick. -/
def Bent (limit : Nat) (t : Timeline) : Prop := ∀ bend ∈ t.bends, bend.1 ≤ limit

theorem kind_bent (limit : Nat) : Kind (fun _ _ => True) (Bent limit) where
  list id slot bent := by cases slot <;> exact bent
  child _ := fun _ listed => absurd listed (Array.not_mem_empty _)
  adopt _ own := own
  calibrate ticks bent := by
    unfold calibrate
    split <;> exact bent
  trail _ _ bent := bent
  note _ _ _ bent := bent
  lengthen _ _ bent := bent
  shift _ bent := bent

theorem bent_addBends {limit : Nat} {bends : List (Nat × Binary64)} (bent : t.Bent limit)
    (early : ∀ bend ∈ bends, bend.1 ≤ limit) : (Session.addBends bends t).Bent limit := by
  induction bends generalizing t with
  | nil => exact bent
  | cons bend bends ih =>
    obtain ⟨first, early⟩ := List.forall_mem_cons.mp early
    refine ih (t := t.addBend bend.1 bend.2) (fun other listed => ?_) early
    rcases Array.mem_push.mp listed with old | rfl
    · exact bent other old
    · exact first

end Timeline

section Tracks
open Track (span ofEvent)

theorem Track.span_append (before after : List TrackEvent) :
    span (before ++ after) = span before + span after := by
  induction before with
  | nil => exact (Nat.zero_add _).symm
  | cons event before ih => rw [List.cons_append, span, span, ih, Nat.add_assoc]

theorem Midi.tick_ofEvents {channel cursor : Nat} {events : List TrackEvent} {timed : Midi.Timed}
    (listed : timed ∈ Midi.ofEvents channel cursor events) : timed.tick ≤ cursor + span events := by
  induction events generalizing cursor with
  | nil => cases listed
  | cons event events ih =>
    rcases List.mem_append.mp listed with own | later
    · have reach : timed.tick ≤ cursor + event.span := by
        cases event with
        | note pitches wait duration velocity =>
          obtain ⟨pitch, -, either⟩ := List.mem_flatMap.mp own
          simp only [List.mem_cons, List.not_mem_nil, or_false] at either
          rcases either with rfl | rfl <;> simp only [TrackEvent.span] <;> omega
        | program program bank =>
          rcases List.mem_append.mp own with select | change
          · cases bank with
            | none => cases select
            | some bank => exact Nat.le_of_eq (congrArg Timed.tick (List.mem_singleton.mp select))
          · exact Nat.le_of_eq (congrArg Timed.tick (List.mem_singleton.mp change))
        | filler => cases own
        | bend | controller | tempo | timeSignature =>
          exact Nat.le_of_eq (congrArg Timed.tick (List.mem_singleton.mp own))
      exact Nat.le_trans reach (Nat.add_le_add_left (Nat.le_add_right ..) cursor)
    · have after : timed.tick ≤ (Midi.ofEvent channel cursor event).2 + span events := ih later
      rw [Track.ofEvent_cursor] at after
      exact Nat.le_trans after (Nat.le_of_eq (Nat.add_assoc ..))

/-- No delay is longer than the track. -/
theorem Midi.delay_le {track : Track} {delayed : Nat × Midi.Message}
    (listed : delayed ∈ Midi.messages track) : delayed.1 ≤ span track.events := by
  rcases List.mem_append.mp listed with told | last
  · obtain ⟨timed, member, -, delay⟩ := mem_delays told
    have sent := (List.mergeSort_perm _ precedes).mem_iff.mp member
    exact Nat.le_trans delay ((Nat.zero_add (span track.events)).symm ▸ tick_ofEvents sent)
  · rw [List.mem_singleton.mp last]
    exact Nat.zero_le _

theorem Track.span_bendEvents {limit cursor : Nat} {bends : List (Nat × Binary64)}
    (ordered : (cursor :: bends.map Prod.fst).Pairwise (· ≤ ·)) (short : cursor ≤ limit)
    (bent : ∀ bend ∈ bends, bend.1 ≤ limit) : cursor + span (bendEvents cursor bends) ≤ limit := by
  induction bends generalizing cursor with
  | nil => exact short
  | cons bend bends ih =>
    obtain ⟨first, bent⟩ := List.forall_mem_cons.mp bent
    obtain ⟨before, ordered⟩ := List.pairwise_cons.mp ordered
    have low := before bend.1 List.mem_cons_self
    have rest := ih ordered first bent
    simp only [bendEvents, span, TrackEvent.span]
    omega

/-- Sorted bends come one after the other from the start on. -/
theorem Track.ordered_mergeSort (bends : List (Nat × Binary64)) :
    (0 :: (bends.mergeSort fun a b => a.1 ≤ b.1).map Prod.fst).Pairwise (· ≤ ·) := by
  let early (a b : Nat × Binary64) : Bool := a.1 ≤ b.1
  have sorted : (bends.mergeSort early).Pairwise fun a b => early a b := by
    refine List.pairwise_mergeSort (fun a b c first second => ?_) (fun a b => ?_) bends
    · exact decide_eq_true (Nat.le_trans (of_decide_eq_true first) (of_decide_eq_true second))
    · exact (Nat.le_total a.1 b.1).elim (fun low => by simp [early, low]) fun high => by
        simp [early, high]
  exact List.pairwise_cons.mpr ⟨fun tick _ => Nat.zero_le tick,
    List.pairwise_map.mpr (sorted.imp of_decide_eq_true)⟩

theorem Track.span_ofBends {limit channel : Nat} {bends : List (Nat × Binary64)}
    (bent : ∀ bend ∈ bends, bend.1 ≤ limit) : span (ofBends channel bends).events ≤ limit := by
  have same := List.mergeSort_perm bends fun a b => decide (a.1 ≤ b.1)
  have reach := span_bendEvents (ordered_mergeSort bends) (Nat.zero_le limit) fun bend listed =>
    bent bend (same.mem_iff.mp listed)
  rwa [Nat.zero_add] at reach

/-- Both tracks of a timeline end before its cursor and its last bend. -/
theorem Track.span_ofTimeline {limit : Nat} {t : Timeline} {track : Track} (orderly : t.Orderly)
    (cursor : t.position ≤ limit) (bent : t.Bent limit) (listed : track ∈ ofTimeline t) :
    span track.events ≤ limit := by
  rcases List.mem_append.mp listed with bends | log
  · split at bends
    · exact nomatch bends
    · cases List.mem_singleton.mp bends
      exact span_ofBends fun bend member => bent bend (Array.mem_toList_iff.mp member)
  · split at log
    · exact nomatch log
    · cases List.mem_singleton.mp log
      have position := span_position orderly
      dsimp only
      omega

end Tracks
end TextScore
