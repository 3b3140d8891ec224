import Mathlib.Data.List.Basic
import TextScore.Proofs.CheckedFiles

/-! Every tick before the one asked for is charged once, at the tempo in force there. Nothing is
known of tempos but which change they come from. -/
namespace TextScore.Tempo
variable {τ : Type} {first current : τ} {start tick : Nat} {changes : List (Nat × τ)}

/-- The tempo of the last change at or before a tick, or the first tempo where there is none. -/
def inForce (first : τ) (changes : List (Nat × τ)) (tick : Nat) : τ :=
  (changes.filter (·.1 ≤ tick)).getLast?.elim first Prod.snd

/-- Positions of the changes that come before a tick. -/
def turns (changes : List (Nat × τ)) (tick : Nat) : List Nat :=
  (changes.filter (·.1 < tick)).map Prod.fst

/-- Each tick with the tempo that it is charged at. -/
def charges (stretches : List (Nat × τ)) : List τ :=
  stretches.flatMap fun (length, tempo) => List.replicate length tempo

structure Charged (first : τ) (changes : List (Nat × τ)) (tick : Nat)
    (stretches : List (Nat × τ)) : Prop where
  ordered : (0 :: turns changes tick ++ [tick]).Pairwise (· ≤ ·)
  /-- Stretches lead from each turn to the next one, in whole numbers that may be negative. -/
  between : stretches.map (fun stretch => (stretch.1 : Int)) =
    List.zipWith (fun turn next => (next : Int) - turn)
      (0 :: turns changes tick) (turns changes tick ++ [tick])
  total : (stretches.map Prod.fst).sum = tick
  /-- A stretch of some length has the tempo in force where it begins. -/
  atStart : ∀ before length tempo after, stretches = before ++ (length, tempo) :: after →
    0 < length → tempo = inForce first changes (before.map Prod.fst).sum
  each : charges stretches = (List.range tick).map (inForce first changes)
  /-- Changes from the tick on make no difference. -/
  earlier : ∀ others, others.filter (·.1 < tick) = changes.filter (·.1 < tick) →
    (others.map Prod.fst).Pairwise (· ≤ ·) → segments 0 first tick others = stretches

theorem inForce_before (late : ∀ change ∈ changes, tick < change.1) :
    inForce first changes tick = first := by
  have nothing : changes.filter (·.1 ≤ tick) = [] := List.filter_eq_nil_iff.mpr fun change listed =>
    by simpa only [decide_eq_true_eq, Nat.not_le] using late change listed
  rw [inForce, nothing]
  rfl

theorem inForce_after {position : Nat} {next : τ} (past : position ≤ tick) :
    inForce first ((position, next) :: changes) tick = inForce next changes tick := by
  have taken : ((position, next) :: changes).filter (·.1 ≤ tick) =
      (position, next) :: changes.filter (·.1 ≤ tick) :=
    List.filter_cons_of_pos (decide_eq_true past)
  rw [inForce, taken, List.getLast?_cons, inForce]
  cases (changes.filter (·.1 ≤ tick)).getLast? with
  | none => rfl
  | some last => rfl

theorem charges_cons (length : Nat) (tempo : τ) (stretches : List (Nat × τ)) :
    charges ((length, tempo) :: stretches) = List.replicate length tempo ++ charges stretches :=
  List.flatMap_cons

theorem charges_append (before after : List (Nat × τ)) :
    charges (before ++ after) = charges before ++ charges after :=
  List.flatMap_append

theorem length_charges (stretches : List (Nat × τ)) :
    (charges stretches).length = (stretches.map Prod.fst).sum := by
  induction stretches with
  | nil => rfl
  | cons stretch stretches ih =>
    rw [charges_cons, List.length_append, List.length_replicate, ih, List.map_cons, List.sum_cons]

theorem first_least {position : Nat} {next : τ}
    (ordered : (((position, next) :: changes).map Prod.fst).Pairwise (· ≤ ·)) :
    ∀ change ∈ (position, next) :: changes, position ≤ change.1 := by
  intro change listed
  rcases List.mem_cons.mp listed with rfl | later
  · exact Nat.le_refl _
  · exact (List.pairwise_cons.mp ordered).1 change.1 (List.mem_map_of_mem later)

/-- Where no change comes in between, one tempo is in force all along. -/
theorem map_inForce {stop : Nat} (before : start ≤ stop)
    (late : ∀ change ∈ changes, stop ≤ change.1) :
    (List.range' start (stop - start)).map (inForce current changes) =
      List.replicate (stop - start) current := by
  refine List.eq_replicate_iff.mpr ⟨by rw [List.length_map, List.length_range'], ?_⟩
  intro tempo listed
  obtain ⟨tick, member, rfl⟩ := List.mem_map.mp listed
  obtain ⟨-, within⟩ := List.mem_range'_1.mp member
  refine inForce_before fun change among => ?_
  have later := late change among
  omega

theorem charges_segments (ordered : (start :: changes.map Prod.fst).Pairwise (· ≤ ·))
    (before : start ≤ tick) :
    charges (segments start current tick changes) =
      (List.range' start (tick - start)).map (inForce current changes) := by
  induction changes generalizing start current with
  | nil =>
    have nothing : ∀ change ∈ ([] : List (Nat × τ)), tick ≤ change.1 := fun _ => List.not_mem_nil.elim
    rw [map_inForce before nothing]
    exact List.flatMap_singleton ..
  | cons change changes ih =>
    obtain ⟨position, next⟩ := change
    obtain ⟨after, ordered⟩ := List.pairwise_cons.mp ordered
    have onward : start ≤ position := after position List.mem_cons_self
    have late := first_least ordered
    rw [segments]
    split
    · next reached =>
      rw [map_inForce before fun change listed => Nat.le_trans reached (late change listed)]
      exact List.flatMap_singleton ..
    · next ahead =>
      have ahead : position ≤ tick := Nat.le_of_not_le ahead
      have later : (List.range' position (tick - position)).map (inForce next changes) =
          (List.range' position (tick - position)).map
            (inForce current ((position, next) :: changes)) :=
        List.map_congr_left fun tick listed =>
          (inForce_after (List.mem_range'_1.mp listed).1).symm
      have pieces : List.range' start (tick - start) =
          List.range' start (position - start) ++ List.range' position (tick - position) := by
        have joined := @List.range'_append_1 start (position - start) (tick - position)
        rw [Nat.add_sub_of_le onward] at joined
        rw [joined]
        congr 1
        omega
      rw [charges_cons, ih ordered ahead, pieces, List.map_append, map_inForce onward late, later]

/-- No change before the tick is left when those that are to come are not. -/
theorem filter_late {position : Nat} (reached : tick ≤ position)
    (late : ∀ change ∈ changes, position ≤ change.1) : changes.filter (·.1 < tick) = [] :=
  List.filter_eq_nil_iff.mpr fun change listed => by
    simpa only [decide_eq_true_eq, Nat.not_lt] using Nat.le_trans reached (late change listed)

theorem filter_early {position : Nat} {next : τ} (ahead : position < tick) :
    ((position, next) :: changes).filter (·.1 < tick) =
      (position, next) :: changes.filter (·.1 < tick) :=
  List.filter_cons_of_pos (decide_eq_true ahead)

theorem segments_between (ordered : (start :: changes.map Prod.fst).Pairwise (· ≤ ·))
    (before : start ≤ tick) :
    (segments start current tick changes).map (fun stretch => (stretch.1 : Int)) =
      List.zipWith (fun turn next => (next : Int) - turn)
        (start :: turns changes tick) (turns changes tick ++ [tick]) := by
  induction changes generalizing start current with
  | nil =>
    refine congrArg (fun length : Int => [length]) ?_
    exact Int.ofNat_sub before
  | cons change changes ih =>
    obtain ⟨position, next⟩ := change
    obtain ⟨after, ordered⟩ := List.pairwise_cons.mp ordered
    rw [segments, turns]
    split
    · next reached =>
      rw [filter_late reached (first_least ordered)]
      refine congrArg (fun length : Int => [length]) ?_
      exact Int.ofNat_sub before
    · next ahead =>
      rw [filter_early (Nat.lt_of_not_le ahead), List.map_cons, List.map_cons,
        ih ordered (Nat.le_of_not_le ahead)]
      refine congrArg (· :: _) ?_
      exact Int.ofNat_sub (after position List.mem_cons_self)

theorem segments_filter (ordered : (changes.map Prod.fst).Pairwise (· ≤ ·)) :
    segments start current tick (changes.filter (·.1 < tick)) =
      segments start current tick changes := by
  induction changes generalizing start current with
  | nil => rfl
  | cons change changes ih =>
    obtain ⟨position, next⟩ := change
    have later := (List.pairwise_cons.mp ordered).2
    by_cases reached : tick ≤ position
    · rw [filter_late reached (first_least ordered), segments, segments, if_pos reached]
    · rw [filter_early (Nat.lt_of_not_le reached), segments, if_neg reached, ih later, segments,
        if_neg reached]

theorem turns_ordered (ordered : (changes.map Prod.fst).Pairwise (· ≤ ·)) :
    (0 :: turns changes tick ++ [tick]).Pairwise (· ≤ ·) := by
  refine List.pairwise_cons.mpr ⟨fun _ _ => Nat.zero_le _, List.pairwise_append.mpr ?_⟩
  refine ⟨ordered.sublist (List.filter_sublist.map Prod.fst), List.pairwise_singleton _ _, ?_⟩
  intro turn taken stop last
  obtain ⟨change, listed, rfl⟩ := List.mem_map.mp taken
  have early := of_decide_eq_true (List.mem_filter.mp listed).2
  rw [List.mem_singleton.mp last]
  exact Nat.le_of_lt early

/-- What is charged tick by tick tells what each stretch is charged at. -/
theorem tempo_of_charges {before after : List (Nat × τ)} {length : Nat} {tempo : τ}
    {tempos : Nat → τ}
    (each : charges (before ++ (length, tempo) :: after) = (List.range tick).map tempos)
    (positive : 0 < length) : tempo = tempos (before.map Prod.fst).sum := by
  have here : (charges (before ++ (length, tempo) :: after))[(before.map Prod.fst).sum]? =
      some tempo := by
    rw [charges_append, charges_cons, ← length_charges before,
      List.getElem?_append_right (Nat.le_refl _), Nat.sub_self,
      List.getElem?_append_left (by rwa [List.length_replicate]), List.getElem?_replicate,
      if_pos positive]
  rw [each, List.getElem?_map] at here
  obtain ⟨place, found, told⟩ := Option.map_eq_some_iff.mp here
  obtain ⟨within, rfl⟩ := List.getElem?_eq_some_iff.mp found
  rw [← told, List.getElem_range]

theorem segments_charged (first : τ) (ordered : (changes.map Prod.fst).Pairwise (· ≤ ·))
    (tick : Nat) : Charged first changes tick (segments 0 first tick changes) := by
  have fromStart : (0 :: changes.map Prod.fst).Pairwise (· ≤ ·) :=
    List.pairwise_cons.mpr ⟨fun _ _ => Nat.zero_le _, ordered⟩
  have each : charges (segments 0 first tick changes) =
      (List.range tick).map (inForce first changes) := by
    rw [charges_segments fromStart (Nat.zero_le tick), Nat.sub_zero, List.range_eq_range']
  refine ⟨turns_ordered ordered, segments_between fromStart (Nat.zero_le tick), ?_, ?_, each, ?_⟩
  · rw [← length_charges, each, List.length_map, List.length_range]
  · intro before length tempo after cut positive
    rw [cut] at each
    exact tempo_of_charges each positive
  · intro others same othersOrdered
    rw [← segments_filter othersOrdered, same, segments_filter ordered]

/-- Milliseconds before a tick are summed over stretches that cover the ticks from the first one
on, in order, each charged once at the tempo in force there: a minute for so many beats of 128 ticks.
It does not matter what tempos are, as `bpm` reads them off the marks that changes are made with. -/
theorem ms_charged (bpm : τ → Binary64) {first : τ} (given : bpm first = standard)
    {changes : List (Nat × τ)} (ordered : (changes.map Prod.fst).Pairwise (· ≤ ·)) (tick : Nat) :
    Charged first changes tick (segments 0 first tick changes) ∧
      ms (changes.map (Prod.map id bpm)) tick =
        ((segments 0 first tick changes).map fun (length, mark) =>
          .ofNat length * (.ofNat 60000 / .ofNat 128 / bpm mark)).foldl (· + ·) (.ofNat 0) := by
  refine ⟨segments_charged first ordered tick, ?_⟩
  rw [ms, ← given, ← segments_map, List.foldl_map, List.foldl_map]
  rfl

/-- Changes at the first tick, twice at one tick, at the tick asked for and after it. -/
theorem charged_at_doubled_changes :
    let changes := [(0, 60), (0, 90), (128, 240), (128, 120), (256, 30), (300, 60)]
    let stretches := [(0, 120), (0, 60), (128, 90), (0, 240), (128, 120)]
    (changes.map Prod.fst).Pairwise (· ≤ ·) ∧ Charged 120 changes 256 stretches ∧
      ms (changes.map (Prod.map id .ofNat)) 256 =
        (stretches.map fun (length, mark) =>
          .ofNat length * (.ofNat 60000 / .ofNat 128 / .ofNat mark)).foldl (· + ·) (.ofNat 0) := by
  intro changes stretches
  have ordered : (changes.map Prod.fst).Pairwise (· ≤ ·) := by decide
  exact ⟨ordered, ms_charged .ofNat rfl ordered 256⟩

end TextScore.Tempo
