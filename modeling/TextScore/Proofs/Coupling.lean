import TextScore.Step

/-! Two runs side by side. A coupling says which states of two runs belong together while both go
on, and which states the second may be in once the first has failed. Steps that keep couplings
compose, so a property of the small steps of a program becomes one of the program. -/
namespace TextScore
variable {σ α β : Type}

structure Coupling (σ : Type) where
  both : σ → σ → Prop
  /-- The first run has failed with this fault; the second goes on. -/
  alone : Fault → σ → Prop

namespace Coupling

/-- Every pair of states of the first coupling is one of the second. -/
structure Within (P Q : Coupling σ) : Prop where
  both : ∀ {s s'}, P.both s s' → Q.both s s'
  alone : ∀ {fault s}, P.alone fault s → Q.alone fault s

theorem Within.refl (P : Coupling σ) : P.Within P := ⟨id, id⟩

/-- The same states, where something is known besides. -/
def provided (P : Coupling σ) (known : Prop) : Coupling σ where
  both s s' := known ∧ P.both s s'
  alone fault s := known ∧ P.alone fault s

/-- Both runs are the same one, and none goes on after it has failed. -/
def lockstep (P : σ → Prop) : Coupling σ where
  both s s' := s = s' ∧ P s
  alone _ _ := False

/-- Nothing is asked of the second run once the first has failed. -/
def lenient (both : σ → σ → Prop) : Coupling σ where
  both := both
  alone _ _ := True

/-- Any fault answers any other. -/
abbrev Whatever (_ _ : Fault) : Prop := True

/-- Results of the second run after the first has failed. `meets` says which faults of the second
run answer a fault of the first. -/
def Survives (meets : Fault → Fault → Prop) (Q : α → Coupling σ) (fault : Fault) :
    EStateM.Result Fault σ α → Prop
  | .ok b t' => (Q b).alone fault t'
  | .error fault' _ => meets fault fault'

/-- Results of both runs: where the first succeeds the second answers the same. -/
def Agree (meets : Fault → Fault → Prop) (Q : α → Coupling σ) :
    EStateM.Result Fault σ α → EStateM.Result Fault σ α → Prop
  | .ok a t, .ok b t' => a = b ∧ (Q a).both t t'
  | .ok .., .error .. => False
  | .error fault _, second => Survives meets Q fault second

end Coupling

namespace Step
open Coupling
variable {meets : Fault → Fault → Prop}

theorem bind_ok {p : Step σ α} {f : α → Step σ β} {s u : σ} {b : β}
    (h : (p >>= f).run s = .ok b u) : ∃ a t, p.run s = .ok a t ∧ (f a).run t = .ok b u := by
  rw [EStateM.run_bind] at h
  cases first : p.run s with
  | ok a t => exact ⟨a, t, rfl, by simpa only [first] using h⟩
  | error fault t => simp only [first, reduceCtorEq] at h

theorem unless_ok {c : Prop} [Decidable c] {offset : Nat} {cause : Cause} {f : PUnit → Step σ β}
    {s t : σ} {b : β}
    (h : (if c then failAt offset cause >>= f else f ⟨⟩).run s = .ok b t) :
    ¬ c ∧ (f ⟨⟩).run s = .ok b t := by
  split at h
  · exact nomatch h
  · next refused => exact ⟨refused, h⟩

theorem exists_of_run' {p : Step σ α} {s : σ} {a : α} (h : p.run' s = some a) :
    ∃ t, p.run s = .ok a t := by
  have of_result : ∀ result, EStateM.run' (fun _ => result : Step σ α) s = some a →
      ∃ t, result = .ok a t := by
    intro result h
    cases result with
    | ok b t =>
      cases h
      exact ⟨t, rfl⟩
    | error fault t => exact nomatch h
  exact of_result (p.run s) h

/-- Started in states that `P` couples, `q` follows `p`. -/
structure Follows (meets : Fault → Fault → Prop) (P : Coupling σ) (p q : Step σ α)
    (Q : α → Coupling σ) : Prop where
  both : ∀ s s', P.both s s' → Agree meets Q (p.run s) (q.run s')
  alone : ∀ fault s', P.alone fault s' → Survives meets Q fault (q.run s')

namespace Follows
variable {P P' : Coupling σ} {Q Q' : α → Coupling σ} {R : β → Coupling σ}

theorem ok {p q : Step σ α} (h : Follows meets P p q Q) {s s' t : σ} {a : α}
    (coupled : P.both s s') (done : p.run s = .ok a t) :
    ∃ t', q.run s' = .ok a t' ∧ (Q a).both t t' := by
  have agree := h.both s s' coupled
  rw [done] at agree
  cases second : q.run s' with
  | ok b t' =>
    rw [second] at agree
    obtain ⟨rfl, both⟩ := agree
    exact ⟨t', rfl, both⟩
  | error fault t' =>
    rw [second] at agree
    exact agree.elim

/-- What is known of two runs from states that belong together is all that matters. -/
theorem of_both {both : σ → σ → Prop} {after : α → σ → σ → Prop} {p q : Step σ α}
    (h : ∀ {s s'}, both s s' →
      Agree Whatever (fun a => lenient (after a)) (p.run s) (q.run s')) :
    Follows Whatever (lenient both) p q fun a => lenient (after a) := by
  refine ⟨fun _ _ => h, fun fault s' _ => ?_⟩
  cases q.run s' <;> trivial

/-- Where the first run succeeds the second one does. -/
theorem of_ok {both : σ → σ → Prop} {after : α → σ → σ → Prop} {p q : Step σ α}
    (h : ∀ {s s' a t}, both s s' → p.run s = .ok a t →
      ∃ t', q.run s' = .ok a t' ∧ after a t t') :
    Follows Whatever (lenient both) p q fun a => lenient (after a) := by
  apply of_both
  intro s s' coupled
  cases first : p.run s with
  | ok a t =>
    obtain ⟨t', second, coupled⟩ := h coupled first
    rw [second]
    exact ⟨rfl, coupled⟩
  | error fault t => cases q.run s' <;> trivial

theorem pure (a : α) : Follows meets (Q a) (Pure.pure a) (Pure.pure a) Q :=
  ⟨fun _ _ coupled => ⟨rfl, coupled⟩, fun _ _ left => left⟩

theorem failAt (offset : Nat) (cause : Cause) (same : meets ⟨cause, offset⟩ ⟨cause, offset⟩)
    (loose : ∀ {fault s}, P.alone fault s → meets fault ⟨cause, offset⟩) :
    Follows meets P (Step.failAt offset cause) (Step.failAt offset cause) Q :=
  ⟨fun _ _ _ => same, fun _ _ left => loose left⟩

theorem survives {q : Step σ α} {f g : α → Step σ β} {fault : Fault} {s' : σ}
    (first : Survives meets Q fault (q.run s'))
    (second : ∀ a, Follows meets (Q a) (f a) (g a) R) :
    Survives meets R fault ((q >>= g).run s') := by
  rw [EStateM.run_bind]
  cases hq : q.run s' with
  | ok b t' =>
    rw [hq] at first
    exact (second b).alone fault t' first
  | error fault' t' =>
    rw [hq] at first
    exact first

theorem bind {p q : Step σ α} {f g : α → Step σ β} (first : Follows meets P p q Q)
    (second : ∀ a, Follows meets (Q a) (f a) (g a) R) :
    Follows meets P (p >>= f) (q >>= g) R := by
  constructor
  · intro s s' coupled
    have h := first.both s s' coupled
    rw [EStateM.run_bind, EStateM.run_bind]
    cases hp : p.run s with
    | ok a t => cases hq : q.run s' with
      | ok b t' =>
        rw [hp, hq] at h
        obtain ⟨rfl, h⟩ := h
        exact (second a).both t t' h
      | error fault' t' =>
        rw [hp, hq] at h
        exact h.elim
    | error fault t => cases hq : q.run s' with
      | ok b t' =>
        rw [hp, hq] at h
        exact (second b).alone fault t' h
      | error fault' t' =>
        rw [hp, hq] at h
        exact h
  · exact fun fault s' left => survives (first.alone fault s' left) second

theorem mono {p q : Step σ α} (h : Follows meets P p q Q) (before : P'.Within P)
    (after : ∀ a, (Q a).Within (Q' a)) : Follows meets P' p q Q' := by
  constructor
  · intro s s' coupled
    have h := h.both s s' (before.both coupled)
    cases hp : p.run s <;> cases hq : q.run s' <;> rw [hp, hq] at h
    · exact ⟨h.1, (after _).both h.2⟩
    · exact h
    · exact (after _).alone h
    · exact h
  · intro fault s' left
    have h := h.alone fault s' (before.alone left)
    cases hq : q.run s' <;> rw [hq] at h
    · exact (after _).alone h
    · exact h

/-- Both runs read the same value, each in its own way. -/
theorem read (view view' : σ → α) (same : ∀ {s s'}, P.both s s' → view s = view' s')
    {f g : α → Step σ β} (rest : ∀ a, Follows meets P (f a) (g a) R) :
    Follows meets P (get >>= fun s => f (view s)) (get >>= fun s => g (view' s)) R := by
  constructor
  · intro s s' coupled
    have h := (rest (view' s')).both s s' coupled
    rw [EStateM.run_bind, EStateM.run_bind, EStateM.run_get, EStateM.run_get]
    simp only [same coupled]
    exact h
  · intro fault s' left
    exact (rest (view' s')).alone fault s' left

theorem provided {known : Prop} {p q : Step σ α} (h : known → Follows meets P p q Q) :
    Follows meets (P.provided known) p q Q :=
  ⟨fun s s' coupled => (h coupled.1).both s s' coupled.2,
    fun fault s' left => (h left.1).alone fault s' left.2⟩

/-- What every answer of the second run is known to be. -/
theorem known {G : α → Prop} {p q : Step σ α} (h : Follows meets P p q Q)
    (answers : ∀ {s a t}, q.run s = .ok a t → G a) :
    Follows meets P p q fun a => (Q a).provided (G a) := by
  constructor
  · intro s s' coupled
    have agree := h.both s s' coupled
    cases hp : p.run s <;> cases hq : q.run s' <;> rw [hp, hq] at agree
    · exact ⟨agree.1, agree.1 ▸ answers hq, agree.2⟩
    · exact agree
    · exact ⟨answers hq, agree⟩
    · exact agree
  · intro fault s' left
    have survives := h.alone fault s' left
    cases hq : q.run s' <;> rw [hq] at survives
    · exact ⟨answers hq, survives⟩
    · exact survives

/-- What couples the runs may depend on what has been accumulated. -/
theorem foldlM_along {along : β → Coupling σ} {f g : β → α → Step σ β} {xs : List α}
    (h : ∀ b, ∀ x ∈ xs, Follows meets (along b) (f b x) (g b x) along) (b : β) :
    Follows meets (along b) (xs.foldlM f b) (xs.foldlM g b) along := by
  induction xs generalizing b with
  | nil => exact pure b
  | cons x xs ih =>
    rw [List.foldlM_cons, List.foldlM_cons]
    exact (h b x List.mem_cons_self).bind fun b =>
      ih (fun b y member => h b y (List.mem_cons_of_mem x member)) b

theorem foldlM {f g : β → α → Step σ β} {xs : List α}
    (h : ∀ b, ∀ x ∈ xs, Follows meets P (f b x) (g b x) fun _ => P) (b : β) :
    Follows meets P (xs.foldlM f b) (xs.foldlM g b) fun _ => P :=
  @foldlM_along _ _ _ _ (fun _ => P) _ _ _ h b

theorem mapM {f g : α → Step σ β} {xs : List α}
    (h : ∀ x ∈ xs, Follows meets P (f x) (g x) fun _ => P) :
    Follows meets P (xs.mapM f) (xs.mapM g) fun _ => P := by
  induction xs with
  | nil => exact pure (Q := fun _ => P) []
  | cons x xs ih =>
    rw [List.mapM_cons, List.mapM_cons]
    apply (h x List.mem_cons_self).bind
    intro y
    apply (ih fun x' member => h x' (List.mem_cons_of_mem x member)).bind
    intro ys
    exact pure (Q := fun _ => P) (y :: ys)

/-- The runs may answer differently. What couples them depends on the pairs of answers so far. -/
theorem mapM_paired (opening : List (α × α) → Coupling σ) {count : Nat} {p q : Nat → Step σ α}
    (claim : ∀ pairs : List (α × α), pairs.length < count → ∀ {f g : α → Step σ β},
      (∀ a a', Follows meets (opening (pairs ++ [(a, a')])) (f a) (g a') R) →
        Follows meets (opening pairs) (p pairs.length >>= f) (q pairs.length >>= g) R)
    {f g : List α → Step σ β} (rest : ∀ pairs : List (α × α), pairs.length = count →
      Follows meets (opening pairs) (f (pairs.map Prod.fst)) (g (pairs.map Prod.snd)) R) :
    Follows meets (opening []) ((List.range count).mapM p >>= f) ((List.range count).mapM q >>= g)
      R := by
  -- By induction on the answers that are left, with the pairs so far in front.
  have claimed (left : Nat) (pairs : List (α × α)) (all : pairs.length + left = count) :
      Follows meets (opening pairs)
        ((List.range' pairs.length left).mapM p >>= fun as => f (pairs.map Prod.fst ++ as))
        ((List.range' pairs.length left).mapM q >>= fun as => g (pairs.map Prod.snd ++ as)) R := by
    induction left generalizing pairs with
    | zero =>
      simp only [List.range'_zero, List.mapM_nil, pure_bind, List.append_nil]
      exact rest pairs all
    | succ left ih =>
      simp only [List.range'_succ, List.mapM_cons, bind_assoc, pure_bind]
      refine claim pairs (by omega) fun a a' => ?_
      have more := ih (pairs ++ [(a, a')]) (by
        simp only [List.length_append, List.length_singleton]
        omega)
      simpa only [List.length_append, List.length_singleton, List.map_append, List.map_cons,
        List.map_nil, List.append_assoc, List.singleton_append] using more
  have all := claimed count [] (Nat.zero_add count)
  simpa only [List.length_nil, List.map_nil, List.nil_append, ← List.range_eq_range'] using all

end Follows
end Step
end TextScore
