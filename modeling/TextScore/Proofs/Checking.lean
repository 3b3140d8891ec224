import TextScore.Proofs.Contracts

/-! Operations that are not defined everywhere: subtraction of numbers without a sign, division, and
taking an element or a slice. A checked step goes no further where such an operation is not defined.
It agrees with a plain step from the states from which that never happens. -/
namespace TextScore

/-- Steps that end without an answer where an operation is not defined. -/
abbrev Checked (σ α : Type) := OptionT (EStateM Fault σ) α

namespace Checked
variable {σ α β : Type}

/-- Nothing can be taken from less. -/
def minus? (a b : Nat) : Option Nat := if b ≤ a then some (a - b) else none

/-- There is no division by zero. -/
def quotient? (a b : Nat) : Option Nat := if b = 0 then none else some (a / b)

def remainder? (a b : Nat) : Option Nat := if b = 0 then none else some (a % b)

/-- The elements from one place up to before another. -/
def slice? (xs : List α) (start stop : Nat) : Option (List α) :=
  if start ≤ stop ∧ stop ≤ xs.length then some ((xs.drop start).take (stop - start)) else none

theorem minus?_eq {a b : Nat} (h : b ≤ a) : minus? a b = some (a - b) := if_pos h

theorem quotient?_eq {a b : Nat} (h : b ≠ 0) : quotient? a b = some (a / b) := if_neg h

theorem remainder?_eq {a b : Nat} (h : b ≠ 0) : remainder? a b = some (a % b) := if_neg h

theorem slice?_eq {xs : List α} {start length : Nat} (inside : start + length ≤ xs.length) :
    slice? xs start (start + length) = some ((xs.drop start).take length) := by
  rw [slice?, if_pos ⟨Nat.le_add_right .., inside⟩, Nat.add_sub_cancel_left]

theorem slice?_rest {xs : List α} {start : Nat} (inside : start ≤ xs.length) :
    slice? xs start xs.length = some (xs.drop start) := by
  rw [slice?, if_pos ⟨inside, Nat.le_refl _⟩, ← List.length_drop, List.take_length]

theorem mapM_defined {f : α → Option β} {g : α → β} {xs : List α}
    (each : ∀ x ∈ xs, f x = some (g x)) : xs.mapM f = some (xs.map g) := by
  induction xs with
  | nil => rfl
  | cons x xs ih =>
    obtain ⟨first, others⟩ := List.forall_mem_cons.mp each
    simp only [List.mapM_cons, first, ih others, Option.bind_eq_bind, Option.bind_some,
      Option.pure_def, List.map_cons]

theorem foldlM_defined {f : β → α → Option β} {g : β → α → β} {xs : List α}
    (each : ∀ b, ∀ x ∈ xs, f b x = some (g b x)) (b : β) :
    xs.foldlM f b = some (xs.foldl g b) := by
  induction xs generalizing b with
  | nil => rfl
  | cons x xs ih =>
    rw [List.foldlM_cons, each b x List.mem_cons_self, List.foldl_cons]
    exact ih (fun c y listed => each c y (List.mem_cons_of_mem x listed)) (g b x)

/-- The answer of an operation, if it is defined. -/
def answer (result : Option α) : Checked σ α := OptionT.mk (pure result)

theorem answer_bind (a : α) (f : α → Checked σ β) : (answer (some a) >>= f) = f a := rfl

/-- Goes on only if a condition holds. -/
def require (c : Prop) [Decidable c] : Checked σ Unit := answer (if c then some () else none)

/-- A step in which every operation is defined. -/
def plain (p : Step σ α) : Checked σ α := OptionT.lift p

def failAt (offset : Nat) (cause : Cause) : Checked σ α := plain (Step.failAt offset cause)

/-- A change of the state that need not be defined. -/
def change (f : σ → Option σ) : Checked σ PUnit := do set (← answer (f (← get)))

/-- A checked step on a part of the state. -/
def within {τ : Type} (part : σ → τ) (replace : σ → τ → σ) (x : Checked τ α) : Checked σ α :=
  OptionT.mk (Step.within part replace x.run)

/-- How a checked step ends, if all its operations are defined. -/
def result? (x : Checked σ α) (s : σ) : Option (EStateM.Result Fault σ α) :=
  match x.run.run s with
  | .ok (some a) t => some (.ok a t)
  | .ok none _ => none
  | .error fault t => some (.error fault t)

/-- From states of `P` on, all operations of a checked step are defined, and what it does is what a
plain one does. -/
def Agrees (P : σ → Prop) (x : Checked σ α) (p : Step σ α) : Prop :=
  ∀ ⦃s⦄, P s → x.run.run s = match p.run s with
    | .ok a t => .ok (some a) t
    | .error fault t => .error fault t

namespace Agrees
variable {P P' : σ → Prop} {Q : α → σ → Prop} {x : Checked σ α} {p : Step σ α}

theorem plain (p : Step σ α) : Agrees P (Checked.plain p) p := by
  intro s _
  simp only [Checked.plain, OptionT.run_lift, EStateM.run_bind, EStateM.run_pure]
  cases p.run s <;> rfl

theorem result?_eq {s : σ} (agrees : Agrees P x p) (before : P s) :
    x.result? s = some (p.run s) := by
  rw [result?, agrees before]
  cases p.run s <;> rfl

theorem pure (a : α) : Agrees P (Pure.pure a) (Pure.pure a) := fun _ _ => rfl

theorem failAt (offset : Nat) (cause : Cause) :
    Agrees P (Checked.failAt offset cause : Checked σ α) (Step.failAt offset cause) := plain _

theorem change {f : σ → Option σ} {g : σ → σ} (each : ∀ {s}, P s → f s = some (g s)) :
    Agrees P (Checked.change f) (modify g : Step σ PUnit) := fun s before => by
  have started : (Checked.change f).run.run s = (answer (f s) >>= set).run.run s := rfl
  rw [started, each before]
  rfl

/-- A change of a state that is known. -/
theorem changed {s : σ} {f : σ → Option σ} {g : σ → σ} {h : PUnit → Checked σ β}
    {k : PUnit → Step σ β} (known : f s = some (g s))
    (rest : Agrees (fun t => t = g s) (h ⟨⟩) (k ⟨⟩)) :
    Agrees (fun t => t = s) (Checked.change f >>= h) (modify g >>= k) := by
  rintro s rfl
  have started : (Checked.change f >>= h).run.run s = ((answer (f s) >>= set) >>= h).run.run s := rfl
  rw [started, known, answer_bind]
  exact rest rfl

theorem modify (f : σ → σ) :
    Agrees P (modify f : Checked σ PUnit) (modify f) := fun _ _ => rfl

theorem within {τ : Type} {part : σ → τ} {replace : σ → τ → σ} {x : Checked τ α} {p : Step τ α}
    {R : τ → Prop} (agrees : Agrees R x p) (before : ∀ {s}, P s → R (part s)) :
    Agrees P (Checked.within part replace x) (p.within part replace) := fun s holds => by
  have known := agrees (before holds)
  have inside : (Checked.within part replace x).run.run s = _ := Step.within_run ..
  rw [inside, Step.within_run, known]
  cases p.run (part s) <;> rfl

theorem mono (agrees : Agrees P x p) (before : ∀ {s}, P' s → P s) : Agrees P' x p :=
  fun _ h => agrees (before h)

/-- What holds in one state only. -/
theorem start {s : σ} (agrees : Agrees P x p) (before : P s) : Agrees (fun t => t = s) x p :=
  agrees.mono fun same => same ▸ before

/-- In one state after the other. -/
theorem each (all : ∀ s, P s → Agrees (fun t => t = s) x p) : Agrees P x p :=
  fun s before => all s before rfl

/-- What comes after a step starts where the plain one ends. -/
theorem bind {f : α → Checked σ β} {g : α → Step σ β} (first : Agrees P x p)
    (ends : ∀ {s a t}, P s → p.run s = .ok a t → Q a t) (rest : ∀ a, Agrees (Q a) (f a) (g a)) :
    Agrees P (x >>= f) (p >>= g) := by
  intro s before
  have known := first before
  simp only [OptionT.run_bind, Option.elimM, EStateM.run_bind]
  cases done : p.run s with
  | ok a t =>
    rw [done] at known
    rw [known]
    exact rest a (ends before done)
  | error fault t =>
    rw [done] at known
    rw [known]

/-- What a contract says of a step is known after it. -/
theorem andThen {E : Fault → Prop} {f : α → Checked σ β} {g : α → Step σ β}
    (first : Agrees P x p) (contract : Step.Contract E P p Q)
    (rest : ∀ a, Agrees (Q a) (f a) (g a)) : Agrees P (x >>= f) (p >>= g) :=
  first.bind (fun before done => contract.ok before done) rest

/-- An answer is all that follows. -/
theorem answered (first : Agrees P x p) (f : α → β) :
    Agrees P (x >>= fun a => Pure.pure (f a)) (p >>= fun a => Pure.pure (f a)) :=
  first.bind (Q := fun _ _ => True) (fun _ _ => trivial) fun _ _ _ => rfl

/-- An operation that is defined. -/
theorem defined {result : Option α} {a : α} {f : α → Checked σ β} {q : Step σ β}
    (known : result = some a) (rest : Agrees P (f a) q) : Agrees P (answer result >>= f) q := by
  subst known
  exact rest

theorem required {c : Prop} [Decidable c] {f : Unit → Checked σ β} {q : Step σ β} (holds : c)
    (rest : Agrees P (f ()) q) : Agrees P (require c >>= f) q :=
  defined (if_pos holds) rest

/-- Both look at the state. -/
theorem read {f : σ → Checked σ β} {g : σ → Step σ β}
    (rest : ∀ s, P s → Agrees (fun t => t = s) (f s) (g s)) : Agrees P (get >>= f) (get >>= g) :=
  fun s before => rest s before rfl

/-- Only the checked step looks at the state. -/
theorem look {f : σ → Checked σ β} {q : Step σ β}
    (rest : ∀ s, P s → Agrees (fun t => t = s) (f s) q) : Agrees P (get >>= f) q :=
  fun s before => rest s before rfl

theorem guarded {c : Prop} [Decidable c] {offset : Nat} {cause : Cause} {f : PUnit → Checked σ β}
    {g : PUnit → Step σ β} (rest : ¬ c → Agrees P (f ⟨⟩) (g ⟨⟩)) :
    Agrees P (if c then Checked.failAt offset cause >>= f else f ⟨⟩)
      (if c then Step.failAt offset cause >>= g else g ⟨⟩) := by
  split
  · exact fun _ _ => rfl
  · next going => exact rest going

/-- What may come before the rest. -/
theorem when {c : Prop} [Decidable c] {x : Checked σ PUnit} {p : Step σ PUnit}
    {f : PUnit → Checked σ β} {g : PUnit → Step σ β} (first : Agrees P x p)
    (keeps : ∀ {s a t}, P s → p.run s = .ok a t → P t) (rest : Agrees P (f ⟨⟩) (g ⟨⟩)) :
    Agrees P (if c then x >>= f else f ⟨⟩) (if c then p >>= g else g ⟨⟩) := by
  split
  · exact first.bind (Q := fun _ => P) keeps fun _ => rest
  · exact rest

/-- A body that is performed for each element of a list. What is known may depend on what has been
answered so far. -/
theorem foldlM {P : β → σ → Prop} {f : β → α → Checked σ β} {g : β → α → Step σ β} {xs : List α}
    (each : ∀ b, ∀ x ∈ xs, Agrees (P b) (f b x) (g b x))
    (keeps : ∀ b, ∀ x ∈ xs, ∀ {s c t}, P b s → (g b x).run s = .ok c t → P c t) (b : β) :
    Agrees (P b) (xs.foldlM f b) (xs.foldlM g b) := by
  induction xs generalizing b with
  | nil => exact pure b
  | cons x xs ih =>
    rw [List.foldlM_cons, List.foldlM_cons]
    refine (each b x List.mem_cons_self).bind (keeps b x List.mem_cons_self) fun c => ?_
    exact ih (fun c y listed => each c y (List.mem_cons_of_mem x listed))
      (fun c y listed => keeps c y (List.mem_cons_of_mem x listed)) c

theorem forM {f : α → Checked σ PUnit} {g : α → Step σ PUnit} {xs : List α}
    (each : ∀ x ∈ xs, Agrees P (f x) (g x))
    (keeps : ∀ x ∈ xs, ∀ {s a t}, P s → (g x).run s = .ok a t → P t) :
    Agrees P (xs.forM f) (xs.forM g) := by
  induction xs with
  | nil => exact fun _ _ => rfl
  | cons x xs ih =>
    refine (each x List.mem_cons_self).bind (keeps x List.mem_cons_self) fun _ => ?_
    exact ih (fun y listed => each y (List.mem_cons_of_mem x listed))
      fun y listed => keeps y (List.mem_cons_of_mem x listed)

theorem mapM {f : α → Checked σ β} {g : α → Step σ β} {xs : List α}
    (each : ∀ x ∈ xs, Agrees P (f x) (g x))
    (keeps : ∀ x ∈ xs, ∀ {s b t}, P s → (g x).run s = .ok b t → P t) :
    Agrees P (xs.mapM f) (xs.mapM g) := by
  induction xs with
  | nil =>
    rw [List.mapM_nil, List.mapM_nil]
    exact pure []
  | cons x xs ih =>
    rw [List.mapM_cons, List.mapM_cons]
    refine (each x List.mem_cons_self).bind (keeps x List.mem_cons_self) fun b => ?_
    refine Agrees.bind (Q := fun _ _ => True) ?_ (fun _ _ => trivial) fun _ => pure _
    exact ih (fun y listed => each y (List.mem_cons_of_mem x listed))
      fun y listed => keeps y (List.mem_cons_of_mem x listed)

end Agrees
end Checked
end TextScore
