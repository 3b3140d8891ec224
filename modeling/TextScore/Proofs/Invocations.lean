import TextScore.Proofs.Order

/-! Keys that invoke a template. The keys of an invocation burn gas of their own, between the items that
are performed for them: what is performed before a key has left the gas that the key finds, and what
is performed after it finds less. -/
namespace TextScore.Session
open Step (Follows)

variable {depth gas : Nat} {here : TimelineId} {references offset ticks : Nat} {name : String}
  {before after rest : List Item} {inner inner' : Performer} {s t : Session}
  {call other outer : Call}

/-- Performers that agree where less gas than this is left cannot be told apart there. -/
theorem follows_alike_below
    (alike : ∀ other : Call, other.session.gas.remaining < gas →
      inner.answer other = (perform depth).answer other) :
    Performer.Follows Eq (Upkeep.lockstep fun _ _ s => s.gas.remaining < gas) (perform depth)
      inner := by
  intro m live here member references item
  refine ⟨?_, fun _ _ left => left.elim⟩
  rintro s _ ⟨rfl, less⟩
  have same : (inner here references item).run s = _ := alike ⟨here, references, item, s⟩ less
  rw [same]
  exact ((upkeep_below gas).simulation.follows_perform depth member references item).both s s
    ⟨rfl, less⟩

/-- An item inside another one finds less gas. -/
theorem Asks.poorer (asks : Asks (perform depth) outer call) :
    call.session.gas.remaining < outer.session.gas.remaining := by
  let gas := outer.session.gas.remaining
  refine asks.of_unnoticed (I := fun other => other.session.gas.remaining < gas) Eq
    (fun _ => Session.below (gas + 1)) id fun refusing alike => ?_
  have coupled : (Session.below (gas + 1)).both outer.session outer.session :=
    ⟨rfl, Nat.lt_succ_self gas⟩
  rcases (upkeep_below gas).simulation.exists_opened (follows_alike_below fun c => alike c)
      (m := false) (List.mem_singleton_self outer.here) outer.references outer.item with
    ⟨offset, value, stray⟩ | ⟨p, p', first, second, rest⟩
  · rw [Performer.answer, Performer.answer, stray]
    exact rfl
  · rw [Performer.answer, Performer.answer, first, second]
    exact (follows_opened_below rest).both _ _ coupled

section Invocations

/-- What an invocation does before it comes to its body: it looks up the template and goes one
reference deeper. -/
def summon (here : TimelineId) (references offset : Nat) (name : String) :
    Play (List Item × Nat) := do
  burn offset
  if longest < (← timeline here).position then Step.failAt offset .songTooLong
  let template ← onDefinitions (Definitions.template name offset)
  return (template, ← refer references offset)

/-- Items of the body of an invocation, when so many ticks have been played. -/
def playKeys (inner : Performer) (here : TimelineId) (name : String) (summoned : List Item × Nat)
    (ticks : Nat) (items : List Item) : Play Nat :=
  items.foldlM (fun ticks item => do
    return ticks + (← invokeWith inner here summoned.2 name summoned.1 item)) ticks

theorem perform_invocation (inner : Performer) (here : TimelineId) (references offset : Nat)
    (name : String) (body : List Item) :
    performWith inner here references (.range offset (.userRange name) body) =
      summon here references offset name >>= fun summoned =>
        playKeys inner here name summoned 0 body := by
  have opens : performWith inner here references (.range offset (.userRange name) body) =
    opened here offset (invoke inner here references offset name body) := rfl
  rw [opens, opened, summon]
  simp only [bind_assoc]
  refine congrArg _ (funext fun _ => congrArg _ (funext fun t => ?_))
  split <;> simp only [invoke, bind_assoc, pure_bind] <;> rfl

/-- An invocation that has come so far goes on with the items that are left. -/
theorem invocation_resumes (done : (performWith inner here references
      (.range offset (.userRange name) before)).run s = .ok ticks t) :
    ∃ summoned u, (summon here references offset name).run s = .ok summoned u ∧ ∀ after,
      (performWith inner here references (.range offset (.userRange name) (before ++ after))).run s =
        (playKeys inner here name summoned ticks after).run t := by
  rw [perform_invocation] at done
  obtain ⟨summoned, u, found, done⟩ := Step.bind_ok done
  refine ⟨summoned, u, found, fun after => ?_⟩
  have split : playKeys inner here name summoned 0 (before ++ after) =
      playKeys inner here name summoned 0 before >>= fun ticks =>
        playKeys inner here name summoned ticks after := List.foldlM_append
  rw [perform_invocation, EStateM.run_bind, found]
  dsimp only
  rw [split, EStateM.run_bind, done]

/-- A key burns gas before its template is performed. -/
theorem follows_playKeys_below (follows : Performer.Follows Eq
      (Upkeep.lockstep fun _ _ s => s.gas.remaining < gas) inner inner')
    (summoned : List Item × Nat) (k : Key) :
    Follows Eq (Session.below (gas + 1)) (playKeys inner here name summoned ticks (.key k :: rest))
      (playKeys inner' here name summoned ticks (.key k :: rest)) fun _ => Session.below gas := by
  have ensemble := (upkeep_below gas).simulation.toUnison.ensemble
  have accompanies := Unison.accompanies follows
  have member : here ∈ [here] := List.mem_singleton_self here
  have played := Unison.of_shared (m := false) member
    (ensemble.follows_invokeKey accompanies summoned.2 summoned.1 k)
  have others (item : Item) := Unison.of_shared (m := false) member
    (ensemble.follows_invokeWith accompanies summoned.2 name summoned.1 item)
  have key (p : Performer) : playKeys p here name summoned ticks (.key k :: rest) =
      burn k.offset >>= fun _ => invokeKey p here summoned.2 summoned.1 k >>= fun more =>
        playKeys p here name summoned (ticks + more) rest := by
    have burns : invokeWith p here summoned.2 name summoned.1 (.key k) =
      burn k.offset >>= fun _ => invokeKey p here summoned.2 summoned.1 k := rfl
    simp only [playKeys, List.foldlM_cons, bind_assoc, pure_bind, burns]
  rw [key, key]
  refine (follows_burn_below gas k.offset).bind fun _ => played.bind fun more => ?_
  refine Follows.foldlM (fun ticks item _ => (others item).bind fun more => ?_) _
  exact Follows.pure (Q := fun _ => Session.below gas) (ticks + more)

end Invocations

/-- The invocation comes to a key of its body, after these items and in this session. -/
structure Invokes (depth : Nat) (call : Call) (before : List Item) (s : Session) : Prop where
  reached : ∃ offset name k rest ticks,
    call.item = .range offset (.userRange name) (before ++ .key k :: rest) ∧
      (performWith (perform depth)).answer
        { call with item := .range offset (.userRange name) before } = .ok ticks s

namespace Invokes
variable {before' : List Item} {s' : Session}

theorem poorer (invokes : Invokes depth call before s) :
    s.gas.remaining < call.session.gas.remaining := by
  obtain ⟨offset, name, k, rest, ticks, -, done⟩ := invokes
  have done : (perform (depth + 1) call.here call.references _).run call.session = _ := done
  exact perform_burns done

/-- The key burns gas, and the rest of the invocation gives none back. -/
theorem spends (invokes : Invokes depth call before s)
    (done : (performWith (perform depth)).answer call = .ok ticks t) :
    t.gas.remaining < s.gas.remaining := by
  obtain ⟨here, references, _, start⟩ := call
  obtain ⟨offset, name, k, rest, ticks', rfl, reached⟩ := invokes
  obtain ⟨summoned, u, -, goesOn⟩ := invocation_resumes reached
  have done : (performWith (perform depth) here references
    (.range offset (.userRange name) (before ++ .key k :: rest))).run start = .ok ticks t := done
  rw [goesOn] at done
  obtain ⟨_, -, rfl, less⟩ := (follows_playKeys_below
    ((upkeep_below s.gas.remaining).simulation.follows_perform depth) summoned k).ok
      ⟨rfl, Nat.lt_succ_self s.gas.remaining⟩ done
  exact less

/-- A later key finds less gas. -/
theorem later (invokes : Invokes depth call before s) (invokes' : Invokes depth call before' s')
    {k : Key} (longer : before' = before ++ .key k :: rest) :
    s'.gas.remaining < s.gas.remaining := by
  obtain ⟨offset, name, _, _, ticks, whole, reached⟩ := invokes
  obtain ⟨offset', name', _, _, ticks', whole', reached'⟩ := invokes'
  obtain ⟨rfl, same, -⟩ := Item.range.inj (whole.symm.trans whole')
  obtain rfl := RangeKind.userRange.inj same
  subst longer
  let shorter : Call :=
    { call with item := .range offset (.userRange name) (before ++ .key k :: rest) }
  have invokes : Invokes depth shorter before s := ⟨_, _, _, _, _, rfl, reached⟩
  exact invokes.spends reached'

/-- Two keys of one invocation that find the same gas are one. -/
theorem unique (invokes : Invokes depth call before s) (invokes' : Invokes depth call before' s')
    (gas : s.gas.remaining = s'.gas.remaining) : before = before' ∧ s = s' := by
  obtain ⟨offset, name, k, rest, ticks, whole, reached⟩ := invokes.reached
  obtain ⟨offset', name', k', rest', ticks', whole', reached'⟩ := invokes'.reached
  obtain ⟨rfl, same, bodies⟩ := Item.range.inj (whole.symm.trans whole')
  obtain rfl := RangeKind.userRange.inj same
  rcases List.append_eq_append_iff.mp bodies with ⟨more, longer, tail⟩ | ⟨more, longer, tail⟩
  · cases more with
    | nil =>
      rw [List.append_nil] at longer
      subst longer
      exact ⟨rfl, (EStateM.Result.ok.inj (reached.symm.trans reached')).2⟩
    | cons item more =>
      obtain rfl := (List.cons.inj tail).1
      exact absurd (invokes.later invokes' longer) (Nat.not_lt_of_le (Nat.le_of_eq gas))
  · cases more with
    | nil =>
      rw [List.append_nil] at longer
      subst longer
      exact ⟨rfl, (EStateM.Result.ok.inj (reached.symm.trans reached')).2⟩
    | cons item more =>
      obtain rfl := (List.cons.inj tail).1
      exact absurd (invokes'.later invokes longer) (Nat.not_lt_of_le (Nat.le_of_eq gas.symm))

/-- Once a key is reached, only what is answered for less gas than it finds matters. -/
theorem agree_of_reached {before : List Item} {start : Session}
    (alike : ∀ other : Call, other.session.gas.remaining < s.gas.remaining →
      inner.answer other = (perform depth).answer other)
    (reached : (performWith (perform depth) here references
      (.range offset (.userRange name) before)).run start = .ok ticks s)
    (reached' : (performWith inner here references
      (.range offset (.userRange name) before)).run start = .ok ticks s)
    (k : Key) (rest : List Item) :
    Coupling.Agree Eq (fun _ => Session.below s.gas.remaining)
      ((performWith (perform depth) here references
        (.range offset (.userRange name) (before ++ .key k :: rest))).run start)
      ((performWith inner here references
        (.range offset (.userRange name) (before ++ .key k :: rest))).run start) := by
  obtain ⟨summoned, _, found, goesOn⟩ := invocation_resumes reached
  obtain ⟨summoned', _, found', goesOn'⟩ := invocation_resumes reached'
  obtain rfl := (EStateM.Result.ok.inj (found.symm.trans found')).1
  rw [goesOn, goesOn']
  exact (follows_playKeys_below (follows_alike_below alike) summoned k).both s s
    ⟨rfl, Nat.lt_succ_self _⟩

/-- What an invocation performs before it comes to a key has left the gas that the key finds, and
what it performs after that finds less. -/
theorem around (invokes : Invokes depth call before s) (asks : Asks (perform depth) call other)
    (real : other.session.measuring = false) :
    other.session.gas.remaining < s.gas.remaining ∨
      ∃ ticks t, (perform depth).answer other = .ok ticks t ∧
        s.gas.remaining ≤ t.gas.remaining := by
  by_contra neither
  obtain ⟨early, late⟩ := not_or.mp neither
  obtain ⟨here, references, _, start⟩ := call
  obtain ⟨offset, name, k, rest, ticks, rfl, reached⟩ := invokes
  let shorter : Call := ⟨here, references, .range offset (.userRange name) before, start⟩
  have refused (fault : Fault) : ∃ u, (performWith (perform depth)).answer
      ⟨here, references, .range offset (.userRange name) (before ++ .key k :: rest), start⟩ =
        .error fault u := by
    obtain ⟨refusing, refuses⟩ := exists_refuses other fault (perform depth)
    have outruns : Outruns depth fault s.gas.remaining refusing (perform depth) := by
      refine ⟨fun made => .inr ⟨rfl, ?_⟩, fun _ _ => rfl, fun made measured => ⟨?_, rfl⟩⟩
      · by_cases same : made = other
        · exact .inr (same ▸ ⟨refuses.refused, fun {ticks t} done =>
            Nat.lt_of_not_le fun enough => late ⟨ticks, t, done, enough⟩⟩)
        · exact .inl (refuses.otherwise made same)
      · refine refuses.otherwise made ?_
        rintro rfl
        exact Bool.noConfusion (real.symm.trans measured)
    -- Had it been refused before the key, too little gas would have been left for the key.
    have reached' : (performWith refusing).answer shorter = .ok ticks s := by
      have agree := outruns.agree shorter
      rw [show (performWith (perform depth)).answer shorter = .ok ticks s from reached] at agree
      generalize (performWith refusing).answer shorter = result at agree ⊢
      cases result with
      | error fault' v => exact absurd agree.2 (Nat.lt_irrefl _)
      | ok ticks' v =>
        obtain ⟨rfl, rfl, -⟩ := agree
        rfl
    have alike (made : Call) (less : made.session.gas.remaining < s.gas.remaining) :
        refusing.answer made = (perform depth).answer made := by
      refine refuses.otherwise made ?_
      rintro rfl
      exact early less
    have same := agree_of_reached alike reached reached' k rest
    obtain ⟨u, failed⟩ := asks fault refusing refuses
    simp only [Performer.answer] at failed ⊢
    rw [failed] at same
    generalize (performWith (perform depth) here references _).run start = result at same ⊢
    cases result with
    | ok => exact same.elim
    | error fault' v => exact ⟨v, congrArg (EStateM.Result.error · v) same⟩
  obtain ⟨_, failed⟩ := refused ⟨.exhausted, 0⟩
  obtain ⟨_, failed'⟩ := refused ⟨.exhausted, 1⟩
  cases failed.symm.trans failed'

end Invokes

end TextScore.Session
