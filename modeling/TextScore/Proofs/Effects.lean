import TextScore.Proofs.Upkeep

/-! What the primitive steps of a performance may change. Each changes the arena by one action on
one timeline, and none of them touches the channels, the conductor or the measuring of a session. -/
namespace TextScore

namespace Arena
variable {α : Type} {id : TimelineId} {arena : Arena}

theorem adjust_congr {f g : Timeline → Timeline}
    (same : f (arena.timeline id) = g (arena.timeline id)) : arena.adjust id f = arena.adjust id g := by
  refine congrArg Arena.mk (Array.ext (by simp only [Array.size_modify]) fun i h _ => ?_)
  rw [Array.size_modify] at h
  simp only [Array.getElem_modify]
  split
  · next here =>
    subst here
    simpa only [timeline, Array.getElem?_eq_getElem h, Option.getD_some] using same
  · rfl

theorem timeline_out (h : arena.timelines.size ≤ id) : arena.timeline id = { channel := 0 } := by
  simp only [timeline, Array.getElem?_eq_none h, Option.getD_none]

theorem adjust_out (h : arena.timelines.size ≤ id) (f : Timeline → Timeline) :
    arena.adjust id f = arena := by
  refine congrArg Arena.mk (Array.ext (by simp only [Array.size_modify]) fun i _ inside => ?_)
  simp only [Array.getElem_modify]
  rw [if_neg (by omega)]

theorem on_run (step : Step Timeline α) : (on id step).run arena =
    match step.run (arena.timeline id) with
    | .ok a t => .ok a (arena.adjust id fun _ => t)
    | .error fault t => .error fault (arena.adjust id fun _ => t) := by
  by_cases h : id < arena.timelines.size
  · apply (on_eq id step arena h).trans
    have set (t : Timeline) : (⟨arena.timelines.set id t⟩ : Arena) = arena.adjust id fun _ => t := by
      refine congrArg Arena.mk (Array.ext (by simp only [Array.size_set, Array.size_modify])
        fun i _ _ => ?_)
      simp only [Array.getElem_set, Array.getElem_modify]
    cases step.run (arena.timeline id) with
    | ok a t => exact congrArg (EStateM.Result.ok a) (set t)
    | error fault t => exact congrArg (EStateM.Result.error fault) (set t)
  · have out := Nat.le_of_not_lt h
    have alone : (on id step).run arena = _ := dif_neg h
    rw [alone, timeline_out out]
    cases step.run { channel := 0 } with
    | ok a t => exact congrArg (EStateM.Result.ok a) (adjust_out out _).symm
    | error fault t => exact congrArg (EStateM.Result.error fault) (adjust_out out _).symm

theorem update_run (change : Timeline → α × Timeline) : (update id change).run arena =
    .ok (change (arena.timeline id)).1 (arena.adjust id fun t => (change t).2) := by
  apply (on_run _).trans
  exact congrArg (EStateM.Result.ok _) (adjust_congr rfl)

end Arena

/-- What one primitive step does to the timeline that it is performed on. -/
inductive Timeline.Played : Timeline → Timeline → Prop
  | change {t : Timeline} {f : Timeline → Timeline} (change : Change f) : Played t (f t)
  | beginTuplet {t t' : Timeline} {offset size unit : Nat}
    (done : (beginTuplet offset size).run t = .ok unit t') : Played t t'
  | reserve (t : Timeline) (count : Nat) : Played t (t.reserve count).2
  | rest (t : Timeline) : Played t t.rest.2
  | note (t : Timeline) (offset : Nat) (staged : Staged) : Played t (t.commit offset staged).2

/-- What one primitive step on the timeline `here` does to the arena. -/
inductive Arena.Played (here : TimelineId) (arena : Arena) : Arena → Prop
  | silent : Played here arena arena
  | timeline {f : Timeline → Timeline}
    (played : (arena.timeline here).Played (f (arena.timeline here))) :
    Played here arena (arena.adjust here f)
  | tie {offset ticks : Nat} {arena' : Arena}
    (done : (Arena.tie here offset).run arena = .ok ticks arena') : Played here arena arena'
  | arpeggio {offset interval ticks : Nat} {staged : Staged} {arena' : Arena}
    (sounds : Session.Sounds staged)
    (done : (Arena.commitArpeggio here offset staged interval).run arena = .ok ticks arena') :
    Played here arena arena'

namespace Session
variable {α : Type} {here : TimelineId} {s t : Session} {a : α}

theorem onArena_run (step : Step Arena α) (s : Session) : (onArena step).run s =
    match step.run s.arena with
      | .ok a arena => .ok a { s with arena := arena }
      | .error fault arena => .error fault { s with arena := arena } := rfl

theorem onArena_ok {step : Step Arena α} (done : (onArena step).run s = .ok a t) :
    ∃ arena, step.run s.arena = .ok a arena ∧ t = { s with arena := arena } := by
  rw [onArena_run] at done
  cases ran : step.run s.arena with
  | ok b arena =>
    rw [ran] at done
    cases done
    exact ⟨arena, rfl, rfl⟩
  | error fault arena =>
    rw [ran] at done
    exact nomatch done

/-- Of what a primitive step leaves behind. -/
structure Played (here : TimelineId) (s t : Session) : Prop where
  arena : s.arena.Played here t.arena
  channels : t.channels = s.channels
  conductor : t.conductor = s.conductor
  measuring : t.measuring = s.measuring
  gas : t.gas.remaining ≤ s.gas.remaining

theorem Primitive.played {p : Play α} (primitive : Primitive here p)
    (done : p.run s = .ok a t) : s.Played here t := by
  have onArena {step : Step Arena α} (effect : ∀ {arena arena'},
      step.run arena = .ok a arena' → arena.Played here arena')
      (done : (onArena step).run s = .ok a t) : s.Played here t := by
    obtain ⟨arena, ran, rfl⟩ := onArena_ok done
    exact ⟨effect ran, rfl, rfl, rfl, Nat.le_refl _⟩
  have update {f : Timeline → α × Timeline} (effect : ∀ u : Timeline, u.Played (f u).2)
      (done : (update here f).run s = .ok a t) : s.Played here t := by
    refine onArena (fun {arena arena'} ran => ?_) done
    rw [Arena.update_run] at ran
    cases ran
    exact .timeline (effect _)
  cases primitive with
  | burn offset =>
    rw [burn_run] at done
    split at done
    · exact nomatch done
    · cases done
      exact ⟨.silent, rfl, rfl, rfl, Nat.sub_le ..⟩
  | change change =>
    cases done
    exact ⟨.timeline (.change change), rfl, rfl, rfl, Nat.le_refl _⟩
  | beginTuplet offset size =>
    refine onArena (fun {arena arena'} ran => ?_) done
    rw [Arena.on_run] at ran
    split at ran
    · next begun =>
      cases ran
      exact .timeline (.beginTuplet begun)
    · exact nomatch ran
  | reserve count => exact update (.reserve · count) done
  | rest => exact update .rest done
  | note offset staged => exact update (.note · offset staged) done
  | arpeggio _ _ _ sounds => exact onArena (.arpeggio sounds) done
  | tie => exact onArena .tie done
  | @definitions _ step request =>
    have unfolded : (onDefinitions step).run s = _ := Step.within_run ..
    rw [unfolded] at done
    split at done
    · cases done
      exact ⟨.silent, rfl, rfl, rfl, Nat.le_refl _⟩
    · exact nomatch done
  | modifiers | graces | onsets | restore =>
    cases done
    exact ⟨.silent, rfl, rfl, rfl, Nat.le_refl _⟩

theorem opened_ok {p : Play Nat} {offset ticks : Nat}
    (done : (opened here offset p).run s = .ok ticks t) :
    1 < s.gas.remaining ∧ p.run { s with gas := ⟨s.gas.remaining - 1⟩ } = .ok ticks t := by
  obtain ⟨_, u, burnt, done⟩ := Step.bind_ok done
  rw [burn_run] at burnt
  split at burnt
  · exact nomatch burnt
  · next left =>
    cases burnt
    obtain ⟨_, _, read, done⟩ := Step.bind_ok done
    cases read
    have rest := (Step.unless_ok done).2
    exact ⟨by omega, rest⟩

theorem upkeep_measured : Upkeep fun _ _ s => s.measuring = true where
  shrink _ := id
  primitive _ primitive measured done := (primitive.played done).measuring.trans measured
  branch _ measured done := by
    obtain ⟨_, -, rfl⟩ := onArena_ok done
    exact measured
  copy _ := rfl

theorem upkeep_marked : Upkeep fun m _ s => s.measuring = m where
  shrink _ := id
  primitive _ primitive marked done := (primitive.played done).measuring.trans marked
  branch _ marked done := by
    obtain ⟨_, -, rfl⟩ := onArena_ok done
    exact marked
  copy _ := rfl

/-- An item inside a measured one is measured. -/
theorem Asks.measuring {depth : Nat} {outer call : Call} (asks : Asks (perform depth) outer call)
    (real : call.session.measuring = false) : outer.session.measuring = false := by
  apply Bool.eq_false_iff.mpr
  intro measured
  obtain ⟨_, _, -, measured⟩ :=
    upkeep_measured.asked (m := true) (List.mem_singleton_self outer.here) measured asks
  exact Bool.noConfusion (real.symm.trans measured)

end Session
end TextScore
