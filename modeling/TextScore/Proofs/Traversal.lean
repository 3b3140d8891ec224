import TextScore.Proofs.Duets

/-! Two performances on the same timeline. Where every small step of a performance, down to the single
note, keeps a family of couplings, performing an item keeps it, too. -/
namespace TextScore.Session
open Step (Follows)
open Scene

section Drafts
open Modifier
variable {staged : Staged} {d : Draft}

/-- The second draft is what ornaments have made of the first one. -/
def Yields (d e : Draft) : Prop := e.grace = d.grace ∧ e.pitches.length = d.pitches.length

theorem yielded_clip {notes clipped : List Draft} {cut : Nat}
    (done : clip notes = some (clipped, cut)) (listed : d ∈ clipped) : ∃ e ∈ notes, Yields e d := by
  induction notes generalizing clipped cut with
  | nil => exact nomatch done
  | cons draft notes ih =>
    rw [clip] at done
    have later {clipped : List Draft} {cut : Nat} (below : clip notes = some (clipped, cut))
        (listed : d ∈ clipped) : ∃ e ∈ draft :: notes, Yields e d := by
      obtain ⟨e, member, same⟩ := ih below listed
      exact ⟨e, List.mem_cons_of_mem draft member, same⟩
    split at done
    · next below =>
      cases done
      rcases List.mem_cons.mp listed with rfl | listed
      · exact ⟨_, List.mem_cons_self, rfl, rfl⟩
      · exact later below listed
    · split at done
      · exact nomatch done
      · cases done
        rcases List.mem_cons.mp listed with rfl | listed
        · exact ⟨_, List.mem_cons_self, rfl, rfl⟩
        · exact ⟨d, List.mem_cons_of_mem draft listed, rfl, rfl⟩

theorem yielded_strokes {e : Draft} (listed : d ∈ strokes e) : Yields e d := by
  unfold strokes at listed
  split at listed
  · exact List.mem_singleton.mp listed ▸ ⟨rfl, rfl⟩
  · obtain ⟨index, -, rfl⟩ := List.mem_map.mp listed
    refine ⟨rfl, ?_⟩
    unfold stroke
    dsimp only
    split
    · rfl
    · exact List.length_map _

/-- An ornament makes drafts of those that were staged. -/
theorem yielded_apply (onset : Nat) (modifier : Modifier)
    (listed : d ∈ (apply onset staged modifier).notes) : ∃ e ∈ staged.notes, Yields e d := by
  have mapped {f : Draft → Draft} (same : ∀ e, Yields e (f e)) (listed : d ∈ staged.notes.map f) :
      ∃ e ∈ staged.notes, Yields e d := by
    obtain ⟨e, member, rfl⟩ := List.mem_map.mp listed
    exact ⟨e, member, same e⟩
  cases modifier with
  | fermata factor =>
    refine mapped (fun e => ?_) listed
    split <;> exact ⟨rfl, rfl⟩
  | staccato =>
    dsimp only [apply] at listed
    split at listed
    · next clipped => exact yielded_clip clipped listed
    · exact ⟨d, listed, rfl, rfl⟩
  | sforzando =>
    exact mapped (f := fun e => { e with velocity := sforzandoVelocity }) (fun _ => ⟨rfl, rfl⟩) listed
  | trill =>
    obtain ⟨e, member, listed⟩ := List.mem_flatMap.mp listed
    exact ⟨e, member, yielded_strokes listed⟩
  | dynamics ramp =>
    dsimp only [apply] at listed
    rw [← List.map_uncurry_zip_eq_zipWith] at listed
    obtain ⟨pair, shaded, rfl⟩ := List.mem_map.mp listed
    exact ⟨pair.1, (List.of_mem_zip shaded).1, rfl, rfl⟩
  | substitute => exact ⟨d, listed, rfl, rfl⟩

theorem yielded_applyAll (stack : List Modifier) (onset : Nat)
    (listed : d ∈ (applyAll stack onset staged).notes) : ∃ e ∈ staged.notes, Yields e d := by
  induction stack generalizing staged with
  | nil => exact ⟨d, listed, rfl, rfl⟩
  | cons modifier stack ih =>
    obtain ⟨e, member, grace, pitches⟩ := ih listed
    obtain ⟨e', member, grace', pitches'⟩ := yielded_apply onset modifier member
    exact ⟨e', member, grace.trans grace', pitches.trans pitches'⟩

/-- A note or an arpeggio that is staged has pitches. Those of graces do not matter. -/
def Sounds (staged : Staged) : Prop := ∀ d ∈ staged.notes, ¬ d.grace → d.pitches ≠ []

/-- Ornaments take no pitch away. -/
theorem Sounds.applyAll (sounds : Sounds staged) (stack : List Modifier) (onset : Nat) :
    Sounds (Modifier.applyAll stack onset staged) := by
  intro d listed main none
  obtain ⟨e, member, grace, pitches⟩ := yielded_applyAll stack onset listed
  refine sounds e member (grace ▸ main) (List.length_eq_zero_iff.mp ?_)
  rw [← pitches, none, List.length_nil]

/-- The unit of a timeline that is staged sounds all pitches. -/
theorem sounds_stage {here : TimelineId} {pitches : List Nat} (some : pitches ≠ []) {s t : Session}
    {plain : Staged} (done : (stage here pitches).run s = .ok plain t) : Sounds plain := by
  obtain ⟨_, _, read, done⟩ := Step.bind_ok done
  cases read
  obtain ⟨_, _, taken, done⟩ := Step.bind_ok done
  cases taken
  have main (duration velocity : Nat) :
      ∀ d ∈ [(⟨pitches, duration, velocity, false⟩ : Draft)], ¬ d.grace → d.pitches ≠ [] :=
    List.forall_mem_singleton.mpr fun _ => some
  split at done
  · cases done
    exact main _ _
  · cases (Step.unless_ok done).2
    refine List.forall_mem_append.mpr ⟨fun d listed sounding => ?_, main _ _⟩
    obtain ⟨_, -, rfl⟩ := List.mem_map.mp listed
    exact absurd rfl sounding

end Drafts

/-- The primitive steps on a timeline from which performing items is built. -/
inductive Primitive (here : TimelineId) : {α : Type} → Play α → Prop
  | burn (offset : Nat) : Primitive here (burn offset)
  | change {f : Timeline → Timeline} (change : Timeline.Change f) : Primitive here (adjust here f)
  | beginTuplet (offset size : Nat) :
    Primitive here (onTimeline here (Timeline.beginTuplet offset size))
  | reserve (count : Nat) : Primitive here (update here (Timeline.reserve count))
  | rest : Primitive here (update here Timeline.rest)
  | note (offset : Nat) (staged : Staged) :
    Primitive here (update here (Timeline.commit offset staged))
  | arpeggio (offset : Nat) (staged : Staged) (interval : Nat) (sounds : Sounds staged) :
    Primitive here (onArena (Arena.commitArpeggio here offset staged interval))
  | tie (offset : Nat) : Primitive here (onArena (Arena.tie here offset))
  | definitions {α : Type} {step : Step Definitions α} (request : Definitions.Request step) :
    Primitive here (onDefinitions step)
  | modifiers (f : List Modifier → List Modifier) :
    Primitive here (modify fun s => { s with modifiers := f s.modifiers })
  | graces (graces : Option (Nat × List (List Nat))) :
    Primitive here (modify fun s => { s with graces := graces })
  | onsets (f : Option (Nat × Nat) → Option (Nat × Nat)) :
    Primitive here (modify fun s => { s with onsets := f s.onsets })
  | restore (definitions : Definitions) (fermata : Binary64) : Primitive here
    (modify fun s => { s with definitions := definitions, fermata := fermata })

/-- What a performance reads of a session between its primitive steps. -/
structure Alike (s s' : Session) : Prop where
  timeline : ∀ id, (s.arena.timeline id).Alike (s'.arena.timeline id)
  definitions : s.definitions = s'.definitions
  fermata : s.fermata = s'.fermata
  modifiers : s.modifiers = s'.modifiers
  graces : s.graces = s'.graces
  onsets : s.onsets = s'.onsets
  measuring : s.measuring = s'.measuring

theorem Alike.refl (s : Session) : s.Alike s :=
  ⟨fun _ => ⟨rfl, rfl, rfl⟩, rfl, rfl, rfl, rfl, rfl, rfl⟩

/-- A family of couplings that the primitive steps keep. A member belongs to a session that is
measured or not and to the timelines in use; a branch of a parallel passage brings another one
into use. -/
structure Unison (meets : Fault → Fault → Prop)
    (K : (measuring : Bool) → (live : List TimelineId) → Coupling Session) : Prop where
  reflexive : ∀ fault, meets fault fault
  loose : ∀ {m live fault fault' s}, (K m live).alone fault s → fault'.cause ≠ .unexpectedEnd →
    meets fault fault'
  alike : ∀ {m live s s'}, (K m live).both s s' → s.Alike s'
  shrink : ∀ {m live live'}, live ⊆ live' → (K m live').Within (K m live)
  primitive : ∀ {m live here α} {p : Play α}, here ∈ live → Primitive here p →
    Follows meets (K m live) p p fun _ => K m live
  branch : ∀ {m live here}, here ∈ live → ∀ offset index,
    Follows meets (K m live) (onArena (Arena.childAt here offset (.branch index)))
      (onArena (Arena.childAt here offset (.branch index))) fun child => K m (child :: live)

/-- A family that is kept on the copies that are measured, too. -/
structure Simulation (meets : Fault → Fault → Prop)
    (K : (measuring : Bool) → (live : List TimelineId) → Coupling Session) : Prop
    extends Unison meets K where
  lone : ∀ {m live fault s}, (K m live).alone fault s →
    (K true live).alone fault s.measured ∨ ∀ fault', meets fault fault'
  copy : ∀ {m live s s'}, (K m live).both s s' → (K true live).both s.measured s'.measured
  copyAlone : ∀ {m live fault s s' t'}, (K m live).both s s' → (K true live).alone fault t' →
    (K m live).alone fault s'

/-- Whatever item is performed on a timeline in use, one performer follows the other. -/
def Performer.Follows (meets : Fault → Fault → Prop)
    (K : (measuring : Bool) → (live : List TimelineId) → Coupling Session)
    (inner inner' : Performer) : Prop :=
  ∀ ⦃m live here⦄, here ∈ live → ∀ references item, Step.Follows meets (K m live)
    (inner here references item) (inner' here references item) fun _ => K m live

/-- A performance is measured or not, and some timelines are in use. -/
structure Usage where
  measuring : Bool
  live : List TimelineId

instance : Scene Usage where
  after _ use := use
  under _ use := use
  copied use := { use with measuring := true }
  graced use := use
  mixed _ := False
  after_zero _ := rfl
  after_add _ _ _ := rfl

/-- Both performances are on one timeline in use. -/
def shared (K : (measuring : Bool) → (live : List TimelineId) → Coupling Session)
    (here here' : TimelineId) (use : Usage) : Coupling Session :=
  (K use.measuring use.live).provided (here = here' ∧ here ∈ use.live)

theorem follows_shared {meets : Fault → Fault → Prop}
    {K : (measuring : Bool) → (live : List TimelineId) → Coupling Session} {here here' : TimelineId}
    {use : Usage} {α : Type} {p q : Play α} (h : here = here' → here ∈ use.live →
      Follows meets (K use.measuring use.live) p q fun _ => K use.measuring use.live) :
    Follows meets (shared K here here' use) p q fun _ => shared K here here' use :=
  .provided fun known => (h known.1 known.2).mono (.refl _) fun _ =>
    ⟨fun coupled => ⟨known, coupled⟩, fun left => ⟨known, left⟩⟩

namespace Unison
variable {meets : Fault → Fault → Prop}
  {K : (measuring : Bool) → (live : List TimelineId) → Coupling Session}
  {inner inner' : Performer} {m : Bool} {live : List TimelineId} {here : TimelineId}
  {α β : Type} {Q : β → Coupling Session}

theorem follows_pure (a : α) :
    Follows meets (K m live) (Pure.pure a) (Pure.pure a) fun _ => K m live :=
  Follows.pure (Q := fun _ => K m live) a

theorem follows_unless (unison : Unison meets K) {c : Prop} [Decidable c] {offset : Nat}
    {cause : Cause} {f g : PUnit → Play β} (played : cause ≠ .unexpectedEnd)
    (rest : Follows meets (K m live) (f ⟨⟩) (g ⟨⟩) Q) :
    Follows meets (K m live) (if c then Step.failAt offset cause >>= f else f ⟨⟩)
      (if c then Step.failAt offset cause >>= g else g ⟨⟩) Q := by
  split
  · exact ⟨fun s s' _ => unison.reflexive _, fun fault s' left => unison.loose left played⟩
  · exact rest

theorem andThen (unison : Unison meets K) (member : here ∈ live) {p : Play α}
    (primitive : Primitive here p) {f g : α → Play β}
    (rest : ∀ a, Follows meets (K m live) (f a) (g a) Q) :
    Follows meets (K m live) (p >>= f) (p >>= g) Q :=
  (unison.primitive member primitive).bind rest

theorem follows_session (unison : Unison meets K) {f g : Session → Play β}
    (rest : ∀ s s' : Session, s.Alike s' → Follows meets (K m live) (f s) (g s') Q) :
    Follows meets (K m live) (get >>= f) (get >>= g) Q :=
  ⟨fun s s' coupled => (rest s s' (unison.alike coupled)).both s s' coupled,
    fun fault s' left => (rest s' s' (.refl s')).alone fault s' left⟩

theorem follows_timeline (unison : Unison meets K) {f g : Timeline → Play β}
    (rest : ∀ t t' : Timeline, t.Alike t' → Follows meets (K m live) (f t) (g t') Q) :
    Follows meets (K m live) (timeline here >>= f) (timeline here >>= g) Q :=
  ⟨fun s s' coupled =>
      (rest _ _ ((unison.alike coupled).timeline here)).both s s' coupled,
    fun fault s' left => (rest _ _ ⟨rfl, rfl, rfl⟩).alone fault s' left⟩

theorem follows_stage (unison : Unison meets K) (member : here ∈ live) (pitches : List Nat) :
    Follows meets (K m live) (stage here pitches) (stage here pitches) fun _ => K m live := by
  have taken : takeGraces = (do
      let s ← get
      modify fun s => { s with graces := none }
      return s.graces) := rfl
  apply unison.follows_timeline
  intro t t' alike
  rw [alike.state, taken]
  refine Follows.bind (Q := fun _ => K m live) (unison.follows_session fun s s' alike => ?_)
    fun graces => ?_
  · rw [alike.graces]
    exact unison.andThen member (.graces none) fun _ => follows_pure _
  · cases graces with
    | none => exact follows_pure _
    | some graces => exact unison.follows_unless nofun (follows_pure _)

theorem follows_commit (unison : Unison meets K) (member : here ∈ live) (offset : Nat)
    (pitches : List Nat) (arpeggio : Bool) (some : pitches ≠ []) :
    Follows meets (K m live) (commit here offset pitches arpeggio)
      (commit here offset pitches arpeggio) fun _ => K m live := by
  apply unison.follows_timeline
  intro t t' alike
  rw [alike.position]
  apply ((unison.follows_stage member pitches).known (sounds_stage some)).bind
  intro plain
  refine .provided fun sounds => unison.follows_session fun s s' alike => ?_
  rw [alike.modifiers]
  refine unison.andThen member (.onsets fun onsets =>
    (Draft.onsets t'.position
      (Modifier.applyAll s'.modifiers t'.position plain).notes).foldl widen onsets) fun _ => ?_
  cases arpeggio with
  | true => exact unison.primitive member (.arpeggio _ _ _ (sounds.applyAll _ _))
  | false => exact unison.primitive member (.note ..)

/-- While a passage is played its children are in use, the same ones in both performances. -/
def passing (K : (measuring : Bool) → (live : List TimelineId) → Coupling Session)
    (here here' : TimelineId) (use : Usage) (_ : Nat) (pairs : List (TimelineId × TimelineId)) :
    Coupling Session :=
  (shared K here here' ⟨use.measuring, pairs.map Prod.fst ++ use.live⟩).provided
    ((∀ pair ∈ pairs, pair.1 = pair.2) ∧ here ∈ use.live)

theorem fork (unison : Unison meets K) (here here' : TimelineId) (use : Usage) (count : Nat) :
    Fork meets (shared K) (shared K here here' use) here here' count (passing K here here' use)
      (passing K here here' use) fun _ => shared K here here' use := by
  have leave {ticks : Nat} {pairs : List (TimelineId × TimelineId)} :
      (passing K here here' use ticks pairs).Within (shared K here here' use) :=
    ⟨fun h => ⟨⟨h.2.1.1, h.1.2⟩, (unison.shrink (List.subset_append_right ..)).both h.2.2⟩,
      fun h => ⟨⟨h.2.1.1, h.1.2⟩, (unison.shrink (List.subset_append_right ..)).alone h.2.2⟩⟩
  refine ⟨?_, ?_, ?_, ?_, leave⟩
  · refine .provided ?_
    rintro ⟨rfl, member⟩
    refine (unison.primitive member (.reserve count)).mono (.refl _) fun _ => ?_
    exact ⟨fun h => ⟨⟨nofun, member⟩, ⟨rfl, member⟩, h⟩, fun h => ⟨⟨nofun, member⟩, ⟨rfl, member⟩, h⟩⟩
  · rintro α base pairs offset f g R - rest
    refine .provided fun known => .provided ?_
    rintro ⟨rfl, listed⟩
    refine (unison.branch listed offset _).bind fun child => (rest child child).mono ?_ fun _ => .refl _
    have live : (pairs ++ [(child, child)]).map Prod.fst ++ use.live ⊆
        child :: (pairs.map Prod.fst ++ use.live) := by
      intro id
      simp only [List.map_append, List.map_cons, List.map_nil, List.mem_append, List.mem_cons,
        List.not_mem_nil, or_false]
      rintro ((old | new) | own)
      · exact .inr (.inl old)
      · exact .inl new
      · exact .inr (.inr own)
    have facts : ((∀ pair ∈ pairs ++ [(child, child)], pair.1 = pair.2) ∧ here ∈ use.live) ∧
        here = here ∧ here ∈ (pairs ++ [(child, child)]).map Prod.fst ++ use.live := by
      refine ⟨⟨fun pair member => ?_, known.2⟩, rfl, List.mem_append_right _ known.2⟩
      rcases List.mem_append.mp member with old | new
      · exact known.1 pair old
      · obtain rfl := List.mem_singleton.mp new
        rfl
    exact ⟨fun h => ⟨facts.1, facts.2, (unison.shrink live).both h⟩,
      fun h => ⟨facts.1, facts.2, (unison.shrink live).alone h⟩⟩
  · intro base pairs _
    have closes (known : (∀ pair ∈ pairs, pair.1 = pair.2) ∧ here ∈ use.live) (ticks : Nat) :
        Follows meets (shared K here here' ⟨use.measuring, pairs.map Prod.fst ++ use.live⟩)
          (adjust here (Timeline.release base)) (adjust here' (Timeline.release base))
          fun _ => passing K here here' use ticks pairs := by
      refine (follows_shared fun same member => ?_).mono (.refl _) fun _ =>
        ⟨fun h => ⟨known, h⟩, fun h => ⟨known, h⟩⟩
      subst same
      exact unison.primitive member (.change (.release base))
    exact ⟨fun h => ⟨_, closes h.1, h.2⟩, fun h => ⟨_, closes h.1, h.2⟩⟩
  · intro ticks pair pairs
    let entered : Usage := ⟨use.measuring, pair.1 :: pairs.map Prod.fst ++ use.live⟩
    have closes (known : (∀ other ∈ pair :: pairs, other.1 = other.2) ∧ here ∈ use.live)
        (same : here = here') :
        (shared K pair.1 pair.2 entered).Within (passing K here here' use ticks pairs) := by
      have facts : ((∀ pair ∈ pairs, pair.1 = pair.2) ∧ here ∈ use.live) ∧
          here = here' ∧ here ∈ pairs.map Prod.fst ++ use.live :=
        ⟨⟨fun other member => known.1 other (List.mem_cons_of_mem pair member), known.2⟩, same,
          List.mem_append_right _ known.2⟩
      have live : pairs.map Prod.fst ++ use.live ⊆ entered.live :=
        List.subset_cons_of_subset _ (List.Subset.refl _)
      exact ⟨fun h => ⟨facts.1, facts.2, (unison.shrink live).both h.2⟩,
        fun h => ⟨facts.1, facts.2, (unison.shrink live).alone h.2⟩⟩
    have enter (known : (∀ other ∈ pair :: pairs, other.1 = other.2) ∧ here ∈ use.live) :
        pair.1 = pair.2 ∧ pair.1 ∈ entered.live :=
      ⟨known.1 pair List.mem_cons_self, List.mem_cons_self⟩
    exact ⟨fun h => ⟨entered, closes h.1 h.2.1.1, enter h.1, h.2.2⟩,
      fun h => ⟨entered, closes h.1 h.2.1.1, enter h.1, h.2.2⟩⟩

theorem ensemble (unison : Unison meets K) : Ensemble meets (shared K) where
  fails _ := unison.reflexive _
  loose left played := unison.loose left.2 played
  consonant := by
    rintro here _ use s s' ⟨⟨rfl, -⟩, coupled⟩
    have alike := unison.alike coupled
    exact ⟨alike.timeline here, alike.definitions, alike.fermata,
      congrArg Modifier.substitution? alike.modifiers, alike.graces⟩
  gesture gesture := follows_shared fun same member => by
    subst same
    cases gesture with
    | burn offset => exact unison.primitive member (.burn offset)
    | change tweak => exact unison.primitive member (.change tweak.change)
    | beginTuplet offset size => exact unison.primitive member (.beginTuplet offset size)
    | definitions request => exact unison.primitive member (.definitions request)
    | restore definitions fermata => exact unison.primitive member (.restore definitions fermata)
  sound sounding := follows_shared fun same member => by
    subst same
    cases sounding with
    | rest => exact unison.primitive member .rest
    | tie offset => exact unison.primitive member (.tie offset)
    | commit offset pitches arpeggio some =>
      exact unison.follows_commit member offset pitches arpeggio some
  push m := follows_shared fun _ member => unison.primitive member (.modifiers (m :: ·))
  pop := follows_shared fun _ member => unison.primitive member (.modifiers List.tail)
  prepare waiting := follows_shared fun _ member => unison.primitive member (.graces (some waiting))
  graceful := .refl _
  clear := follows_shared fun _ member => unison.primitive member (.graces none)
  fork here here' use count := ⟨_, _, unison.fork here here' use count⟩

theorem accompanies (follows : Performer.Follows meets K inner inner') :
    Performer.Accompanies meets (shared K) inner inner' := by
  intro here here' use references item
  refine follows_shared fun same member => ?_
  subst same
  exact follows member references item

/-- Where two performers keep to the timelines in use, they keep the couplings. -/
theorem of_shared {p q : Play α} (member : here ∈ live) (follows : Follows meets
      (shared K here here ⟨m, live⟩) p q fun _ => shared K here here ⟨m, live⟩) :
    Follows meets (K m live) p q fun _ => K m live :=
  follows.mono ⟨fun coupled => ⟨⟨rfl, member⟩, coupled⟩, fun left => ⟨⟨rfl, member⟩, left⟩⟩
    fun _ => ⟨And.right, And.right⟩

theorem follows_all (follows : Performer.Follows meets K inner inner')
    (member : here ∈ live) (references : Nat) (items : List Item) :
    Follows meets (K m live) (performAll inner here references items)
      (performAll inner' here references items) fun _ => K m live :=
  of_shared member (Ensemble.follows_all (accompanies follows) references items)

end Unison

namespace Simulation
open Unison
variable {meets : Fault → Fault → Prop}
  {K : (measuring : Bool) → (live : List TimelineId) → Coupling Session}
  {inner inner' : Performer} {m : Bool} {live : List TimelineId} {here : TimelineId}

theorem duet (sim : Simulation meets K) : Duet meets (shared K) where
  toEnsemble := sim.ensemble
  lone left := (sim.lone left.2).imp_left fun copied => ⟨left.1, copied⟩
  measuring _ coupled := (sim.alike coupled.2).measuring
  copy _ coupled := ⟨coupled.1, sim.copy coupled.2⟩
  copyAlone _ coupled left := ⟨coupled.1, sim.copyAlone coupled.2 left.2⟩
  onsets coupled := (sim.alike coupled.2).onsets
  solo mixed := mixed.elim

/-- What comes after the opening is performed alike. -/
theorem exists_opened (sim : Simulation meets K) (follows : Performer.Follows meets K inner inner')
    (member : here ∈ live) (references : Nat) (item : Item) :
    (∃ offset value, item = .breakpoint offset value) ∨ ∃ p p',
      performWith inner here references item = opened here item.offset p ∧
      performWith inner' here references item = opened here item.offset p' ∧
      Follows meets (K m live) p p' fun _ => K m live := by
  rcases sim.duet.exists_opened (accompanies follows) references item with
    breakpoint | ⟨p, p', first, second, rest⟩
  · exact .inl breakpoint
  · exact .inr ⟨p, p', first, second, of_shared member rest⟩

theorem follows_with (sim : Simulation meets K) (follows : Performer.Follows meets K inner inner') :
    Performer.Follows meets K (performWith inner) (performWith inner') :=
  fun _ _ _ member references item =>
    of_shared member (sim.duet.follows_with (accompanies follows) references item)

theorem follows_perform (sim : Simulation meets K) (depth : Nat) :
    Performer.Follows meets K (perform depth) (perform depth) :=
  fun _ _ _ member references item =>
    of_shared member (sim.duet.follows_perform depth references item)

/-- More depth never hurts, where running out of gas may be answered in any way. -/
theorem follows_deeper (sim : Simulation meets K)
    (excused : ∀ offset fault', meets ⟨.exhausted, offset⟩ fault')
    (goesOn : ∀ m live offset s, (K m live).alone ⟨.exhausted, offset⟩ s)
    {depth depth' : Nat} (deeper : depth ≤ depth') :
    Performer.Follows meets K (perform depth) (perform depth') := by
  intro m live here member references item
  refine of_shared member (sim.duet.follows_deeper excused ?_ deeper references item)
  exact fun offset ticks t coupled => ⟨coupled.1, goesOn ..⟩

end Simulation
end TextScore.Session
