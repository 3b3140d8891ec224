import TextScore.Proofs.Versions

/-! Two versions of whole items. Two performers that keep the versions of the items inside an item
together keep the versions of the item together, construct by construct. -/
namespace TextScore.Session
open Step (Follows)
open Coupling (Agree)

variable {lost : Fault → Prop} {γ : Version} {live : List TimelineId} {here : TimelineId}
  {inner inner' : Performer} {α β : Type}

/-- The second performer plays the same items with other keys. `fixed` is the transposition that both
rely on. -/
def Performer.Renders (lost : Fault → Prop) (fixed : Option Int) (inner inner' : Performer) : Prop :=
  ∀ ⦃γ live here⦄, γ.fixed = fixed → γ.Faithful lost → here ∈ live → ∀ references item,
    item.Throughout γ.Permits →
    Tracks lost γ live (inner here references item) (inner' here references (item.mapKeys γ.key))

theorem tracks_items {references : Nat} {items : List Item}
    (each : ∀ item ∈ items, Tracks lost γ live (inner here references item)
      (inner' here references (item.mapKeys γ.key))) :
    Tracks lost γ live (performAll inner here references items)
      (performAll inner' here references (mapAllKeys γ.key items)) := by
  rw [mapAllKeys_eq, performAll, performAll, List.foldlM_map]
  exact Follows.foldlM (fun ticks item member =>
    (each item member).bind fun more => tracks_pure (ticks + more)) 0

theorem tracks_refer (references offset : Nat) :
    Tracks lost γ live (refer references offset) (refer references offset) := by
  unfold refer
  split
  · exact follows_failAt offset _
  · exact tracks_pure _

theorem tracks_opened (faithful : γ.Faithful lost) (member : here ∈ live) (offset : Nat)
    {p q : Play Nat} (rest : Tracks lost γ live p q) :
    Tracks lost γ live (opened here offset p) (opened here offset q) := by
  refine (tracks_burn faithful offset).bind fun _ => follows_timeline member fun t t' doubles _ => ?_
  have position : t.position = t'.position := (congrArg Timeline.position doubles :)
  rw [position]
  exact follows_unless rest

section Constructs
variable (renders : inner.Renders lost γ.fixed inner') (faithful : γ.Faithful lost) (member : here ∈ live)
include renders faithful member

theorem tracks_all (references : Nat) {items : List Item}
    (permitted : ∀ item ∈ items, item.Throughout γ.Permits) :
    Tracks lost γ live (performAll inner here references items)
      (performAll inner' here references (mapAllKeys γ.key items)) :=
  tracks_items fun item listed => renders rfl faithful member references item (permitted item listed)

/-- Where both versions play the same keys they may play anything. -/
theorem tracks_same (same : γ.key = id) (level : γ.gap = 0) (references : Nat) (items : List Item) :
    Tracks lost γ live (performAll inner here references items)
      (performAll inner' here references items) := by
  have permitted : ∀ item ∈ items, item.Throughout γ.Permits := fun item _ =>
    γ.permits_all same level item
  have played := tracks_all renders faithful member references permitted
  rwa [same, mapAllKeys_id] at played

theorem tracks_octave (references : Nat) (octaves : Int) {body : List Item}
    (permitted : ∀ item ∈ body, item.Throughout γ.Permits) :
    Tracks lost γ live (performOctave inner here references octaves body)
      (performOctave inner' here references octaves (mapAllKeys γ.key body)) :=
  (tracks_shiftOctave octaves).bind fun _ =>
    (tracks_all renders faithful member references permitted).bind fun ticks =>
      (tracks_shiftOctave (-octaves)).bind fun _ => tracks_pure ticks

theorem tracks_tuplet (references offset size : Nat) {body : List Item}
    (permitted : ∀ item ∈ body, item.Throughout γ.Permits) :
    Tracks lost γ live (performTuplet inner here references offset size body)
      (performTuplet inner' here references offset size (mapAllKeys γ.key body)) :=
  (tracks_beginTuplet offset size).bind fun unit =>
    (tracks_all renders faithful member references permitted).bind fun ticks =>
      (tracks_adjust (f := Timeline.endTuplet unit) ⟨fun _ _ => rfl, fun _ => rfl⟩
        fun _ => ⟨rfl, rfl⟩).bind fun _ => tracks_pure ticks

theorem tracks_sustain (references : Nat) {body : List Item}
    (permitted : ∀ item ∈ body, item.Throughout γ.Permits) :
    Tracks lost γ live (performSustain inner here references body)
      (performSustain inner' here references (mapAllKeys γ.key body)) := by
  have pedal (value : Nat) : Tracks lost γ live
      (adjust here (Timeline.setController sustainController value))
      (adjust here (Timeline.setController sustainController value)) :=
    tracks_adjust ⟨fun _ _ => rfl, fun _ => rfl⟩ fun _ => ⟨rfl, rfl⟩
  exact (pedal 127).bind fun _ =>
    (tracks_all renders faithful member references permitted).bind fun ticks =>
      (pedal 0).bind fun _ => tracks_pure ticks

/-- The key of an invocation has one pitch in both versions, so they play the same template with it. -/
theorem tracks_invokeKey (level : γ.gap = 0) (references : Nat) (template : List Item) (k : Key) :
    Tracks lost γ live (invokeKey inner here references template k)
      (invokeKey inner' here references template (γ.key k)) := by
  have raised (k : Key) : raise 0 k = k := by
    rw [raise, Int.add_zero]
  have resolved := tracks_keyPitch faithful member 0 k
  rw [raised, raised] at resolved
  refine resolved.bind fun base => follows_timeline member fun t t' doubles apart => ?_
  rw [apart.same level doubles]
  refine (follows_push _ id).bind fun _ => ?_
  have played := tracks_same (γ := γ.under (.substitute base t'.state.octave) id) renders
    (faithful.inside level base _) member rfl level references template
  exact played.bind fun ticks => follows_pop.bind fun _ => tracks_pure ticks

theorem tracks_invokeWith (level : γ.gap = 0) (references : Nat) (name : String)
    (template : List Item) {item : Item} (permitted : item.Throughout γ.Permits) :
    Tracks lost γ live (invokeWith inner here references name template item)
      (invokeWith inner' here references name template (item.mapKeys γ.key)) := by
  cases item with
  | key k =>
    have burnt : Tracks lost γ live (burn k.offset) (burn (γ.key k).offset) := by
      rw [faithful.offset]
      exact tracks_burn faithful k.offset
    exact burnt.bind fun _ => tracks_invokeKey renders faithful member level references template k
  | setting | rest => exact renders rfl faithful member references _ permitted
  | _ => exact follows_failAt _ _

theorem tracks_invoke (level : γ.gap = 0) (references offset : Nat) (name : String)
    {body : List Item} (permitted : ∀ item ∈ body, item.Throughout γ.Permits) :
    Tracks lost γ live (invoke inner here references offset name body)
      (invoke inner' here references offset name (mapAllKeys γ.key body)) :=
  tracks_definitions.bind fun template => (tracks_refer references offset).bind fun references =>
    tracks_items fun item listed =>
      tracks_invokeWith renders faithful member level references name template (permitted item listed)

theorem tracks_range (references offset : Nat) {kind : RangeKind} {body : List Item}
    (permitted : (Item.range offset kind body).Throughout γ.Permits) :
    Tracks lost γ live (performRange inner here references offset kind body)
      (performRange inner' here references offset kind (mapAllKeys γ.key body)) := by
  obtain ⟨own, below⟩ := Item.throughout_iff.mp permitted
  cases kind with
  | octaveUp | octaveDown => exact tracks_octave renders faithful member references _ below
  | tuplet size => exact tracks_tuplet renders faithful member references offset size below
  | sustain => exact tracks_sustain renders faithful member references below
  | userRange name => exact tracks_invoke renders faithful member own references offset name below

theorem tracks_underModifier (references : Nat) {m : Modifier} (audible : m.audible)
    {body : List Item} (permitted : ∀ item ∈ body, item.Throughout γ.Permits) :
    Tracks lost γ live (underModifier inner here references m body)
      (underModifier inner' here references m (mapAllKeys γ.key body)) :=
  (follows_push m γ.key).bind fun _ =>
    (tracks_all (γ := γ.under m γ.key) renders (faithful.under audible) member references permitted).bind
      fun ticks => follows_pop.bind fun _ => tracks_pure ticks

theorem tracks_measure (references offset : Nat) {body : List Item}
    (permitted : ∀ item ∈ body, item.Throughout γ.Permits) :
    Tracks lost γ live (measure inner here references offset body)
      (measure inner' here references offset (mapAllKeys γ.key body)) :=
  follows_of fun {s s'} rendered => by
    have copies : Rendered γ live s.measured s'.measured := { rendered with
      onsets := rfl
      measuring := rfl }
    have agree := (tracks_all renders faithful member references permitted).both _ _ copies
    rw [measure_run, measure_run]
    cases first : (performAll inner here references body).run s.measured with
    | ok ticks t =>
      cases second : (performAll inner' here references (mapAllKeys γ.key body)).run s'.measured with
      | ok ticks' t' =>
        rw [first, second] at agree
        have onsets : t.onsets = t'.onsets := agree.2.onsets
        dsimp only
        rw [onsets]
        cases t'.onsets with
        | some bounds => exact ⟨rfl, rendered⟩
        | none => exact .inl rfl
      | error fault' t' =>
        rw [first, second] at agree
        exact agree.elim
    | error fault t =>
      cases second : (performAll inner' here references (mapAllKeys γ.key body)).run s'.measured with
      | ok ticks' t' =>
        rw [first, second] at agree
        have left : lost fault := agree
        dsimp only
        cases t'.onsets with
        | some bounds => exact left
        | none => exact .inr left
      | error fault' t' =>
        rw [first, second] at agree
        exact agree

theorem tracks_dynamics (references offset : Nat) (direction : Direction) (target : Nat)
    {body : List Item} (permitted : ∀ item ∈ body, item.Throughout γ.Permits) :
    Tracks lost γ live (performDynamics inner here references offset direction target body)
      (performDynamics inner' here references offset direction target (mapAllKeys γ.key body)) := by
  refine follows_timeline member fun t t' doubles _ => ?_
  have velocity : t.state.velocity = t'.state.velocity := (congrArg (·.state.velocity) doubles :)
  have reached : Tracks lost γ live (setVelocity here target) (setVelocity here target) :=
    tracks_adjust ⟨fun _ _ => rfl, fun _ => rfl⟩ fun _ => ⟨rfl, rfl⟩
  have finish (ticks : Nat) := reached.bind fun _ => tracks_pure ticks
  rw [velocity]
  refine follows_unless (follows_get fun s s' rendered => ?_)
  rw [rendered.measuring]
  split
  · exact (tracks_all renders faithful member references permitted).bind finish
  · refine (tracks_measure renders faithful member references offset permitted).bind fun bounds => ?_
    exact (tracks_underModifier renders faithful member references rfl permitted).bind finish

theorem tracks_bend (references : Nat) {body : List Item}
    (permitted : ∀ item ∈ body, item.Throughout γ.Permits) :
    Tracks lost γ live (performBend inner here references body)
      (performBend inner' here references (mapAllKeys γ.key body)) := by
  have bends (list : List (Nat × Binary64)) : Tracks lost γ live
      (adjust here (addBends list)) (adjust here (addBends list)) :=
    tracks_adjust (Timeline.deaf_addBends list) fun t => by
      induction list generalizing t with
      | nil => exact ⟨rfl, rfl⟩
      | cons bend list ih => exact ih _
  have bend (position : Nat) (value : Binary64) : Tracks lost γ live
      (adjust here (Timeline.addBend position value)) (adjust here (Timeline.addBend position value)) :=
    tracks_adjust ⟨fun _ _ => rfl, fun _ => rfl⟩ fun _ => ⟨rfl, rfl⟩
  refine follows_timeline member fun t t' doubles _ => ?_
  have position : t.position = t'.position := (congrArg Timeline.position doubles :)
  rw [position, mapAllKeys_eq, List.foldlM_map]
  refine Follows.bind (Q := fun _ => rendering lost γ live)
    (Follows.foldlM (fun point item listed => ?_) _) fun final => ?_
  · have played := renders rfl faithful member references item (permitted item listed)
    cases item with
    | breakpoint offset value =>
      refine follows_timeline member fun t t' doubles _ => ?_
      have position : t.position = t'.position := (congrArg Timeline.position doubles :)
      dsimp only
      rw [position]
      exact (bends _).bind fun _ => (bend ..).bind fun _ => tracks_pure _
    | _ => exact played.bind fun more => tracks_pure _
  · refine follows_timeline member fun t t' doubles _ => ?_
    have position : t.position = t'.position := (congrArg Timeline.position doubles :)
    dsimp only
    rw [position]
    exact (bend ..).bind fun _ => tracks_pure final.ticks

theorem tracks_ornament (references offset : Nat) {kind : Ornament} {body : List Item}
    (permitted : ∀ item ∈ body, item.Throughout γ.Permits) :
    Tracks lost γ live (performOrnament inner here references offset kind body)
      (performOrnament inner' here references offset kind (mapAllKeys γ.key body)) := by
  cases kind with
  | staccato | sforzando | trill =>
    exact tracks_underModifier renders faithful member references rfl permitted
  | fermata =>
    refine follows_get fun s s' rendered => ?_
    rw [rendered.fermata]
    exact tracks_underModifier renders faithful member references rfl permitted
  | crescendo target =>
    exact tracks_dynamics renders faithful member references offset .crescendo target permitted
  | decrescendo target =>
    exact tracks_dynamics renders faithful member references offset .decrescendo target permitted
  | pitchBend => exact tracks_bend renders faithful member references permitted

/-- A branch on a child; what it defines is forgotten in both versions. -/
theorem tracks_branch (references offset expected : Nat) {branch : List Item}
    (permitted : ∀ item ∈ branch, item.Throughout γ.Permits) :
    Tracks lost γ live (performBranch inner references offset expected (here, branch))
      (performBranch inner' references offset expected (here, mapAllKeys γ.key branch)) := by
  refine follows_get fun s s' rendered => ?_
  dsimp only
  rw [rendered.definitions, rendered.fermata]
  refine (tracks_all renders faithful member references permitted).bind fun ticks => ?_
  refine Follows.bind (tracks_modify fun rendered => { rendered with
    definitions := rfl
    fermata := rfl }) fun _ => ?_
  exact follows_unless (tracks_pure _)

end Constructs

/-- Children are claimed in both versions alike; from then on they are in use, too. -/
theorem follows_children (member : here ∈ live) (offset base : Nat) {f g : List TimelineId → Play α}
    {P : Coupling Session} (count : Nat)
    (rest : ∀ children live', live ⊆ live' → children.length = count → children ⊆ live' →
      Follows (Meets lost) (rendering lost γ live') (f children) (g children) fun _ => P) :
    Follows (Meets lost) (rendering lost γ live)
      ((List.range count).mapM (fun i => onArena (Arena.childAt here offset (.branch (base + i)))) >>= f)
      ((List.range count).mapM (fun i => onArena (Arena.childAt here offset (.branch (base + i)))) >>= g)
      fun _ => P := by
  rw [List.range_eq_range']
  generalize 0 = start
  induction count generalizing start live f g with
  | zero => exact rest [] live (List.Subset.refl _) rfl (List.nil_subset _)
  | succ count ih =>
    simp only [List.range'_succ, List.mapM_cons, bind_assoc, pure_bind]
    refine (follows_claim member offset _).bind fun child => ?_
    refine ih (List.mem_cons_of_mem child member) (fun children live' kept length inside => ?_) _
    exact rest (child :: children) live' (List.subset_of_cons_subset kept) (congrArg Nat.succ length)
      (List.cons_subset.mpr ⟨kept List.mem_cons_self, inside⟩)

section Items
variable (renders : inner.Renders lost γ.fixed inner') (faithful : γ.Faithful lost)
include renders faithful

theorem tracks_others (references offset expected : Nat) {children : List TimelineId}
    {branches : List (List Item)} (inside : children ⊆ live)
    (permitted : ∀ branch ∈ branches, ∀ item ∈ branch, item.Throughout γ.Permits) :
    Tracks lost γ live ((children.zip branches).forM (performBranch inner references offset expected))
      ((children.zip (mapBranchKeys γ.key branches)).forM
        (performBranch inner' references offset expected)) := by
  induction children generalizing branches with
  | nil => exact tracks_pure _
  | cons child children ih =>
    cases branches with
    | nil => exact tracks_pure _
    | cons branch branches =>
      obtain ⟨listed, inside⟩ := List.cons_subset.mp inside
      obtain ⟨own, others⟩ := List.forall_mem_cons.mp permitted
      exact (tracks_branch renders faithful listed references offset expected own).bind fun _ =>
        ih inside others

variable (member : here ∈ live)
include member

theorem tracks_parallel (references offset : Nat) {branches : List (List Item)}
    (permitted : ∀ branch ∈ branches, ∀ item ∈ branch, item.Throughout γ.Permits) :
    Tracks lost γ live (performParallel inner here references offset branches)
      (performParallel inner' here references offset (mapBranchKeys γ.key branches)) := by
  cases branches with
  | nil => exact tracks_pure 0
  | cons branch branches =>
    obtain ⟨own, others⟩ := List.forall_mem_cons.mp permitted
    have many : (mapBranchKeys γ.key branches).length = branches.length := by
      rw [mapBranchKeys_eq, List.length_map]
    unfold performParallel
    dsimp only [mapBranchKeys]
    rw [many]
    refine (tracks_update (Timeline.deaf_reserve _) fun _ => ⟨rfl, rfl⟩).bind fun base => ?_
    refine follows_children member offset base _ fun children live' kept _ inside => ?_
    refine Follows.mono ?_ (.refl _) fun _ => rendering_fewer kept
    refine (tracks_all renders faithful (kept member) references own).bind fun expected => ?_
    refine Follows.bind (tracks_adjust ⟨fun _ _ => rfl, fun _ => rfl⟩ fun _ => ⟨rfl, rfl⟩) fun _ => ?_
    exact (tracks_others renders faithful references offset expected inside others).bind fun _ =>
      tracks_pure expected

theorem tracks_sound (references : Nat) {sound : Item} (permitted : sound.Throughout γ.Permits) :
    Tracks lost γ live (performWith.performSound inner here references sound)
      (performWith.performSound inner' here references (sound.mapKeys γ.key)) := by
  have finish {p q : Play Nat} (played : Tracks lost γ live p q) :
      Tracks lost γ live (do let ticks ← p; requireNoGraces; return ticks)
        (do let ticks ← q; requireNoGraces; return ticks) :=
    played.bind fun ticks => tracks_requireNoGraces.bind fun _ => tracks_pure ticks
  have unraised (k : Key) : raise 0 k = k := by
    rw [raise, Int.add_zero]
  have played := renders rfl faithful member references sound permitted
  cases sound with
  | key k =>
    have resolved := tracks_keyPitch faithful member 0 k
    rw [unraised, unraised] at resolved
    refine finish (resolved.bind fun pitch => ?_)
    rw [faithful.offset]
    exact tracks_commit faithful member k.offset [pitch] false
  | chord c =>
    exact finish ((tracks_chordPitches faithful member 0 c).bind fun pitches =>
      tracks_commit faithful member c.offset pitches c.arpeggio)
  | ornament offset kind body =>
    exact finish (tracks_ornament renders faithful member references offset
      (Item.throughout_iff.mp permitted).2)
  | tie offset => exact finish (tracks_tie member offset)
  | _ => exact finish played

/-- An item is played in two versions if those inside it are. Where a transposition is relied on,
settings and emojis are left out. -/
theorem tracks_with (references : Nat) {item : Item} (permitted : item.Throughout γ.Permits)
    (relied : γ.fixed ≠ none → (∀ s, item ≠ .setting s) ∧ ∀ offset symbol, item ≠ .emoji offset symbol) :
    Tracks lost γ live (performWith inner here references item)
      (performWith inner' here references (item.mapKeys γ.key)) := by
  obtain ⟨own, below⟩ := Item.throughout_iff.mp permitted
  have sound := tracks_sound renders faithful member references permitted
  have quiet {p q : Play Unit} (played : Tracks lost γ live p q) :
      Tracks lost γ live (do p; return 0) (do q; return 0) := played.bind fun _ => tracks_pure 0
  have opens (offset : Nat) {p q : Play Nat} (rest : Tracks lost γ live p q) :=
    tracks_opened faithful member offset rest
  cases item with
  | breakpoint offset value => exact follows_failAt offset _
  | setting s =>
    have free : γ.fixed = none := Decidable.byContradiction fun fixed => (relied fixed).1 s rfl
    exact opens s.offset (quiet (tracks_applySetting member s s.offset own fun _ => free))
  | range offset kind body =>
    exact opens offset (tracks_range renders faithful member references offset permitted)
  | group offset id body =>
    have body' : mapAllKeys γ.key body = body := by
      rw [own.1, mapAllKeys_id]
    rw [Item.mapKeys, body']
    exact opens offset (tracks_definitions.bind fun _ =>
      tracks_same renders faithful member own.1 own.2 references body)
  | groupRef offset id =>
    exact opens offset ((tracks_refer references offset).bind fun references =>
      tracks_definitions.bind fun body =>
        tracks_same renders faithful member own.1 own.2 references body)
  | parallel offset branches =>
    exact opens offset (tracks_parallel renders faithful member references offset
      fun branch listed item inside => below item (List.mem_flatten_of_mem listed inside))
  | emoji offset symbol =>
    have free : γ.fixed = none := Decidable.byContradiction fun fixed => (relied fixed).2 offset symbol rfl
    exact opens offset (tracks_definitions.bind fun s =>
      quiet (tracks_applySetting member s offset (fun _ => own.2) fun _ => free))
  | rest offset => exact opens offset tracks_rest
  | graced offset graces main =>
    have main' := tracks_sound renders faithful member references (below main List.mem_cons_self)
    cases main with
    | tie => exact opens offset (follows_failAt offset _)
    | _ => exact opens offset ((tracks_prepareGraces faithful member offset graces).bind fun _ => main')
  | key k =>
    have second : performWith inner' here references (.key (γ.key k)) =
        opened here (γ.key k).offset (performWith.performSound inner' here references (.key (γ.key k))) := rfl
    rw [Item.mapKeys, second, faithful.offset]
    exact opens k.offset sound
  | chord | ornament | tie => exact opens _ sound

end Items

theorem follows_exhausted (faithful : γ.Faithful lost) (references : Nat) (item : Item) :
    Tracks lost γ live (perform 0 here references item)
      (perform 0 here references (item.mapKeys γ.key)) := by
  have offset := item.offset_mapKeys faithful.offset
  simp only [perform, offset]
  exact (tracks_burn faithful item.offset).bind fun _ => follows_failAt item.offset _

/-- A performer renders itself in any version that relies on no transposition. -/
theorem renders_perform (depth : Nat) : (perform depth).Renders lost none (perform depth) := by
  induction depth with
  | zero =>
    intro γ live here _ faithful member references item _
    exact follows_exhausted faithful references item
  | succ depth ih =>
    intro γ live here free faithful member references item permitted
    exact tracks_with (free ▸ ih) faithful member references permitted fun fixed => absurd free fixed

/-- Two runs sound alike: they answer as many ticks and leave the same on every timeline, up to the
octaves of timelines other than this one, or they fail alike. -/
inductive SoundsAlike (here : TimelineId) (r r' : EStateM.Result Fault Session Nat) : Prop
  | played {ticks : Nat} {t t' : Session} (first : r = .ok ticks t) (second : r' = .ok ticks t')
    (size : t'.arena.timelines.size = t.arena.timelines.size)
    (timeline : ∀ id, (t.arena.timeline id).Doubles (t'.arena.timeline id))
    (own : t.arena.timeline here = t'.arena.timeline here)
    (definitions : t.definitions = t'.definitions) (fermata : t.fermata = t'.fermata)
    (graces : t.graces = t'.graces) (onsets : t.onsets = t'.onsets)
  | failed {fault : Fault} {t t' : Session} (first : r = .error fault t) (second : r' = .error fault t')

/-- What sounds like one run sounds alike. -/
theorem SoundsAlike.trans_of {r r' r'' : EStateM.Result Fault Session Nat} (first : SoundsAlike here r r')
    (second : SoundsAlike here r r'') : SoundsAlike here r' r'' := by
  cases first with
  | played one two size timeline own definitions fermata graces onsets => cases second with
    | played one' two' size' timeline' own' definitions' fermata' graces' onsets' =>
      cases one.symm.trans one'
      exact .played two two' (size'.trans size.symm) (fun id => Timeline.Doubles.trans_of (timeline id) (timeline' id))
        (own.symm.trans own') (definitions.symm.trans definitions') (fermata.symm.trans fermata')
        (graces.symm.trans graces') (onsets.symm.trans onsets')
    | failed one' => exact nomatch one.symm.trans one'
  | failed one two => cases second with
    | played one' => exact nomatch one.symm.trans one'
    | failed one' two' =>
      cases one.symm.trans one'
      exact .failed two two'

/-- Where the versions are no octaves apart, this timeline ends the same. -/
theorem Rendered.sounds {t t' : Session} (rendered : Rendered γ [here] t t') (level : γ.gap = 0)
    (ticks : Nat) : SoundsAlike here (.ok ticks t) (.ok ticks t') := by
  have own := (rendered.arena.apart here (List.mem_singleton_self here)).same level
    (rendered.arena.timeline here)
  exact .played rfl rfl rendered.arena.size rendered.arena.timeline own rendered.definitions
    rendered.fermata rendered.graces rendered.onsets

end TextScore.Session
