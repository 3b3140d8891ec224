import TextScore.Proofs.Accord
import TextScore.Proofs.Bystanders

/-! A channel in two runs. In one of them others play, too; in the other one it is alone. Where the
first run goes on playing on the channel, the second one does the same. -/
namespace TextScore

/-- The second timeline is the first one, but for its repeats and for the names of the timelines that
belong to it. -/
structure Timeline.Echoes (φ : TimelineId → TimelineId → Prop) (t t' : Timeline) : Prop where
  same : t = { t' with children := t.children, voices := t.voices, repeats := t.repeats }
  children : List.Forall₂ φ t.children.toList t'.children.toList
  voices : List.Forall₂ φ t.voices.toList t'.voices.toList

namespace Arena

/-- A timeline and all below it are there once more in another arena, each under one name. -/
def Echoes (arena : Arena) (here : TimelineId) (arena' : Arena) (here' : TimelineId) : Prop :=
  ∃ φ : TimelineId → TimelineId → Prop, φ here here' ∧
    (∀ {a a' b b'}, φ a a' → φ b b' → (a = b ↔ a' = b')) ∧
    ∀ {a a'}, φ a a' → (arena.timeline a).Echoes φ (arena'.timeline a')

/-- They make the same tracks. -/
theorem Echoes.tracks {arena arena' : Arena} {here here' : TimelineId}
    (echoes : arena.Echoes here arena' here') (depth : Nat) :
    Track.ofTree arena depth here = Track.ofTree arena' depth here' := by
  obtain ⟨φ, known, -, each⟩ := echoes
  induction depth generalizing here here' with
  | zero => rfl
  | succ depth ih =>
    have echo := each known
    have own : Track.ofTimeline (arena.timeline here) = Track.ofTimeline (arena'.timeline here') := by
      rw [echo.same]
      rfl
    have below : List.Forall₂ φ
        ((arena.timeline here).children ++ (arena.timeline here).voices).toList
        ((arena'.timeline here').children ++ (arena'.timeline here').voices).toList := by
      rw [Array.toList_append, Array.toList_append]
      exact List.rel_append echo.children echo.voices
    have trees {ids ids' : List TimelineId} (all : List.Forall₂ φ ids ids') :
        ids.flatMap (Track.ofTree arena depth) = ids'.flatMap (Track.ofTree arena' depth) := by
      induction all with
      | nil => rfl
      | cons pair _ more => rw [List.flatMap_cons, List.flatMap_cons, ih pair, more]
    simp only [Track.ofTree, own, trees below]

/-- Only this timeline is given a counterpart. -/
def Only (here here' a a' : TimelineId) : Prop := a = here ∧ a' = here'

/-- All counterparts exist. -/
theorem Kindred.inside {v : Nat → Nat} {φ : TimelineId → TimelineId → Prop} {arena arena' : Arena}
    {here here' a a' : TimelineId} (kindred : Kindred v (Only here here') φ arena arena')
    (known : φ a a') : a < arena.timelines.size ∧ a' < arena'.timelines.size := by
  have inside : a < arena.timelines.size := by
    by_contra out
    exact Nat.succ_ne_self here (kindred.rooted.stray known (Nat.le_of_not_lt out) (here + 1)).1
  exact ⟨inside, (kindred.kin.inside known).mp inside⟩

end Arena

namespace Repeats
variable {r r' q : Repeats}

/-- Both have recorded the same, and a second ending that the first one allows is allowed by the
second one. -/
structure Below (r r' : Repeats) : Prop where
  performed : r'.performed = r.performed
  capture : r'.capture = r.capture
  seconda : r.secondaAllowed → r'.secondaAllowed

namespace Below

theorem refl (r : Repeats) : Below r r := ⟨rfl, rfl, id⟩

theorem expire (below : Below r r') : Below r.expire r'.expire :=
  ⟨below.performed, below.capture, id⟩

theorem expired (below : Below r r') : Below r.expire r' := ⟨below.performed, below.capture, nofun⟩

theorem record (below : Below r r') (node : Node) : Below (r.record node) (r'.record node) := by
  unfold Repeats.record
  cases node.replay? with
  | none => exact below
  | some again =>
    exact ⟨congrArg (·.push again) below.performed, by rw [below.capture], below.seconda⟩

theorem start (below : Below r r') {offset : Nat} (done : (start offset).run r = .ok () q) :
    ∃ q', (Repeats.start offset).run r' = .ok () q' ∧ Below q q' := by
  rw [start_run] at done ⊢
  rw [below.capture]
  split at done
  · exact nomatch done
  · next closed =>
    cases done
    exact ⟨_, if_neg closed, below.performed, rfl, id⟩

theorem volta (below : Below r r') {offset : Nat} {ending : Volta}
    (done : (volta offset ending).run r = .ok () q) :
    ∃ q', (Repeats.volta offset ending).run r' = .ok () q' ∧ Below q q' := by
  rw [volta_run] at done ⊢
  cases ending with
  | prima =>
    rw [below.capture]
    dsimp only at done ⊢
    cases opened : r.capture with
    | none =>
      rw [opened] at done
      exact nomatch done
    | some c =>
      rw [opened] at done
      dsimp only at done ⊢
      split at done
      · exact nomatch done
      · next first =>
        cases done
        exact ⟨r', if_neg first, below⟩
  | seconda =>
    dsimp only at done ⊢
    split at done
    · next allowed =>
      cases done
      exact ⟨_, if_pos (below.seconda allowed), below.performed, below.capture, id⟩
    · exact nomatch done

/-- A larger budget does not hurt. -/
theorem close (below : Below r r') {offset budget budget' : Nat} {count : Option Nat}
    {again : List Node} (more : budget ≤ budget')
    (done : (close offset count budget).run r = .ok again q) :
    ∃ q', (Repeats.close offset count budget').run r' = .ok again q' ∧ Below q q' := by
  have captured : r'.captured = r.captured := by
    unfold captured
    rw [below.performed, below.capture]
  rw [close_run] at done ⊢
  rw [captured]
  by_cases none : count.getD 2 = 0
  · rw [if_pos none] at done
    exact nomatch done
  rw [if_neg none] at done ⊢
  by_cases ending : r.captured.any Node.isPrimaVolta
  · rw [if_pos ending] at done ⊢
    split at done
    · exact nomatch done
    · next twice =>
      cases done
      exact ⟨_, if_neg twice, rfl, rfl, id⟩
  · rw [if_neg ending] at done ⊢
    split at done
    · exact nomatch done
    · next enough =>
      cases done
      exact ⟨_, if_neg (by omega), rfl, rfl, below.seconda⟩

end Below
end Repeats

namespace Session
open Step (Follows)
open Coupling (Whatever lenient)
variable {here here' : TimelineId} {s s' t u : Session} {q q' : Repeats} {α : Type}

/-- Two performances outside ornaments. -/
def bareRapport : Rapport id where
  pairs := []
  surplus := 0
  tied := False
  whole := False
  mixed := False
  stack := []
  stack' := []
  alike := .refl _ []
  flat := Rapport.unmixed

/-- Two sessions in which a timeline and all below it are counterparts, repeats included. -/
abbrev Counterparts (here here' : TimelineId) : Session → Session → Prop :=
  Accord (Arena.Only here here') here here' bareRapport

theorem Accord.setRepeats (accord : Counterparts here here' s u) (q : Repeats) :
    Counterparts here here' (s.setRepeats here q) (u.setRepeats here' q) := by
  obtain ⟨φ, known, kindred⟩ := accord.related
  have renders : Timeline.Renders id (Timeline.setRepeats q) (Timeline.setRepeats q) :=
    .of_still fun _ => rfl
  exact { accord with
    related := ⟨φ, known, kindred.adjust (known _ List.mem_cons_self) renders renders⟩ }

/-- A channel in one session and its counterpart, which is alone, in another one. The second session
has no less gas, and may still allow a second ending. -/
structure Echo (here here' : TimelineId) (s s' : Session) : Prop where
  accord : ∃ u k, Counterparts here here' s u ∧ u.Twin k s'
  repeats : (s.arena.repeats here).Below (s'.arena.repeats here')

namespace Echo

theorem inside (echo : Echo here here' s s') :
    here < s.arena.timelines.size ∧ here' < s'.arena.timelines.size := by
  obtain ⟨u, k, accord, twin⟩ := echo.accord
  obtain ⟨φ, known, kindred⟩ := accord.related
  rw [twin.size]
  exact kindred.inside (known _ List.mem_cons_self)

theorem gas (echo : Echo here here' s s') : s.gas.remaining ≤ s'.gas.remaining := by
  obtain ⟨u, k, accord, twin⟩ := echo.accord
  rw [twin.gas, accord.gas]
  exact Nat.le_add_right_of_le (Nat.le_add_right ..)

theorem setRepeats (echo : Echo here here' s s') (below : q.Below q') :
    Echo here here' (s.setRepeats here q) (s'.setRepeats here' q') := by
  obtain ⟨u, k, accord, twin⟩ := echo.accord
  refine ⟨⟨u.setRepeats here' q, k, accord.setRepeats q,
    (twin.setRepeats_left here' q).setRepeats_right here' q'⟩, ?_⟩
  rw [repeats_setRepeats, repeats_setRepeats, if_pos ⟨rfl, echo.inside.1⟩,
    if_pos ⟨rfl, echo.inside.2⟩]
  exact below

/-- The repeats of the first session only may change, to ones that are below the other ones. -/
theorem sink (echo : Echo here here' s s') (below : q.Below (s'.arena.repeats here')) :
    Echo here here' (s.setRepeats here q) s' := by
  obtain ⟨u, k, accord, twin⟩ := echo.accord
  refine ⟨⟨u.setRepeats here' q, k, accord.setRepeats q, twin.setRepeats_left here' q⟩, ?_⟩
  rw [repeats_setRepeats, if_pos ⟨rfl, echo.inside.1⟩]
  exact below

theorem follows_adjustRepeats {change : Repeats → Repeats}
    (keeps : ∀ {q q' : Repeats}, q.Below q' → (change q).Below (change q')) :
    Follows Whatever (lenient (Echo here here')) (adjustRepeats (some here) change)
      (adjustRepeats (some here') change) fun _ => lenient (Echo here here') :=
  .of_ok fun {s s' a t} echo done => by
    rw [adjustRepeats_run] at done ⊢
    cases done
    exact ⟨_, rfl, echo.setRepeats (keeps echo.repeats)⟩

theorem onRepeats (echo : Echo here here' s s') {step step' : Step Repeats α} {a : α}
    (keeps : ∀ {q q' : Repeats} {r}, q.Below q' → step.run q = .ok a r →
      ∃ r', step'.run q' = .ok a r' ∧ r.Below r')
    (done : (onRepeats here step).run s = .ok a t) :
    ∃ t', (onRepeats here' step').run s' = .ok a t' ∧ Echo here here' t t' := by
  rw [onRepeats_run] at done ⊢
  split at done
  · next ran =>
    cases done
    obtain ⟨r', ran', below⟩ := keeps echo.repeats ran
    rw [ran']
    exact ⟨_, rfl, echo.setRepeats below⟩
  · exact nomatch done

/-- The second performance may go as deep as its gas allows. -/
theorem perform (echo : Echo here here' s s') {ticks : Nat} {item : Item}
    (done : (perform (s.gas.remaining + 1) here 0 item).run s = .ok ticks t) :
    ∃ t', (perform (s'.gas.remaining + 1) here' 0 item).run s' = .ok ticks t' ∧
      Echo here here' t t' := by
  obtain ⟨u, k, accord, twin⟩ := echo.accord
  obtain ⟨v, between, accord'⟩ :=
    (duet_accord.follows_perform (s.gas.remaining + 1) 0 item).ok accord done
  have deeper := Nat.succ_le_succ echo.gas
  obtain ⟨t', played, twin', -⟩ := (follows_item deeper here' 0 item).ok
    ⟨twin, rfl, rfl, Nat.zero_le _⟩ between
  refine ⟨t', played, ⟨v, k, accord', twin'⟩, ?_⟩
  rw [perform_repeats done, perform_repeats played]
  exact echo.repeats

theorem follows_burn (offset : Nat) :
    Follows Whatever (lenient (Echo here here')) (burn offset) (burn offset)
      fun _ => lenient (Echo here here') :=
  .of_ok fun {s s' a t} echo done => by
    obtain ⟨u, k, accord, twin⟩ := echo.accord
    obtain ⟨v, between, accord'⟩ := (accord_gesture (.burn offset)).ok accord done
    obtain ⟨t', burnt, twin', same, same'⟩ := (Session.follows_burn offset).ok
      (⟨twin, rfl, rfl, Nat.zero_le _⟩ : (paired k 0 _ _).both u s') between
    refine ⟨t', burnt, ⟨v, k, accord', twin'⟩, ?_⟩
    rw [burn_ok done, burn_ok burnt]
    exact echo.repeats

theorem follows_playLocal (node : Node) :
    Follows Whatever (lenient (Echo here here')) (playLocal here node) (playLocal here' node)
      fun _ => lenient (Echo here here') := by
  have answered {p p' : Play Unit} (follows : ∀ {s s' t}, Echo here here' s s' →
      p.run s = .ok () t → ∃ t', p'.run s' = .ok () t' ∧ Echo here here' t t') :
      Follows Whatever (lenient (Echo here here')) (do p; return ([] : List Node)) (do p'; return [])
        fun _ => lenient (Echo here here') :=
    Follows.bind (.of_ok fun echo done => follows echo done) fun _ =>
      Follows.pure (Q := fun _ => lenient (Echo here here')) []
  cases node with
  | item item =>
    refine .of_ok fun {s s' again t} echo done => ?_
    obtain ⟨ticks, u, played, done⟩ := Step.bind_ok (p := Session.perform _ here 0 item) done
    cases done
    obtain ⟨t', played', echo'⟩ := echo.perform played
    refine ⟨t', ?_, echo'⟩
    rw [playLocal, EStateM.run_bind, EStateM.run_get]
    dsimp only
    rw [EStateM.run_bind, played']
    rfl
  | repeatOpen offset => exact answered fun echo => echo.onRepeats fun below => below.start
  | volta offset ending => exact answered fun echo => echo.onRepeats fun below => below.volta
  | repeatClose offset count =>
    refine .of_ok fun {s s' again t} echo done => ?_
    exact echo.onRepeats (fun below => below.close echo.gas) done
  | _ => exact Follows.pure (Q := fun _ => lenient (Echo here here')) []

/-- What the channel does among others its counterpart does alone. -/
theorem follows_stepLocal (queued : Queued) :
    Follows Whatever (lenient (Echo here here')) (stepLocal here queued) (stepLocal here' queued)
      fun _ => lenient (Echo here here') := by
  have when {c : Bool} {p p' : Play Unit} {k k' : Unit → Play (List Node)}
      (first : Follows Whatever (lenient (Echo here here')) p p' fun _ => lenient (Echo here here'))
      (rest : Follows Whatever (lenient (Echo here here')) (k ()) (k' ())
        fun _ => lenient (Echo here here')) :
      Follows Whatever (lenient (Echo here here')) (if c then p >>= k else k ())
        (if c then p' >>= k' else k' ()) fun _ => lenient (Echo here here') := by
    cases c with
    | false => exact rest
    | true => exact first.bind fun _ => rest
  unfold stepLocal
  refine when (follows_burn _) (when (follows_adjustRepeats Repeats.Below.expire) ?_)
  refine (follows_playLocal queued.node).bind fun again => ?_
  refine when (follows_adjustRepeats fun below => below.record queued.node) ?_
  exact Follows.pure (Q := fun _ => lenient (Echo here here')) again

section Others
variable {d : Definitions} {f : Binary64} {roots : List TimelineId}

/-- What a counterpart shares with other channels is what the channel does. -/
theorem calm (accord : Counterparts here here' s u) (calm : s.Calm d f) : u.Calm d f where
  shares :=
    { modifiers := accord.stack'
      definitions := accord.definitions.symm.trans calm.shares.definitions
      fermata := accord.fermata.symm.trans calm.shares.fermata }
  graces := accord.graces.symm.trans calm.graces

/-- Of calm sessions with as much gas only the arenas matter. -/
theorem counterparts (calm : s.Calm d f) (calm' : u.Calm d f)
    (related : Arena.Related id (Arena.Only here here') [(here, here')] s.arena u.arena)
    (gas : u.gas = s.gas) (measuring : s.measuring = u.measuring) : Counterparts here here' s u where
  related := related
  gas := congrArg Gas.remaining gas
  definitions := calm.shares.definitions.trans calm'.shares.definitions.symm
  fermata := calm.shares.fermata.trans calm'.shares.fermata.symm
  graces := calm.graces.trans calm'.graces.symm
  stack := calm.shares.modifiers
  stack' := calm'.shares.modifiers
  onsets := False.elim
  measuring _ := measuring
  measured := False.elim
  aside := False.elim

/-- A twin has as much more gas than a poorer session. -/
theorem twin_of_gas {k : Nat} (twin : u.Twin k s') {gas : Gas}
    (less : gas.remaining ≤ u.gas.remaining) : ∃ k', { u with gas := gas }.Twin k' s' := by
  obtain @⟨arena, twin⟩ := twin
  have more : u.gas.remaining + k = gas.remaining + (u.gas.remaining + k - gas.remaining) := by omega
  generalize u.gas.remaining + k - gas.remaining = k' at more
  rw [more]
  exact ⟨k', .mk twin⟩

/-- Nobody but the channel can change what its counterpart echoes. -/
theorem family (echo : Echo here here' s s') (calm : s.Calm d f) (forest : s.arena.Forest roots)
    (root : here ∈ roots) : ∃ F, s.arena.Family roots F ∧ F here ∧
      (∀ other ∈ roots, other ≠ here → ¬ F other) ∧
      ∀ {t : Session}, t.Calm d f → t.measuring = s.measuring →
        t.gas.remaining ≤ s.gas.remaining → s.arena.Still F t.arena → Echo here here' t s' := by
  obtain ⟨u, k, accord, twin⟩ := echo.accord
  obtain ⟨φ, known, kindred⟩ := accord.related
  have own : φ here here' := known _ List.mem_cons_self
  refine ⟨fun id => ∃ id', φ id id', ⟨fun ⟨_, related⟩ => (kindred.inside related).1, ?_⟩,
    ⟨here', own⟩, ?_, fun {t} calm' measuring gas still => ?_⟩
  · rintro id ⟨id', related⟩
    rcases kindred.rooted.listed related with ⟨rfl, -⟩ | ⟨parent, parent', inside, listed⟩
    · exact .inl root
    · exact .inr ⟨parent, ⟨parent', inside⟩, listed⟩
  · rintro other listed different ⟨id', related⟩
    rcases kindred.rooted.listed related with ⟨rfl, -⟩ | ⟨parent, parent', -, branch | voice⟩
    · exact different rfl
    · exact (forest.child_apart branch).2 listed
    · exact forest.not_voice (List.mem_append_left _ listed) (Arena.voice_listed voice)
  · have same {a a' : TimelineId} (related : φ a a') : t.arena.timeline a = s.arena.timeline a :=
      (still ⟨a', related⟩).2
    have inside {a a' : TimelineId} (related : φ a a') : a < t.arena.timelines.size :=
      (still ⟨a', related⟩).1
    have kin : Arena.Kin id φ t.arena u.arena := by
      refine ⟨kindred.kin.apart, fun {a a'} related k => ?_, fun {a a'} related => ?_⟩
      · have before := inside related
        have before' := (kindred.inside related).2
        exact iff_of_false (Nat.ne_of_lt (Nat.lt_add_right k before))
          (Nat.ne_of_lt (Nat.lt_add_right k before'))
      · rw [same related]
        exact kindred.kin.like related
    have rooted : Arena.Rooted (Arena.Only here here') φ t.arena := by
      refine ⟨kindred.rooted.roots, fun {a a'} related => ?_, fun related out => ?_⟩
      · refine (kindred.rooted.listed related).imp_right fun ⟨b, b', known, listed⟩ => ?_
        exact ⟨b, b', known, (same known).symm ▸ listed⟩
      · exact absurd (inside related) (Nat.not_lt_of_le out)
    have left : s.gas.remaining ≤ u.gas.remaining := Nat.le_of_eq accord.gas.symm
    obtain ⟨k', twin'⟩ := twin_of_gas twin (Nat.le_trans gas left)
    refine ⟨⟨{ u with gas := t.gas }, k', ?_, twin'⟩, ?_⟩
    · exact counterparts calm' ⟨{ (Echo.calm accord calm).shares with }, (Echo.calm accord calm).graces⟩
        ⟨φ, known, kin, rooted⟩ rfl (measuring.trans (accord.measuring id))
    · unfold Arena.repeats
      rw [same own]
      exact echo.repeats

/-- A channel that starts in both sessions. -/
theorem start (calm : s.Calm d f) (calm' : s'.Calm d f) (measuring : s.measuring = s'.measuring)
    (gas : s.gas.remaining ≤ s'.gas.remaining) (channel : Nat) (channels channels' : Array TimelineId) :
    Echo s.arena.timelines.size s'.arena.timelines.size
      { s with arena := (s.arena.create channel).2, channels := channels }
      { s' with arena := (s'.arena.create channel).2, channels := channels' } := by
  have fresh (arena : Arena) :
      (arena.create channel).2.timeline arena.timelines.size = { channel := channel } := by
    rw [Arena.timeline_create, if_pos rfl]
  have inside (arena : Arena) (k : Nat) :
      arena.timelines.size ≠ (arena.create channel).2.timelines.size + k := by
    have size : (arena.create channel).2.timelines.size = arena.timelines.size + 1 :=
      Array.size_push _
    omega
  have kin : Arena.Kin id (Arena.Only s.arena.timelines.size s'.arena.timelines.size)
      (s.arena.create channel).2 (s'.arena.create channel).2 := by
    refine ⟨?_, ?_, ?_⟩
    · rintro a a' b b' ⟨rfl, rfl⟩ ⟨rfl, rfl⟩
      exact iff_of_true rfl rfl
    · rintro a a' ⟨rfl, rfl⟩ k
      exact iff_of_false (inside _ k) (inside _ k)
    · rintro a a' ⟨rfl, rfl⟩
      rw [fresh, fresh]
      exact ⟨rfl, .nil, .nil⟩
  have rooted : Arena.Rooted (Arena.Only s.arena.timelines.size s'.arena.timelines.size)
      (Arena.Only s.arena.timelines.size s'.arena.timelines.size) (s.arena.create channel).2 := by
    refine ⟨id, .inl, ?_⟩
    rintro a a' ⟨rfl, rfl⟩ out
    exact absurd out (Nat.not_le_of_lt (Nat.lt_of_lt_of_eq (Nat.lt_succ_self _) (Array.size_push _).symm))
  let u : Session := { s' with arena := (s'.arena.create channel).2, channels := channels' }
  obtain ⟨k, twin⟩ := twin_of_gas (Twin.mk (k := 0) (s := u) (.refl u.arena)) gas
  refine ⟨⟨{ u with gas := s.gas }, k, counterparts ⟨{ calm.shares with }, calm.graces⟩
    ⟨{ calm'.shares with }, calm'.graces⟩ ⟨_, ?_, kin, rooted⟩ rfl measuring, twin⟩, ?_⟩
  · intro pair listed
    exact List.mem_singleton.mp listed ▸ ⟨rfl, rfl⟩
  · unfold Arena.repeats
    rw [fresh, fresh]
    exact .refl _

end Others

/-- What a counterpart has played is what the channel has. -/
theorem echoes (echo : Echo here here' s s') : s.arena.Echoes here s'.arena here' := by
  obtain ⟨u, k, accord, @⟨arena, twin⟩⟩ := echo.accord
  obtain ⟨φ, known, kindred⟩ := accord.related
  refine ⟨φ, known _ List.mem_cons_self, kindred.kin.apart, fun {a a'} related => ?_⟩
  have like := kindred.kin.like related
  dsimp only
  rw [twin.timeline a']
  have shown (t : Timeline) : t.tint id = t := by
    have all : t.events.map (Event.tint id) = t.events.map id :=
      congrArg (t.events.map ·) (funext fun event => by cases event <;> rfl)
    rw [Timeline.tint, all, Array.map_id]
  have bare := like.bare
  rw [Timeline.bare, Timeline.bare, shown, shown] at bare
  refine ⟨?_, like.children, like.voices⟩
  calc s.arena.timeline a
      = { { s.arena.timeline a with children := #[], voices := #[] } with
          children := (s.arena.timeline a).children, voices := (s.arena.timeline a).voices } := rfl
    _ = { { u.arena.timeline a' with children := #[], voices := #[] } with
          children := (s.arena.timeline a).children, voices := (s.arena.timeline a).voices } := by
        rw [bare]
    _ = _ := by
        rw [(congrArg Timeline.repeats bare :)]
        rfl

end Echo
end Session
end TextScore
