import TextScore.Proofs.Faults
import TextScore.Proofs.Standing

/-! Children and their parents. No child is ever ahead of its parent when a passage claims it, and no
voice is ever ahead of its timeline; a passage that is nested in the first branch of another one gets
slots of its own. -/
namespace TextScore

/-- No voice is ahead of its timeline. -/
def Arena.VoicesBehind (arena : Arena) : Prop := ∀ id, ∀ voice ∈ (arena.timeline id).voices,
  (arena.timeline voice).position ≤ (arena.timeline id).position

theorem Arena.Level.voicesBehind {arena : Arena} (level : ∃ limit, arena.Level limit) :
    arena.VoicesBehind := level.elim fun _ level => level.voices

namespace Session
open Step (Contract)
open Scene

variable {active : Option TimelineId} {here : TimelineId} {s t : Session} {γ : Stand} {depth : Nat}

/-- Between two nodes no passage is in progress, so no child is ahead of its parent. -/
structure Rested (active : Option TimelineId) (s : Session) : Prop where
  tended : s.Tended false active.toList
  root : ∀ here ∈ active, here ∈ s.channels.toList
  level : ∃ limit, s.arena.Level limit
  behind : ∀ {parent child : TimelineId} {i : Nat},
    (s.arena.timeline parent).children[i]? = some child →
    (s.arena.timeline child).position ≤ (s.arena.timeline parent).position
  floors : ∀ id, (s.arena.timeline id).branchBase = 0

/-- Items may be performed while timelines wait that the active one has nothing to do with. -/
theorem Rested.standing (rested : s.Rested (some here)) {held : List TimelineId} (free : here ∉ held)
    (present : ∀ id ∈ held, id < s.arena.timelines.size)
    (apart : ∀ {parent child}, parent ∉ held → s.arena.Owns (fun _ => 0) parent child → child ∉ held) :
    Standing here ⟨false, [here], ⟨fun _ => 0, held, s.arena, (s.arena.timeline here).position⟩,
      s.modifiers, true⟩ s where
  tended := rested.tended
  member := List.mem_singleton_self here
  poised :=
    { level := rested.level
      cursor := rfl
      free := free
      still := fun id listed => ⟨present id listed, rfl⟩
      kept := id
      behind := fun _ found _ _ => rested.behind found
      apart := fun {parent child} moves owned => by
        refine ⟨?_, apart moves owned⟩
        rintro rfl
        have root := rested.root child rfl
        rcases owned with voice | ⟨i, -, found⟩
        · exact rested.tended.sound.forest.not_voice (List.mem_append_left _ root)
            (Arena.voice_listed voice)
        · exact (rested.tended.sound.forest.child_apart (Array.mem_of_getElem? found)).2 root }
  floors := rested.floors
  modifiers := rfl
  graces := .inl rfl

theorem Standing.rested (standing : t.Standing here γ) (plain : γ.measuring = false)
    (live : γ.live = [here]) (floor : γ.post.floor = fun _ => 0) (held : γ.post.held = [])
    (root : here ∈ t.channels.toList) : t.Rested (some here) where
  tended := by
    have tended := standing.tended
    rwa [plain, live] at tended
  root other same := Option.some.inj same ▸ root
  level := standing.poised.level
  behind {parent child i} found := by
    have owned : t.arena.Owns γ.post.floor parent child := .inr ⟨i, floor ▸ Nat.zero_le i, found⟩
    have none (id : TimelineId) : id ∉ γ.post.held := held ▸ List.not_mem_nil
    exact standing.poised.behind (floor ▸ Nat.zero_le i) found
      (standing.poised.apart (none parent) owned).1 (none child)
  floors id := (standing.floors id).trans (congrFun floor id)

/-- Performing items starts no channel. -/
theorem upkeep_channels (channels : Array TimelineId) : Upkeep fun _ _ s => s.channels = channels where
  shrink _ same := same
  primitive _ primitive same done := (primitive.played done).channels.trans same
  branch _ same done := by
    obtain ⟨_, -, rfl⟩ := onArena_ok done
    exact same
  copy same := same

/-- Nothing is known. -/
theorem closed_true : Knowledge.Closed fun _ _ _ => True := ⟨fun _ _ _ => trivial, fun _ _ _ => trivial⟩

theorem handover_rested : Handover Rested where
  aside {active s t} rested arena channels measuring gas :=
    { tended := ((handover_held lasts_true).aside ⟨rested.tended, trivial⟩ arena channels
        measuring gas).tended
      root := channels ▸ rested.root
      level := arena ▸ rested.level
      behind := fun {parent child i} => arena ▸ rested.behind
      floors := arena ▸ rested.floors }
  start {active s} channel rested := by
    have each (id : TimelineId) := Arena.timeline_create channel s.arena id
    obtain ⟨limit, level⟩ := rested.level
    refine ⟨((handover_held lasts_true).start channel ⟨rested.tended, trivial⟩).tended,
      fun here same => ?_, ⟨limit, level.create channel⟩, fun {parent child i} found => ?_, fun id => ?_⟩
    · obtain rfl := Option.some.inj same
      rw [Array.toList_push]
      exact List.mem_append_right _ (List.mem_singleton_self _)
    · dsimp only at found ⊢
      rw [each] at found
      split at found
      · exact nomatch found
      · next old =>
        rw [each, each, if_neg old]
        split
        · exact Nat.zero_le _
        · exact rested.behind found
    · dsimp only
      rw [each]
      split
      · rfl
      · exact rested.floors id
  resume rested root :=
    { tended := ((handover_held lasts_true).resume ⟨rested.tended, trivial⟩ root).tended
      root := fun here same => Option.some.inj same ▸ root
      level := rested.level
      behind := rested.behind
      floors := rested.floors }
  repeats {here s} f rested := by
    have each (id : TimelineId) :
        ((s.arena.adjust here fun t => { t with repeats := f t.repeats }).timeline id).children =
          (s.arena.timeline id).children ∧
        ((s.arena.adjust here fun t => { t with repeats := f t.repeats }).timeline id).position =
          (s.arena.timeline id).position ∧
        ((s.arena.adjust here fun t => { t with repeats := f t.repeats }).timeline id).branchBase =
          (s.arena.timeline id).branchBase := by
      rw [Arena.timeline_adjust
        (rested.tended.sound.inside (rested.tended.playable here List.mem_cons_self))]
      split
      · next same => exact same ▸ ⟨rfl, rfl, rfl⟩
      · exact ⟨rfl, rfl, rfl⟩
    obtain ⟨limit, level⟩ := rested.level
    refine ⟨((handover_held lasts_true).repeats f ⟨rested.tended, trivial⟩).tended, rested.root,
      ⟨limit, level.still rfl rfl⟩, fun {parent child i} found => ?_, fun id => ?_⟩
    · dsimp only at found ⊢
      rw [(each _).1] at found
      rw [(each _).2.1, (each _).2.1]
      exact rested.behind found
    · exact (each id).2.2.trans (rested.floors id)
  item {here depth item ticks s t} rested done := by
    have standing := rested.standing List.not_mem_nil nofun fun _ _ => List.not_mem_nil
    obtain ⟨_, _, -, rfl, after⟩ := ((duet_standing closed_true).follows_perform depth 0 item).ok
      ⟨⟨rfl, trivial⟩, rfl, standing⟩ done
    have channels := (upkeep_channels s.channels).perform (m := false) (List.mem_singleton_self here)
      rfl done
    exact after.rested rfl rfl rfl rfl (channels ▸ rested.root here rfl)

theorem rested_start (gas : Nat) (score : List Node) :
    Rested (Config.start gas score).active (Config.start gas score).session where
  tended := (held_start (P := fun _ => True) trivial gas score).tended
  root := nofun
  level := ⟨0, fun _ => Nat.le_refl _, fun _ _ listed => absurd listed (Array.not_mem_empty _)⟩
  behind := nofun
  floors _ := rfl

/-- Nobody notices what happens to calls that stand nowhere. -/
theorem accompanies_unnoticed {N : Knowledge} (closed : N.Closed) {refusing : Performer}
    (alike : ∀ other : Call, (∃ γ, N other.here γ.post.floor γ.post.held ∧
      other.session.Standing other.here γ) → refusing.answer other = (perform depth).answer other) :
    Performer.Accompanies Met (standings N) (perform depth) refusing := by
  intro here here' γ references item
  refine ⟨?_, fun _ _ left => left.2.elim⟩
  rintro s _ ⟨⟨rfl, known⟩, rfl, standing⟩
  have same : (refusing here references item).run s = _ :=
    alike ⟨here, references, item, s⟩ ⟨γ, known, standing⟩
  rw [same]
  exact ((duet_standing closed).follows_perform depth references item).both s s
    ⟨⟨rfl, known⟩, rfl, standing⟩

/-- The calls that are made inside a call stand somewhere, too. -/
theorem Standing.asked {N : Knowledge} (closed : N.Closed) {outer call : Call}
    (standing : outer.session.Standing outer.here γ)
    (known : N outer.here γ.post.floor γ.post.held) (asks : Asks (perform depth) outer call) :
    ∃ γ', N call.here γ'.post.floor γ'.post.held ∧ call.session.Standing call.here γ' := by
  refine asks.of_unnoticed (I := fun other => ∃ γ', N other.here γ'.post.floor γ'.post.held ∧
    other.session.Standing other.here γ') Met
    (fun ticks => standings N outer.here outer.here (after ticks γ)) And.left fun refusing alike => ?_
  have accompanies := accompanies_unnoticed closed alike
  exact ((duet_standing closed).follows_with accompanies outer.references outer.item).both
    outer.session outer.session ⟨⟨rfl, known⟩, rfl, standing⟩

theorem item_admits (item : Item) (again : Bool) :
    Contract Fault.Admits (Rested active) (step active ⟨.item item, again⟩) fun _ _ => True := by
  have approached : Contract Fault.Admits (Rested active) (approach active again)
      fun here => Rested (some here) :=
    .of_results (fun rested done => handover_rested.approach again rested done)
      fun _ failed => (admits_of_sober (sober_approach active again)).error trivial failed
  rw [step_item]
  refine approached.bind fun here => .read fun s rested => ?_
  have standing := rested.standing List.not_mem_nil nofun fun _ _ => List.not_mem_nil
  have performed : Contract Fault.Admits (fun t => t = s)
      (perform (s.gas.remaining + 1) here 0 item) fun _ _ => True := by
    refine .of_results (fun _ _ => trivial) fun {u fault v} same failed => ?_
    subst same
    have agree := ((duet_standing closed_true).follows_perform (u.gas.remaining + 1) 0 item).both
      u u ⟨⟨rfl, trivial⟩, rfl, standing⟩
    rw [failed] at agree
    exact agree.2
  exact performed.bind fun _ =>
    admits_of_sober (sober_when (sober_adjustRepeats (some here) _) (blames_pure _))

theorem step_admits (queued : Queued) : Contract Fault.Admits (Rested active) (step active queued)
    fun next => Rested next.1 := by
  refine .of_results (fun rested done => handover_rested.step queued rested done)
    fun {s fault t} rested failed => ?_
  obtain ⟨node, again⟩ := queued
  cases node with
  | item item => exact (item_admits item again).error rested failed
  | _ => exact (admits_of_sober (sober_step rfl)).error trivial failed

theorem drain_admits (rounds : Nat) (queue : List Queued) :
    Contract Fault.Admits (Rested active) (drain rounds active queue) fun _ _ => True := by
  have ended (active : Option TimelineId) :
      Contract Fault.Admits (Rested active) (ensureRepeatClosed active) fun _ _ => True :=
    (admits_of_sober (sober_ensureRepeatClosed active)).mono (fun _ => trivial) id
  induction rounds generalizing active queue with
  | zero => cases queue with
    | nil => exact ended active
    | cons queued rest => exact .failAt nofun
  | succ rounds ih => cases queue with
    | nil => exact ended active
    | cons queued rest => exact (step_admits queued).bind fun next => ih _

/-- Wherever a run performs an item, timelines stand as they should. -/
theorem Reaches.standing {gas : Nat} {score : List Node} {call : Call}
    (reached : Reaches gas score depth call) : ∃ γ, call.session.Standing call.here γ := by
  induction reached with
  | @node active item again rest s t here rounds approached =>
    have rested := handover_rested.rounds rounds (rested_start gas score)
    have rested := handover_rested.approach again rested approached
    exact ⟨_, rested.standing List.not_mem_nil nofun fun _ _ => List.not_mem_nil⟩
  | inner reached asks ih =>
    obtain ⟨γ, standing⟩ := ih
    obtain ⟨γ', -, standing'⟩ := standing.asked closed_true trivial asks
    exact ⟨γ', standing'⟩

/-- How a passage begins: slots are reserved, and a child is claimed for each of them. -/
def claimBranches (here : TimelineId) (offset count : Nat) : Play (Nat × List TimelineId) := do
  let base ← update here (Timeline.reserve count)
  let children ← (List.range count).mapM fun i =>
    onArena (Arena.childAt here offset (.branch (base + i)))
  return (base, children)

section Claims
variable {children : List TimelineId}

theorem Commencing.claims {count : Nat} (commencing : s.Commencing here γ count children)
    (offset left : Nat) : ∃ ids t, ((List.range' children.length left).mapM fun i =>
        onArena (Arena.childAt here offset (.branch (γ.post.floor here + i)))).run s = .ok ids t ∧
      t.Commencing here γ count (children ++ ids) ∧
      ∀ id, (s.arena.timeline id).position ≤ (t.arena.timeline id).position := by
  induction left generalizing s children with
  | zero => exact ⟨[], s, rfl, (List.append_nil children).symm ▸ commencing, fun _ => Nat.le_refl _⟩
  | succ left ih =>
    have claimed := commencing_claim (E := fun _ => False) here γ (γ.post.floor here) count children
      offset ⟨rfl, commencing⟩
    rw [List.range'_succ, List.mapM_cons]
    cases first : (onArena (Arena.childAt here offset
        (.branch (γ.post.floor here + children.length)))).run s with
    | error fault t =>
      rw [first] at claimed
      exact claimed.elim
    | ok child u =>
      rw [first] at claimed
      obtain ⟨arena, ran, rfl⟩ := onArena_ok first
      have onward := (commencing.opening.claim commencing.tended.sound
        (commencing.tended.playable here commencing.member) ran).2
      obtain ⟨ids, t, mapped, ended, further⟩ := ih claimed.2
      rw [List.length_append, List.length_singleton] at mapped
      refine ⟨child :: ids, t, ?_, ?_, fun id => Nat.le_trans (onward id) (further id)⟩
      · rw [EStateM.run_bind, first]
        dsimp only
        rw [EStateM.run_bind, mapped]
        rfl
      · rwa [List.append_assoc, List.singleton_append] at ended

/-- The children of a passage are behind its timeline before they are claimed. -/
theorem Standing.claims (standing : s.Standing here γ) (offset count : Nat) :
    ∃ children t, (claimBranches here offset count).run s = .ok (γ.post.floor here, children) t ∧
      ∀ child ∈ children,
        (s.arena.timeline child).position ≤ (s.arena.timeline here).position ∧
        (t.arena.timeline child).position = (s.arena.timeline here).position := by
  have reserved := commencing_reserve (E := fun _ => False) count standing
  cases first : (update here (Timeline.reserve count)).run s with
  | error fault t =>
    rw [first] at reserved
    exact reserved.elim
  | ok base u =>
    rw [first] at reserved
    obtain ⟨free, commencing⟩ := reserved
    obtain ⟨children, t, mapped, ended, onward⟩ := commencing.claims offset count
    rw [List.length_nil, ← List.range_eq_range', ← free] at mapped
    have still (id : TimelineId) :
        (u.arena.timeline id).position = (s.arena.timeline id).position := by
      obtain ⟨arena, ran, rfl⟩ := onArena_ok first
      rw [Arena.update_run] at ran
      obtain ⟨-, rfl⟩ := EStateM.Result.ok.inj ran
      dsimp only
      rw [Arena.timeline_adjust standing.inside]
      split
      · next same => exact same ▸ rfl
      · rfl
    rw [← free]
    refine ⟨children, t, ?_, fun child member => ?_⟩
    · rw [claimBranches, EStateM.run_bind, first]
      dsimp only
      rw [EStateM.run_bind, mapped]
      rfl
    · have ready := ended.opening.ready child member
      rw [standing.poised.cursor, ← still child]
      exact ⟨Nat.le_trans (onward child) (Nat.le_of_eq ready), ready⟩

end Claims

/-- The calls that are made inside a call, at any depth. -/
inductive Asked (depth : Nat) (outer : Call) : (left : Nat) → Call → Prop
  | direct {left : Nat} {call : Call} (deeper : depth = left + 1)
    (asks : Asks (perform left) outer call) : Asked depth outer left call
  | inner {left : Nat} {between call : Call} (asked : Asked depth outer (left + 1) between)
    (asks : Asks (perform left) between call) : Asked depth outer left call

/-- Passages on a timeline use children from a place on only, or the timeline waits. -/
def Above (outer : TimelineId) (first : Nat) : Knowledge := fun here floor held =>
  (here = outer ∧ first ≤ floor outer) ∨ outer ∈ held

theorem closed_above (outer : TimelineId) (first : Nat) : (Above outer first).Closed where
  first {here floor held} count children known := by
    rcases known with ⟨rfl, above⟩ | waits
    · refine .inl ⟨rfl, ?_⟩
      simp only [if_pos]
      exact Nat.le_add_right_of_le above
    · exact .inr (List.mem_append_right children waits)
  other {here floor held} child others known := by
    rcases known with ⟨rfl, -⟩ | waits
    · exact .inr List.mem_cons_self
    · exact .inr (List.mem_cons_of_mem here (List.mem_append_right others waits))

/-- While the first branch of a passage is played its slots are in use, and while another one is
played its timeline waits. -/
theorem Standing.asked_branches {outer call : Call} (standing : outer.session.Standing outer.here γ)
    {offset : Nat} {branch : List Item} {branches : List (List Item)}
    (passage : outer.item = .parallel offset (branch :: branches))
    (asks : Asks (perform depth) outer call) :
    ∃ γ', Above outer.here (γ.post.floor outer.here + branches.length) call.here γ'.post.floor
      γ'.post.held ∧ call.session.Standing call.here γ' := by
  refine asks.of_unnoticed (I := fun other => ∃ γ', Above outer.here
      (γ.post.floor outer.here + branches.length) other.here γ'.post.floor γ'.post.held ∧
      other.session.Standing other.here γ') Met
    (fun ticks => along (Standing outer.here (after ticks γ)) (outer.here = outer.here ∧ True))
    And.left fun refusing alike => ?_
  have closed := closed_above outer.here (γ.post.floor outer.here + branches.length)
  have fork := fork_standing (N := Above outer.here (γ.post.floor outer.here + branches.length)) True
    outer.here outer.here γ branches.length
    (fun _ children arena length => .inl ⟨rfl, by simp only [Arena.Post.opened, if_pos, length, Nat.le_refl]⟩)
    fun _ child others => .inr List.mem_cons_self
  have accompanies := accompanies_unnoticed closed alike
  have passed := Ensemble.follows_passage fork (duet_standing closed).toEnsemble accompanies outer.references offset
    branch rfl
  have opened := (duet_standing closed_true).follows_opened offset passed
  have both := opened.both outer.session outer.session ⟨⟨rfl, trivial⟩, rfl, standing⟩
  unfold Performer.answer
  rw [passage]
  exact both

theorem Standing.asked_inside {outer call : Call} (standing : outer.session.Standing outer.here γ)
    {left offset : Nat} {branch : List Item} {branches : List (List Item)}
    (passage : outer.item = .parallel offset (branch :: branches))
    (asked : Asked depth outer left call) :
    ∃ γ', Above outer.here (γ.post.floor outer.here + branches.length) call.here γ'.post.floor
      γ'.post.held ∧ call.session.Standing call.here γ' := by
  induction asked with
  | direct _ asks => exact standing.asked_branches passage asks
  | inner _ asks ih =>
    obtain ⟨γ', known, standing'⟩ := ih
    exact standing'.asked (closed_above ..) known asks

/-- No run fails because a child is ahead of its parent. Wherever a run gets to no voice is ahead of its
timeline. A passage finds the children that it claims at or before the cursor of its timeline, and
leaves them there; and while its first branch is played, no passage on the same timeline gets a slot
that it has reserved. -/
theorem children_admitted (gas : Nat) (score : List Node) :
    (∀ fault t, (run score).run { gas := ⟨gas⟩ } = .error fault t →
      fault.cause ≠ .childAheadOfParent) ∧
    (∀ c, Rounds (.start gas score) c → c.session.arena.VoicesBehind) ∧
    ∀ depth call, Reaches gas score depth call →
      call.session.arena.VoicesBehind ∧
      (∀ ticks t, (perform depth).answer call = .ok ticks t → t.arena.VoicesBehind) ∧
      ∀ offset branch branches, call.item = .parallel offset (branch :: branches) →
        let cursor := (call.session.arena.timeline call.here).position
        let base := (call.session.arena.timeline call.here).branchBase
        (∀ s, (burn offset).run call.session = .ok () s →
          ∃ children t, (claimBranches call.here offset branches.length).run s =
            .ok (base, children) t ∧ ∀ child ∈ children,
              (call.session.arena.timeline child).position ≤ cursor ∧
              (t.arena.timeline child).position = cursor) ∧
        ∀ left inner, Asked depth call left inner → inner.here = call.here →
          base + branches.length ≤ (inner.session.arena.timeline inner.here).branchBase := by
  refine ⟨fun fault t failed => ?_, fun c rounds => ?_, fun depth call reached => ?_⟩
  · exact (drain_admits (gas + 1) (score.map (⟨·, false⟩))).error (rested_start gas score) failed
  · exact Arena.Level.voicesBehind (handover_rested.rounds rounds (rested_start gas score)).level
  · obtain ⟨γ, standing⟩ := reached.standing
    refine ⟨Arena.Level.voicesBehind standing.poised.level, fun ticks t done => ?_,
      fun offset branch branches passage => ⟨fun s burnt => ?_, fun left inner asked same => ?_⟩⟩
    · obtain ⟨_, _, -, rfl, after⟩ := ((duet_standing closed_true).follows_perform depth
        call.references call.item).ok ⟨⟨rfl, trivial⟩, rfl, standing⟩ done
      exact Arena.Level.voicesBehind after.poised.level
    · have burning := (standing_gesture (.burn offset)).ok standing burnt
      have arena : s.arena = call.session.arena := by
        rw [burn_run] at burnt
        split at burnt
        · exact nomatch burnt
        · cases burnt
          rfl
      obtain ⟨children, t, claimed, ready⟩ := burning.claims offset branches.length
      rw [← arena, burning.floors]
      exact ⟨children, t, claimed, ready⟩
    · obtain ⟨γ', known, inside⟩ := standing.asked_inside passage asked
      rcases known with ⟨-, above⟩ | waits
      · rw [standing.floors, inside.floors, same]
        exact above
      · exact absurd (same ▸ waits) inside.poised.free

end Session
end TextScore
