import Mathlib.Logic.Function.Basic
import TextScore.Proofs.TwinRuns

/-! Repeats against the same notes written out. What a repeat plays again is what was recorded while
it was open, so a run that repeats a part and a run in which the part is written out go side by
side, on twins. -/
namespace TextScore

/-- Items and settings for all channels. -/
def Node.isPlain : Node → Bool
  | .item _ | .global .. => true
  | _ => false

/-- A group that has been declared is referred to. -/
def Node.refer : Node → Node
  | .item (.group offset id _) => .item (.groupRef offset id)
  | node => node

theorem Node.replay?_plain {node : Node} (plain : node.isPlain) : node.replay? = some node.refer := by
  cases node with
  | item item => cases item <;> rfl
  | «global» => rfl
  | _ => exact nomatch plain

theorem Node.isPlain_refer {node : Node} (plain : node.isPlain) : node.refer.isPlain := by
  cases node with
  | item item => cases item <;> rfl
  | «global» => rfl
  | _ => exact nomatch plain

/-- Marks that steer the run. -/
def Node.isMark : Node → Bool
  | .repeatOpen _ | .repeatClose .. | .volta .. => true
  | _ => false

/-- What a mark does to the repeats of the timeline it stands on. -/
def Node.steer (node : Node) (budget : Nat) : Step Repeats (List Node) := do
  if !node.isSecondaVolta then modify Repeats.expire
  let again ← match node with
    | .repeatOpen offset => do
      Repeats.start offset
      pure []
    | .repeatClose offset count => Repeats.close offset count budget
    | .volta offset ending => do
      Repeats.volta offset ending
      pure []
    | _ => pure []
  modify (Repeats.record node)
  return again

namespace Repeats

/-- What a first pass leaves of repeats. -/
def passed (nodes : List Node) (r : Repeats) : Repeats :=
  nodes.foldl (fun r node => r.expire.record node) r

theorem capture_passed {nodes : List Node} (plain : ∀ node ∈ nodes, node.isPlain) (r : Repeats) :
    (r.passed nodes).capture =
      r.capture.map fun c => ⟨c.offset, c.nodes ++ (nodes.map Node.refer).toArray⟩ := by
  induction nodes generalizing r with
  | nil =>
    cases captured : r.capture with
    | none => simp only [passed, List.foldl_nil, captured, Option.map_none]
    | some c => simp only [passed, List.foldl_nil, captured, Option.map_some, List.map_nil,
        Array.append_empty]
  | cons node nodes ih =>
    have recorded := Node.replay?_plain (plain node List.mem_cons_self)
    have ih := ih (fun node listed => plain node (List.mem_cons_of_mem _ listed))
      (r.expire.record node)
    have unfolded : r.passed (node :: nodes) = (r.expire.record node).passed nodes := rfl
    have pushed (played : Array Node) : played.push node.refer ++ (nodes.map Node.refer).toArray =
        played ++ ((node :: nodes).map Node.refer).toArray := by
      apply Array.toList_inj.mp
      simp only [Array.toList_append, Array.toList_push, List.map_cons, List.append_assoc,
        List.singleton_append]
    rw [unfolded, ih, record, recorded]
    cases captured : r.capture with
    | none => simp only [expire, captured, Option.map_none]
    | some c => simp only [expire, captured, Option.map_some, pushed]

theorem captured_passed {nodes : List Node} (plain : ∀ node ∈ nodes, node.isPlain) {r : Repeats}
    {c : Capture} (opened : r.capture = some c) :
    (r.passed nodes).captured = c.nodes ++ (nodes.map Node.refer).toArray := by
  rw [captured, capture_passed plain, opened]
  rfl

theorem any_isPrimaVolta {nodes : List Node} (plain : ∀ node ∈ nodes, node.isPlain) :
    nodes.any Node.isPrimaVolta = false := by
  rw [List.any_eq_false]
  intro node listed prima
  have plain := plain node listed
  cases node with
  | volta => exact nomatch plain
  | _ => exact nomatch prima

theorem copies_eq (count : Nat) (nodes : List Node) :
    copies count nodes = (List.replicate count nodes).flatten := by
  unfold copies
  split
  · next empty =>
    rw [List.isEmpty_iff.mp empty]
    induction count with
    | zero => rfl
    | succ count ih => simpa only [List.replicate_succ, List.flatten_cons, List.nil_append] using ih
  · rfl

theorem plain_refer {nodes : List Node} (plain : ∀ node ∈ nodes, node.isPlain) :
    ∀ node ∈ nodes.map Node.refer, node.isPlain := by
  intro again listed
  obtain ⟨node, member, rfl⟩ := List.mem_map.mp listed
  exact Node.isPlain_refer (plain node member)

theorem plain_copies {nodes : List Node} (plain : ∀ node ∈ nodes, node.isPlain) (count : Nat) :
    ∀ node ∈ copies count nodes, node.isPlain := by
  intro node listed
  rw [copies_eq] at listed
  obtain ⟨copy, copied, listed⟩ := List.mem_flatten.mp listed
  rw [(List.mem_replicate.mp copied).2] at listed
  exact plain node listed

/-- A second ending is not allowed after other nodes. -/
theorem secondaAllowed_passed {nodes : List Node} {r : Repeats}
    (expired : nodes ≠ [] ∨ r.secondaAllowed = false) :
    (r.passed nodes).secondaAllowed = false := by
  rcases List.eq_nil_or_concat nodes with rfl | ⟨before, node, rfl⟩
  · exact expired.resolve_left fun nonempty => nonempty rfl
  · rw [passed, List.concat_eq_append, List.foldl_append]
    exact secondaAllowed_record node _

section Steering
variable {q : Repeats} {offset : Nat} {count : Option Nat} {played : Array Node}

theorem steer_repeatOpen (closed : q.capture = none) (budget : Nat) :
    ((Node.repeatOpen offset).steer budget).run q =
      .ok [] ⟨q.performed, some ⟨offset, #[]⟩, false⟩ := by
  have none : q.expire.capture.isSome = false := by
    rw [expire, closed]
    rfl
  simp only [Node.steer, Node.isSecondaVolta, Bool.not_false, reduceIte, EStateM.run_bind,
    EStateM.run_modify, start_run, none, Bool.false_eq_true, EStateM.run_pure]
  rfl

theorem steer_repeatClose (opened : q.captured = played)
    (single : played.any Node.isPrimaVolta = false) (often : count.getD 2 ≠ 0) (budget : Nat) :
    ((Node.repeatClose offset count).steer budget).run q =
      if budget ≤ (count.getD 2 - 1) * played.size then
        .error ⟨.exhausted, offset⟩ ⟨#[], none, false⟩
      else .ok (copies (count.getD 2 - 1) played.toList) ⟨#[], none, false⟩ := by
  have same : q.expire.captured = played := opened
  simp only [Node.steer, Node.isSecondaVolta, Bool.not_false, reduceIte, EStateM.run_bind,
    EStateM.run_modify, close_run, same, single, often, Bool.false_eq_true, EStateM.run_pure]
  by_cases short : budget ≤ (count.getD 2 - 1) * played.size
  · rw [if_pos short, if_pos short]
    rfl
  · rw [if_neg short, if_neg short]
    rfl

/-- A part with a first ending is played again up to it. -/
theorem steer_repeatClose_volta (opened : q.captured = played)
    (ending : played.any Node.isPrimaVolta = true) (twice : count.getD 2 = 2) (budget : Nat) :
    ((Node.repeatClose offset count).steer budget).run q =
      .ok (played.toList.takeWhile (!·.isPrimaVolta)) ⟨#[], none, true⟩ := by
  have same : q.expire.captured = played := opened
  have two : (2 = 0) = False := eq_false (by omega)
  simp only [Node.steer, Node.isSecondaVolta, Bool.not_false, reduceIte, EStateM.run_bind,
    EStateM.run_modify, close_run, same, ending, twice, ne_eq, not_true_eq_false,
    two, EStateM.run_pure]
  rfl

theorem steer_prima {c : Capture} (opened : q.capture = some c)
    (single : c.nodes.any Node.isPrimaVolta = false) (budget : Nat) :
    ((Node.volta offset .prima).steer budget).run q = .ok []
      ⟨q.performed.push (.volta offset .prima),
        some ⟨c.offset, c.nodes.push (.volta offset .prima)⟩, false⟩ := by
  have same : q.expire.capture = some c := opened
  simp only [Node.steer, Node.isSecondaVolta, Bool.not_false, reduceIte, EStateM.run_bind,
    EStateM.run_modify, volta_run, same, single, Bool.false_eq_true, EStateM.run_pure]
  simp only [record, Node.replay?, same, Option.map_some]
  rfl

theorem steer_seconda (allowed : q.secondaAllowed = true) (budget : Nat) :
    ((Node.volta offset .seconda).steer budget).run q = .ok [] ⟨q.performed, q.capture, false⟩ := by
  simp only [Node.steer, Node.isSecondaVolta, Bool.not_true, Bool.false_eq_true, reduceIte,
    EStateM.run_bind, EStateM.run_modify, volta_run, allowed, EStateM.run_pure]
  rfl

end Steering

end Repeats

namespace Session
open Step (Follows)
variable {k n : Nat} {r r' : TimelineId → Repeats} {s s' t u : Session} {here : TimelineId}
  {rest : List Queued} {again again' : Bool}

theorem update_setRepeats (inside : here < s.arena.timelines.size) (q : Repeats) :
    (s.setRepeats here q).arena.repeats = Function.update s.arena.repeats here q := by
  funext id
  rw [repeats_setRepeats, Function.update_apply]
  simp only [inside, and_true]

section Passes
variable {α : Type} {Q : α → Coupling Session}

/-- A change of the repeats of one timeline, left out where nodes are played again. -/
def marked (again : Bool) (here : TimelineId) (f : Repeats → Repeats) (r : TimelineId → Repeats) :
    TimelineId → Repeats :=
  if again then r else Function.update r here (f (r here))

theorem follows_marked {p p' : PUnit → Play α} (inside : here < n) (f : Repeats → Repeats)
    (rest : Follows Excused (paired k n (marked again here f r) (marked again' here f r'))
      (p ⟨⟩) (p' ⟨⟩) Q) :
    Follows Excused (paired k n r r')
      (if !again then adjustRepeats (some here) f >>= p else p ⟨⟩)
      (if !again' then adjustRepeats (some here) f >>= p' else p' ⟨⟩) Q := by
  have run (again : Bool) (p : PUnit → Play α) (s : Session) :
      (if !again then adjustRepeats (some here) f >>= p else p ⟨⟩).run s =
        (p ⟨⟩).run (if again then s else s.setRepeats here (f (s.arena.repeats here))) := by
    cases again with
    | true => rfl
    | false =>
      simp only [Bool.not_false, reduceIte, EStateM.run_bind, adjustRepeats_run]
      rfl
  constructor
  · intro s s' coupled
    obtain ⟨twin, rfl, rfl, size⟩ := coupled
    have inside : here < s.arena.timelines.size := Nat.lt_of_lt_of_le inside size
    have inside' : here < s'.arena.timelines.size := Nat.lt_of_lt_of_eq inside twin.size.symm
    rw [run, run]
    refine rest.both _ _ ⟨?_, ?_, ?_, ?_⟩
    · cases again <;> cases again'
      · exact (twin.setRepeats_left here _).setRepeats_right here _
      · exact twin.setRepeats_left here _
      · exact twin.setRepeats_right here _
      · exact twin
    · cases again
      · exact update_setRepeats inside _
      · rfl
    · cases again'
      · exact update_setRepeats inside' _
      · rfl
    · cases again
      · exact Nat.le_trans size (Nat.le_of_eq (Arena.size_adjust ..).symm)
      · exact size
  · intro fault s' left
    rw [run]
    exact rest.alone fault _ left

/-- What a plain node performs. -/
def performPlain (here : TimelineId) : Node → Play Unit
  | .item item => do
    let _ ← perform ((← get).gas.remaining + 1) here 0 item
  | .global offset key value => globalSetting (some here) offset key value
  | _ => return ()

theorem step_plain {node : Node} (plain : node.isPlain) (again : Bool) :
    step (some here) ⟨node, again⟩ = (do
      if !node.isItem then burn node.offset
      if !again then adjustRepeats (some here) Repeats.expire
      performPlain here node
      if !again then adjustRepeats (some here) (Repeats.record node)
      return (some here, [])) := by
  cases node with
  | item item => cases again <;>
    simp only [step, performNode, performPlain, activate, Node.isItem, Node.isSecondaVolta,
      Bool.not_true, Bool.not_false, Bool.and_true, Bool.false_eq_true, reduceIte, bind_assoc,
      pure_bind]
  | «global» offset key value => cases again <;>
    simp only [step, performNode, performPlain, Node.isItem, Node.isSecondaVolta, Bool.not_true,
      Bool.not_false, Bool.and_true, Bool.false_eq_true, reduceIte, bind_assoc, pure_bind]
  | _ => cases plain

theorem follows_performPlain (node : Node) : Follows Excused (paired k n r r')
    (performPlain here node) (performPlain here node) fun _ => paired k n r r' := by
  cases node with
  | item item =>
    refine follows_deepen (P := Paired k n r r') (Q := fun _ => Paired k n r r')
      (f := fun depth => do let _ ← perform depth here 0 item) And.left fun deeper => ?_
    apply (follows_item deeper here 0 item).bind
    intro _
    exact follows_pure (Q := fun _ => paired k n r r') ()
  | «global» offset key value => exact follows_globalSetting (some here) offset key value
  | _ => exact follows_pure (Q := fun _ => paired k n r r') ()

/-- What a pass through nodes leaves of all repeats. Only a first pass is recorded. -/
def passed (again : Bool) (here : TimelineId) (nodes : List Node) (r : TimelineId → Repeats) :
    TimelineId → Repeats :=
  marked again here (Repeats.passed nodes) r

theorem marked_marked (again : Bool) (here : TimelineId) (f g : Repeats → Repeats)
    (r : TimelineId → Repeats) :
    marked again here g (marked again here f r) = marked again here (g ∘ f) r := by
  cases again with
  | true => rfl
  | false => simp only [marked, Bool.false_eq_true, reduceIte, Function.update_self,
      Function.update_idem, Function.comp_apply]

theorem follows_plain {node : Node} (plain : node.isPlain) (inside : here < n) :
    Follows Excused (paired k n r r') (step (some here) ⟨node, again⟩)
      (step (some here) ⟨node, again'⟩) fun next => tolerant fun s s' => next = (some here, []) ∧
        Paired k n (passed again here [node] r) (passed again' here [node] r') s s' := by
  rw [step_plain plain, step_plain plain]
  apply follows_when (follows_burn _)
  apply follows_marked inside _
  apply (follows_performPlain node).bind
  intro _
  apply follows_marked inside _
  rw [marked_marked, marked_marked]
  exact follows_of_agree fun s s' coupled => ⟨rfl, rfl, coupled⟩

end Passes

theorem setRepeats_setRepeats (here : TimelineId) (q q' : Repeats) (s : Session) :
    (s.setRepeats here q).setRepeats here q' = s.setRepeats here q' := by
  unfold setRepeats
  rw [Arena.adjust_adjust]
  rfl

def spend (s : Session) : Session := { s with gas := ⟨s.gas.remaining - 1⟩ }

theorem step_mark {node : Node} (mark : node.isMark) (inside : here < s.arena.timelines.size)
    (left : 1 < s.gas.remaining) : (step (some here) ⟨node, false⟩).run s =
      match (node.steer (s.gas.remaining - 1)).run (s.arena.repeats here) with
      | .ok again q => .ok (some here, again) (s.spend.setRepeats here q)
      | .error fault q => .error fault (s.spend.setRepeats here q) := by
  have burnt (offset : Nat) : (burn offset).run s = .ok () s.spend := by
    rw [burn_run, if_neg (by omega)]
    rfl
  have expired : (adjustRepeats (some here) Repeats.expire).run s.spend = .ok ()
      (s.spend.setRepeats here (s.arena.repeats here).expire) := adjustRepeats_run ..
  have view (q : Repeats) : (s.spend.setRepeats here q).arena.repeats here = q := by
    rw [repeats_setRepeats, if_pos ⟨rfl, inside⟩]
  have budget (q : Repeats) :
    (s.spend.setRepeats here q).gas.remaining = s.gas.remaining - 1 := rfl
  cases node with
  | repeatOpen offset =>
    simp only [step, performNode, activate, Node.steer, Node.isItem, Node.isSecondaVolta,
      Bool.not_false, Bool.and_true, reduceIte, EStateM.run_bind, burnt, expired, EStateM.run_pure,
      EStateM.run_modify, onRepeats_run, view]
    cases (Repeats.start offset).run (s.arena.repeats here).expire <;>
      simp only [adjustRepeats_run, view, setRepeats_setRepeats]
  | repeatClose offset count =>
    simp only [step, performNode, activate, Node.steer, Node.isItem, Node.isSecondaVolta,
      Bool.not_false, Bool.and_true, reduceIte, EStateM.run_bind, burnt, expired, EStateM.run_pure,
      EStateM.run_modify, EStateM.run_get, onRepeats_run, view, budget]
    cases (Repeats.close offset count (s.gas.remaining - 1)).run (s.arena.repeats here).expire <;>
      simp only [adjustRepeats_run, view, setRepeats_setRepeats]
  | volta offset ending =>
    cases ending with
    | prima =>
      simp only [step, performNode, activate, Node.steer, Node.isItem, Node.isSecondaVolta,
        Bool.not_false, Bool.and_true, reduceIte, EStateM.run_bind, burnt, expired,
        EStateM.run_pure, EStateM.run_modify, onRepeats_run, view]
      cases (Repeats.volta offset .prima).run (s.arena.repeats here).expire <;>
        simp only [adjustRepeats_run, view, setRepeats_setRepeats]
    | seconda =>
      have same : s.spend.arena.repeats here = s.arena.repeats here := rfl
      simp only [step, performNode, activate, Node.steer, Node.isItem, Node.isSecondaVolta,
        Bool.not_false, Bool.not_true, Bool.and_false, Bool.false_eq_true, reduceIte,
        EStateM.run_bind, burnt, EStateM.run_pure, EStateM.run_modify, onRepeats_run, same]
      cases (Repeats.volta offset .seconda).run (s.arena.repeats here) <;>
        simp only [adjustRepeats_run, view, setRepeats_setRepeats]
  | _ => cases mark

theorem step_mark_left {node : Node} {next : Option TimelineId × List Node} (mark : node.isMark)
    (done : (step (some here) ⟨node, again⟩).run s = .ok next t) : 1 < s.gas.remaining := by
  have item : node.isItem = false := by
    cases node with
    | item => cases mark
    | _ => rfl
  simp only [step, item, Bool.not_false, reduceIte] at done
  obtain ⟨_, _, burnt, -⟩ := Step.bind_ok done
  rw [burn_run] at burnt
  split at burnt
  · cases burnt
  · omega

/-- Where the first of two sessions gets through one part to the rest, the second gets through
another. -/
def Passes (here : TimelineId) (part part' : List Queued) (P Q : Session → Session → Prop) : Prop :=
  ∀ ⦃s s' rest u⦄, P s s' → Config.Ends ⟨some here, part ++ rest, s⟩ u →
    ∃ t t', Rounds ⟨some here, part ++ rest, s⟩ ⟨some here, rest, t⟩ ∧
      (∀ rest', Rounds ⟨some here, part' ++ rest', s'⟩ ⟨some here, rest', t'⟩) ∧ Q t t'

section Parts
variable {part part' more more' : List Queued} {P Q R : Session → Session → Prop}

theorem Passes.refl (P : Session → Session → Prop) : Passes here [] [] P P := by
  intro s s' rest u coupled ends
  exact ⟨s, s', .refl, fun _ => .refl, coupled⟩

theorem Passes.trans (first : Passes here part part' P Q) (second : Passes here more more' Q R) :
    Passes here (part ++ more) (part' ++ more') P R := by
  intro s s' rest u coupled ends
  rw [List.append_assoc] at ends ⊢
  obtain ⟨t, t', before, before', coupled⟩ := first coupled ends
  obtain ⟨v, v', after, after', coupled⟩ := second coupled (ends.through before)
  refine ⟨v, v', before.trans after, fun rest' => ?_, coupled⟩
  rw [List.append_assoc]
  exact (before' _).trans (after' _)

theorem passes_plain {nodes : List Node} (plain : ∀ node ∈ nodes, node.isPlain)
    (inside : here < n) (again again' : Bool) :
    Passes here (nodes.map (⟨·, again⟩)) (nodes.map (⟨·, again'⟩)) (Paired k n r r')
      (Paired k n (passed again here nodes r) (passed again' here nodes r')) := by
  induction nodes generalizing r r' with
  | nil =>
    have none (again : Bool) (r : TimelineId → Repeats) : passed again here [] r = r := by
      cases again with
      | true => rfl
      | false => exact Function.update_eq_self here r
    rw [none, none]
    exact .refl _
  | cons node nodes ih =>
    have one : Passes here [⟨node, again⟩] [⟨node, again'⟩] (Paired k n r r')
        (Paired k n (passed again here [node] r) (passed again' here [node] r')) := by
      intro s s' rest u coupled ends
      obtain ⟨active', played, t, done, -⟩ := ends.next
      obtain ⟨t', done', same, coupled⟩ :=
        (follows_plain (plain node List.mem_cons_self) inside).ok coupled done
      cases same
      exact ⟨t, t', .single (.node done), fun rest' => .single (.node done'), coupled⟩
    have others : Passes here (nodes.map (⟨·, again⟩)) (nodes.map (⟨·, again'⟩))
        (Paired k n (passed again here [node] r) (passed again' here [node] r'))
        (Paired k n (passed again here nodes (passed again here [node] r))
          (passed again' here nodes (passed again' here [node] r'))) :=
      ih fun node listed => plain node (List.mem_cons_of_mem _ listed)
    have joined (again : Bool) (r : TimelineId → Repeats) :
        passed again here nodes (passed again here [node] r) =
          passed again here (node :: nodes) r := marked_marked ..
    rw [joined, joined] at others
    exact one.trans others

/-- Twins whose repeats are the same but for those of one timeline. -/
def Abreast (k n : Nat) (r : TimelineId → Repeats) (here : TimelineId) (q q' : Repeats) :
    Session → Session → Prop :=
  Paired k n (Function.update r here q) (Function.update r here q')

variable {q q' : Repeats}

theorem passed_update (again : Bool) (here : TimelineId) (nodes : List Node)
    (r : TimelineId → Repeats) (q : Repeats) :
    passed again here nodes (Function.update r here q) =
      Function.update r here (if again then q else q.passed nodes) := by
  cases again with
  | true => rfl
  | false => simp only [passed, marked, Bool.false_eq_true, reduceIte, Function.update_self,
      Function.update_idem]

theorem abreast_plain {nodes : List Node} (plain : ∀ node ∈ nodes, node.isPlain)
    (inside : here < n) (again again' : Bool) :
    Passes here (nodes.map (⟨·, again⟩)) (nodes.map (⟨·, again'⟩)) (Abreast k n r here q q')
      (Abreast k n r here (if again then q else q.passed nodes)
        (if again' then q' else q'.passed nodes)) := by
  unfold Abreast
  rw [← passed_update, ← passed_update]
  exact passes_plain plain inside again again'

theorem repeats_spend (inside : here < s.arena.timelines.size)
    (before : s.arena.repeats = Function.update r here q) (q₁ : Repeats) :
    (s.spend.setRepeats here q₁).arena.repeats = Function.update r here q₁ := by
  have seated : here < s.spend.arena.timelines.size := inside
  have kept : s.spend.arena.repeats = Function.update r here q := before
  rw [update_setRepeats seated, kept, Function.update_idem]

/-- A mark in the first part only. -/
theorem abreast_mark {node : Node} (mark : node.isMark) (inside : here < n) {next : List Node}
    {q₁ : Repeats} (answers : ∀ budget next' q₁', (node.steer budget).run q = .ok next' q₁' →
      next' = next ∧ q₁' = q₁)
    (further : Passes here (next.map (⟨·, true⟩)) part' (Abreast (k + 1) n r here q₁ q') Q) :
    Passes here [⟨node, false⟩] part' (Abreast k n r here q q') Q := by
  intro s s' rest u coupled ends
  obtain ⟨twin, left, right, size⟩ := coupled
  have seated : here < s.arena.timelines.size := Nat.lt_of_lt_of_le inside size
  have own : s.arena.repeats here = q := by rw [left, Function.update_self]
  obtain ⟨active', played, t, done, ends⟩ := ends.next
  have burnt := step_mark_left mark done
  have stepped := done
  rw [step_mark mark seated burnt, own] at done
  split at done
  · next next' q₁' steered =>
    obtain ⟨rfl, rfl⟩ := answers _ _ _ steered
    cases done
    have poorer : s.spend.Twin (k + 1) s' := by
      obtain @⟨arena, twin⟩ := twin
      have more : s.gas.remaining + k = s.spend.gas.remaining + (k + 1) := by
        simp only [spend]
        omega
      rw [more]
      exact .mk twin
    have abreast : Abreast (k + 1) n r here q₁' q' (s.spend.setRepeats here q₁') s' :=
      ⟨poorer.setRepeats_left here _, repeats_spend seated left _, right,
        Nat.le_trans size (Nat.le_of_eq (Arena.size_adjust ..).symm)⟩
    obtain ⟨v, v', after, after', coupled⟩ := further abreast ends
    exact ⟨v, v', .head (.node stepped) after, after', coupled⟩
  · exact nomatch done

/-- A mark in the second part only. It burns gas that the first part does not. -/
theorem abreast_mark' {node : Node} (mark : node.isMark) (inside : here < n) {next : List Node}
    {q₁ : Repeats} (room : 1 ≤ k)
    (answers : ∀ budget, k ≤ budget → (node.steer budget).run q' = .ok next q₁)
    (further : Passes here part (next.map (⟨·, true⟩)) (Abreast k n r here q q₁) Q) :
    Passes here part [⟨node, false⟩] (Abreast (k + 1) n r here q q') Q := by
  intro s s' rest u coupled ends
  obtain ⟨twin, left, right, size⟩ := coupled
  have seated : here < s'.arena.timelines.size :=
    Nat.lt_of_lt_of_eq (Nat.lt_of_lt_of_le inside size) twin.size.symm
  have own : s'.arena.repeats here = q' := by rw [right, Function.update_self]
  have gas := twin.gas
  have richer : s.Twin k s'.spend := by
    obtain @⟨arena, twin⟩ := twin
    have less : (⟨s.gas.remaining + (k + 1)⟩ : Gas).remaining - 1 = s.gas.remaining + k := by
      dsimp only
      omega
    unfold spend
    rw [less]
    exact .mk twin
  have done := step_mark mark seated (by omega)
  rw [own, answers (s'.gas.remaining - 1) (by omega)] at done
  obtain ⟨v, v', after, after', coupled⟩ :=
    further ⟨richer.setRepeats_right here q₁, left, repeats_spend seated right q₁, size⟩ ends
  exact ⟨v, v', after, fun rest' => .head (.node done) (after' rest'), coupled⟩

/-- A mark that hands back nothing. -/
theorem abreast_silent {node : Node} (mark : node.isMark) (inside : here < n) {q₁ : Repeats}
    (answers : ∀ budget, (node.steer budget).run q = .ok [] q₁) :
    Passes here [⟨node, false⟩] [] (Abreast k n r here q q') (Abreast (k + 1) n r here q₁ q') := by
  have answered : ∀ budget next' q₁', (node.steer budget).run q = .ok next' q₁' →
      next' = [] ∧ q₁' = q₁ := by
    intro budget next' q₁' done
    rw [answers] at done
    cases done
    exact ⟨rfl, rfl⟩
  exact abreast_mark mark inside answered (.refl _)

theorem abreast_silent' {node : Node} (mark : node.isMark) (inside : here < n) {q₁ : Repeats}
    (room : 1 ≤ k) (answers : ∀ budget, (node.steer budget).run q' = .ok [] q₁) :
    Passes here [] [⟨node, false⟩] (Abreast (k + 1) n r here q q')
      (Abreast k n r here q q₁) :=
  abreast_mark' mark inside room (fun budget _ => answers budget) (.refl _)

/-- Nodes as they stand in a score. -/
def fresh (nodes : List Node) : List Queued := nodes.map (⟨·, false⟩)

end Parts

section Repeated
variable {part : List Node} {opening closing : Nat} {count : Option Nat} {q : Repeats}

/-- The first passes of a part, recorded since a repeat was opened or not. -/
theorem captured_first (plain : ∀ node ∈ part, node.isPlain) (performed : Array Node) :
    (Repeats.passed part ⟨performed, some ⟨opening, #[]⟩, false⟩).captured =
      (part.map Node.refer).toArray := by
  rw [Repeats.captured_passed plain rfl, Array.empty_append]

/-- A part that is repeated, and the part written out. -/
theorem passes_repeated (plain : ∀ node ∈ part, node.isPlain) (inside : here < n)
    (closed : q.capture = none) (often : count.getD 2 ≠ 0) :
    Passes here (fresh (.repeatOpen opening :: part ++ [.repeatClose closing count]))
      (fresh (part ++ Repeats.copies (count.getD 2 - 1) (part.map Node.refer)))
      (Abreast 0 n r here q q) (Abreast 2 n r here ⟨#[], none, false⟩
        ((q.passed part).passed (Repeats.copies (count.getD 2 - 1) (part.map Node.refer)))) := by
  have referred := Repeats.plain_refer plain
  have copied := Repeats.plain_copies referred (count.getD 2 - 1)
  have opens : Passes here [⟨.repeatOpen opening, false⟩] [] (Abreast 0 n r here q q)
      (Abreast 1 n r here ⟨q.performed, some ⟨opening, #[]⟩, false⟩ q) :=
    abreast_silent rfl inside (Repeats.steer_repeatOpen closed)
  have once : Passes here (fresh part) (fresh part)
      (Abreast 1 n r here ⟨q.performed, some ⟨opening, #[]⟩, false⟩ q)
      (Abreast 1 n r here (Repeats.passed part ⟨q.performed, some ⟨opening, #[]⟩, false⟩)
        (q.passed part)) :=
    abreast_plain plain inside false false
  have closes : Passes here [⟨.repeatClose closing count, false⟩]
      (fresh (Repeats.copies (count.getD 2 - 1) (part.map Node.refer)))
      (Abreast 1 n r here (Repeats.passed part ⟨q.performed, some ⟨opening, #[]⟩, false⟩)
        (q.passed part)) (Abreast 2 n r here ⟨#[], none, false⟩
        ((q.passed part).passed (Repeats.copies (count.getD 2 - 1) (part.map Node.refer)))) := by
    refine abreast_mark rfl inside (fun budget next' q₁' done => ?_)
      (abreast_plain copied inside true false)
    rw [Repeats.steer_repeatClose (captured_first plain _)
      ((List.any_toArray ..).trans (Repeats.any_isPrimaVolta referred)) often] at done
    split at done
    · exact nomatch done
    · cases done
      exact ⟨rfl, rfl⟩
  have all := opens.trans (once.trans closes)
  simpa only [fresh, List.map_append, List.map_cons, List.map_nil, List.cons_append,
    List.nil_append] using all

/-- The part written out, and the part repeated, which burns gas for the two marks and needs a
budget for what it plays again. -/
theorem passes_written (plain : ∀ node ∈ part, node.isPlain) (inside : here < n)
    (closed : q.capture = none) (often : count.getD 2 ≠ 0) (room : 1 ≤ k)
    (enough : (count.getD 2 - 1) * part.length < k) :
    Passes here (fresh (part ++ Repeats.copies (count.getD 2 - 1) (part.map Node.refer)))
      (fresh (.repeatOpen opening :: part ++ [.repeatClose closing count]))
      (Abreast (k + 2) n r here q q) (Abreast k n r here
        ((q.passed part).passed (Repeats.copies (count.getD 2 - 1) (part.map Node.refer)))
        ⟨#[], none, false⟩) := by
  have referred := Repeats.plain_refer plain
  have copied := Repeats.plain_copies referred (count.getD 2 - 1)
  have opens : Passes here [] [⟨.repeatOpen opening, false⟩] (Abreast (k + 2) n r here q q)
      (Abreast (k + 1) n r here q ⟨q.performed, some ⟨opening, #[]⟩, false⟩) :=
    abreast_silent' rfl inside (Nat.succ_le_succ (Nat.zero_le k)) (Repeats.steer_repeatOpen closed)
  have once : Passes here (fresh part) (fresh part)
      (Abreast (k + 1) n r here q ⟨q.performed, some ⟨opening, #[]⟩, false⟩)
      (Abreast (k + 1) n r here (q.passed part)
        (Repeats.passed part ⟨q.performed, some ⟨opening, #[]⟩, false⟩)) :=
    abreast_plain plain inside false false
  have closes : Passes here (fresh (Repeats.copies (count.getD 2 - 1) (part.map Node.refer)))
      [⟨.repeatClose closing count, false⟩]
      (Abreast (k + 1) n r here (q.passed part)
        (Repeats.passed part ⟨q.performed, some ⟨opening, #[]⟩, false⟩))
      (Abreast k n r here
        ((q.passed part).passed (Repeats.copies (count.getD 2 - 1) (part.map Node.refer)))
        ⟨#[], none, false⟩) := by
    refine abreast_mark' rfl inside room (fun budget more => ?_)
      (abreast_plain copied inside false true)
    rw [Repeats.steer_repeatClose (captured_first plain _)
      ((List.any_toArray ..).trans (Repeats.any_isPrimaVolta referred)) often]
    have length : (part.map Node.refer).toArray.size = part.length := by
      rw [List.size_toArray, List.length_map]
    rw [length, if_neg (by omega)]
  have all := opens.trans (once.trans closes)
  simpa only [fresh, List.map_append, List.map_cons, List.map_nil, List.cons_append,
    List.nil_append] using all

end Repeated

section Endings
variable {first prima second : List Node} {opening ending closing further : Nat}
  {count : Option Nat} {q : Repeats}

/-- Of a part with a first ending, what comes before the ending is played again. -/
theorem takeWhile_ending (plain : ∀ node ∈ first, node.isPlain) (rest : List Node) :
    ((first.map Node.refer).toArray.push (.volta ending .prima) ++ rest.toArray).toList.takeWhile
      (!·.isPrimaVolta) = first.map Node.refer := by
  have listed : ((first.map Node.refer).toArray.push (.volta ending .prima) ++ rest.toArray).toList =
      first.map Node.refer ++ .volta ending .prima :: rest := by
    simp only [Array.toList_append, Array.toList_push, List.append_assoc, List.singleton_append]
  have before : ∀ node ∈ first.map Node.refer, (!node.isPrimaVolta) = true := by
    intro node member
    have none := List.any_eq_false.mp
      (Repeats.any_isPrimaVolta (Repeats.plain_refer plain)) node member
    rw [Bool.eq_false_iff.mpr none]
    rfl
  rw [listed, List.takeWhile_append_of_pos before]
  exact List.append_nil _

/-- What the marks of a repeat with two endings do on its timeline. -/
structure Steered (first prima : List Node) (opening ending closing further : Nat)
    (count : Option Nat) (q q₁ q₂ : Repeats) : Prop where
  opens : ∀ budget, ((Node.repeatOpen opening).steer budget).run q = .ok [] q₁
  turns : ∀ budget, ((Node.volta ending .prima).steer budget).run (q₁.passed first) = .ok [] q₂
  closes : ∀ budget, ((Node.repeatClose closing count).steer budget).run (q₂.passed prima) =
    .ok (first.map Node.refer) ⟨#[], none, true⟩
  goes : ∀ budget, ((Node.volta further .seconda).steer budget).run ⟨#[], none, true⟩ =
    .ok [] ⟨#[], none, false⟩

theorem exists_steered (plainFirst : ∀ node ∈ first, node.isPlain)
    (plainPrima : ∀ node ∈ prima, node.isPlain) (closed : q.capture = none)
    (twice : count.getD 2 = 2) (opening ending closing further : Nat) :
    ∃ q₁ q₂, Steered first prima opening ending closing further count q q₁ q₂ := by
  have referred := Repeats.plain_refer plainFirst
  have capture : (Repeats.passed first ⟨q.performed, some ⟨opening, #[]⟩, false⟩).capture =
      some ⟨opening, (first.map Node.refer).toArray⟩ := by
    rw [Repeats.capture_passed plainFirst]
    simp only [Option.map_some, Array.empty_append]
  have single : (first.map Node.refer).toArray.any Node.isPrimaVolta = false :=
    (List.any_toArray ..).trans (Repeats.any_isPrimaVolta referred)
  refine ⟨_, _, Repeats.steer_repeatOpen closed, Repeats.steer_prima capture single,
    fun budget => ?_, Repeats.steer_seconda rfl⟩
  have two : ((first.map Node.refer).toArray.push (.volta ending .prima) ++
      (prima.map Node.refer).toArray).any Node.isPrimaVolta = true := by
    rw [Array.any_append, Array.any_push]
    simp only [Node.isPrimaVolta, Bool.or_true, Bool.true_or]
  rw [Repeats.steer_repeatClose_volta (Repeats.captured_passed plainPrima rfl) two twice,
    takeWhile_ending plainFirst]

variable {q₁ q₂ : Repeats}

/-- A part with two endings, and the part written out. -/
theorem passes_endings (plainFirst : ∀ node ∈ first, node.isPlain)
    (plainPrima : ∀ node ∈ prima, node.isPlain) (plainSecond : ∀ node ∈ second, node.isPlain)
    (inside : here < n) (steered : Steered first prima opening ending closing further count q q₁ q₂) :
    Passes here
      (fresh (.repeatOpen opening :: first ++ .volta ending .prima :: prima ++
        .repeatClose closing count :: .volta further .seconda :: second))
      (fresh (first ++ prima ++ first.map Node.refer ++ second))
      (Abreast 0 n r here q q) (Abreast 4 n r here (Repeats.passed second ⟨#[], none, false⟩)
        ((((q.passed first).passed prima).passed (first.map Node.refer)).passed second)) := by
  have opens : Passes here [⟨.repeatOpen opening, false⟩] [] (Abreast 0 n r here q q)
      (Abreast 1 n r here q₁ q) := abreast_silent rfl inside steered.opens
  have once : Passes here (fresh first) (fresh first) (Abreast 1 n r here q₁ q)
      (Abreast 1 n r here (q₁.passed first) (q.passed first)) :=
    abreast_plain plainFirst inside false false
  have turns : Passes here [⟨.volta ending .prima, false⟩] []
      (Abreast 1 n r here (q₁.passed first) (q.passed first))
      (Abreast 2 n r here q₂ (q.passed first)) := abreast_silent rfl inside steered.turns
  have ends : Passes here (fresh prima) (fresh prima) (Abreast 2 n r here q₂ (q.passed first))
      (Abreast 2 n r here (q₂.passed prima) ((q.passed first).passed prima)) :=
    abreast_plain plainPrima inside false false
  have closes : Passes here [⟨.repeatClose closing count, false⟩] (fresh (first.map Node.refer))
      (Abreast 2 n r here (q₂.passed prima) ((q.passed first).passed prima))
      (Abreast 3 n r here ⟨#[], none, true⟩
        (((q.passed first).passed prima).passed (first.map Node.refer))) := by
    refine abreast_mark rfl inside (fun budget next' q₁' done => ?_)
      (abreast_plain (Repeats.plain_refer plainFirst) inside true false)
    rw [steered.closes] at done
    cases done
    exact ⟨rfl, rfl⟩
  have goes : Passes here [⟨.volta further .seconda, false⟩] []
      (Abreast 3 n r here ⟨#[], none, true⟩
        (((q.passed first).passed prima).passed (first.map Node.refer)))
      (Abreast 4 n r here ⟨#[], none, false⟩
        (((q.passed first).passed prima).passed (first.map Node.refer))) :=
    abreast_silent rfl inside steered.goes
  have twice : Passes here (fresh second) (fresh second)
      (Abreast 4 n r here ⟨#[], none, false⟩
        (((q.passed first).passed prima).passed (first.map Node.refer)))
      (Abreast 4 n r here (Repeats.passed second ⟨#[], none, false⟩)
        ((((q.passed first).passed prima).passed (first.map Node.refer)).passed second)) :=
    abreast_plain plainSecond inside false false
  have all := opens.trans (once.trans (turns.trans (ends.trans (closes.trans (goes.trans twice)))))
  simpa only [fresh, List.map_append, List.map_cons, List.map_nil, List.cons_append,
    List.nil_append, List.append_assoc] using all

/-- The part written out, and the part with two endings, which burns gas for the four marks. -/
theorem passes_written_endings (plainFirst : ∀ node ∈ first, node.isPlain)
    (plainPrima : ∀ node ∈ prima, node.isPlain) (plainSecond : ∀ node ∈ second, node.isPlain)
    (inside : here < n) (steered : Steered first prima opening ending closing further count q q₁ q₂)
    (room : 1 ≤ k) :
    Passes here (fresh (first ++ prima ++ first.map Node.refer ++ second))
      (fresh (.repeatOpen opening :: first ++ .volta ending .prima :: prima ++
        .repeatClose closing count :: .volta further .seconda :: second))
      (Abreast (k + 4) n r here q q) (Abreast k n r here
        ((((q.passed first).passed prima).passed (first.map Node.refer)).passed second)
        (Repeats.passed second ⟨#[], none, false⟩)) := by
  have more (m : Nat) : 1 ≤ k + m := Nat.le_add_right_of_le room
  have opens : Passes here [] [⟨.repeatOpen opening, false⟩] (Abreast (k + 4) n r here q q)
      (Abreast (k + 3) n r here q q₁) := abreast_silent' rfl inside (more 3) steered.opens
  have once : Passes here (fresh first) (fresh first) (Abreast (k + 3) n r here q q₁)
      (Abreast (k + 3) n r here (q.passed first) (q₁.passed first)) :=
    abreast_plain plainFirst inside false false
  have turns : Passes here [] [⟨.volta ending .prima, false⟩]
      (Abreast (k + 3) n r here (q.passed first) (q₁.passed first))
      (Abreast (k + 2) n r here (q.passed first) q₂) :=
    abreast_silent' rfl inside (more 2) steered.turns
  have ends : Passes here (fresh prima) (fresh prima)
      (Abreast (k + 2) n r here (q.passed first) q₂)
      (Abreast (k + 2) n r here ((q.passed first).passed prima) (q₂.passed prima)) :=
    abreast_plain plainPrima inside false false
  have closes : Passes here (fresh (first.map Node.refer)) [⟨.repeatClose closing count, false⟩]
      (Abreast (k + 2) n r here ((q.passed first).passed prima) (q₂.passed prima))
      (Abreast (k + 1) n r here
        (((q.passed first).passed prima).passed (first.map Node.refer)) ⟨#[], none, true⟩) :=
    abreast_mark' rfl inside (more 1) (fun budget _ => steered.closes budget)
      (abreast_plain (Repeats.plain_refer plainFirst) inside false true)
  have goes : Passes here [] [⟨.volta further .seconda, false⟩]
      (Abreast (k + 1) n r here
        (((q.passed first).passed prima).passed (first.map Node.refer)) ⟨#[], none, true⟩)
      (Abreast k n r here
        (((q.passed first).passed prima).passed (first.map Node.refer)) ⟨#[], none, false⟩) :=
    abreast_silent' rfl inside room steered.goes
  have twice : Passes here (fresh second) (fresh second)
      (Abreast k n r here
        (((q.passed first).passed prima).passed (first.map Node.refer)) ⟨#[], none, false⟩)
      (Abreast k n r here
        ((((q.passed first).passed prima).passed (first.map Node.refer)).passed second)
        (Repeats.passed second ⟨#[], none, false⟩)) :=
    abreast_plain plainSecond inside false false
  have all := opens.trans (once.trans (turns.trans (ends.trans (closes.trans (goes.trans twice)))))
  simpa only [fresh, List.map_append, List.map_cons, List.map_nil, List.cons_append,
    List.nil_append, List.append_assoc] using all

end Endings

end Session
end TextScore
