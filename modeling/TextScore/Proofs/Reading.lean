import TextScore.Proofs.Acceptance
import TextScore.Proofs.Custody

/-! What is read. Whatever the text, a tuplet has two notes at least, and a crescendo or decrescendo
leads to a velocity that a note can have. -/
namespace TextScore

/-- What the reader checks of an item alone. -/
def Item.Proper : Item → Prop
  | .range _ (.tuplet size) _ => 2 ≤ size
  | .ornament _ (.crescendo target) _ | .ornament _ (.decrescendo target) _ => target ≤ 127
  | _ => True

abbrev Item.WellFormed : Item → Prop := Item.Throughout Item.Proper

def Node.WellFormed : Node → Prop
  | .item i => i.WellFormed
  | .define _ _ body => ∀ i ∈ body, i.WellFormed
  | _ => True

theorem Item.Grammatical.wellFormed {site : Site} {item : Item} (known : item.Grammatical site) :
    item.WellFormed := by
  have bare {item : Item} (proper : item.Proper) (alone : item.inner = []) : item.WellFormed :=
    Item.throughout_iff.mpr ⟨proper, alone ▸ nofun⟩
  induction known with
  | @range _ _ kind _ known _ _ ih =>
    refine Item.throughout_iff.mpr ⟨?_, ih⟩
    cases kind with
    | tuplet size =>
      rcases known with rfl | rfl | rfl <;> exact Nat.le_add_left 2 _
    | _ => trivial
  | @ornament _ _ kind _ known _ _ ih =>
    refine Item.throughout_iff.mpr ⟨?_, ih⟩
    cases kind with
    | crescendo | decrescendo => exact known
    | _ => trivial
  | graced _ _ _ _ _ ih =>
    exact Item.throughout_iff.mpr ⟨trivial, fun i listed => List.mem_singleton.mp listed ▸ ih⟩
  | group _ _ _ ih => exact Item.throughout_iff.mpr ⟨trivial, ih⟩
  | parallel _ _ _ ih =>
    refine Item.throughout_iff.mpr ⟨trivial, fun i listed => ?_⟩
    obtain ⟨branch, among, inside⟩ := List.mem_flatten.mp listed
    exact ih branch among i inside
  | setting | key | chord | tie | breakpoint | groupRef | emoji | rest => exact bare trivial rfl

theorem Node.Grammatical.wellFormed {node : Node} (known : node.Grammatical) : node.WellFormed := by
  cases node with
  | item i => exact Item.Grammatical.wellFormed known
  | define offset name body => exact fun i listed => (known.2.2 i listed).wellFormed
  | _ => trivial

/-- Every node of a score that is read is well formed. -/
theorem Score.read_wellFormed {text : List Char} {score : List Node} (done : read text = .ok score) :
    ∀ node ∈ score, node.WellFormed := fun node listed => ((read_stands done).1 node listed).wellFormed

end TextScore
