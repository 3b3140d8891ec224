import TextScore.Proofs.Grammar
import TextScore.Score.Cursor

/-! Where things stand in a text. What is read one after the other stands in a row: the offsets of
siblings increase, they lie inside the text, and nothing starts before what holds it. -/
namespace TextScore

/-- What an item is made of, in the order of the text. -/
def Item.parts : Item → List Item
  | .range _ _ body | .ornament _ _ body | .group _ _ body => body
  | .graced _ graces main => graces ++ [main]
  | .parallel _ branches => branches.flatten
  | .chord c => c.keys.map .key
  | .setting _ | .key _ | .tie _ | .breakpoint .. | .groupRef .. | .emoji .. | .rest _ => []

/-- The item and everything in it stand below the bound: siblings one after the other, and no part
before what it is a part of. -/
inductive Item.Placed (bound : Nat) : Item → Prop
  | intro {item : Item} (inside : item.offset < bound)
    (after : ∀ part ∈ item.parts, item.offset ≤ part.offset)
    (ordered : (item.parts.map Item.offset).Pairwise (· < ·))
    (parts : ∀ part ∈ item.parts, Placed bound part) : Placed bound item

def Node.parts : Node → List Item
  | .define _ _ template => template
  | .declareEmoji _ _ setting => [.setting setting]
  | .item i => [i]
  | .global .. | .channel .. | .repeatOpen _ | .repeatClose .. | .volta .. => []

structure Node.Placed (bound : Nat) (node : Node) : Prop where
  inside : node.offset < bound
  after : ∀ part ∈ node.parts, node.offset ≤ part.offset
  ordered : (node.parts.map Item.offset).Pairwise (· < ·)
  parts : ∀ part ∈ node.parts, part.Placed bound

/-- The nodes of a score stand one after the other in a text of this length. -/
structure Score.Placed (length : Nat) (score : List Node) : Prop where
  ordered : (score.map Node.offset).Pairwise (· < ·)
  nodes : ∀ node ∈ score, node.Placed length

theorem Item.Placed.inside {bound : Nat} {item : Item} : item.Placed bound → item.offset < bound
  | .intro inside _ _ _ => inside

theorem Item.Placed.mono {bound bound' : Nat} {item : Item} (placed : item.Placed bound)
    (within : bound ≤ bound') : item.Placed bound' := by
  induction placed with
  | intro inside after ordered _ ih => exact .intro (Nat.lt_of_lt_of_le inside within) after ordered ih

theorem Item.placed_of_bare {bound : Nat} {item : Item} (bare : item.parts = [])
    (inside : item.offset < bound) : item.Placed bound := by
  refine .intro inside ?_ ?_ ?_ <;> rw [bare]
  · exact nofun
  · exact .nil
  · exact nofun

/-- Reading has gone on in the same text. -/
structure Cursor.Leads (c c' : Cursor) : Prop where
  forth : c.offset ≤ c'.offset
  whole : c'.offset + c'.rest.length = c.offset + c.rest.length
  rest : c'.rest = c.rest.drop (c'.offset - c.offset)

theorem Cursor.Leads.refl (c : Cursor) : c.Leads c := by
  refine ⟨Nat.le_refl _, rfl, ?_⟩
  rw [Nat.sub_self, List.drop_zero]

theorem Cursor.Leads.trans {c c' c'' : Cursor} (first : c.Leads c') (second : c'.Leads c'') :
    c.Leads c'' := by
  refine ⟨Nat.le_trans first.forth second.forth, second.whole.trans first.whole, ?_⟩
  have parts : c'.offset - c.offset + (c''.offset - c'.offset) = c''.offset - c.offset := by
    have := first.forth
    have := second.forth
    omega
  rw [second.rest, first.rest, List.drop_drop, parts]

/-- Some characters further on. -/
theorem Cursor.leads_drop (c : Cursor) {count : Nat} (there : count ≤ c.rest.length) :
    c.Leads ⟨c.offset + count, c.rest.drop count⟩ := by
  refine ⟨Nat.le_add_right _ _, ?_, ?_⟩
  · rw [List.length_drop]
    dsimp only
    omega
  · rw [Nat.add_sub_cancel_left]

/-- What reads a key or a chord finds it at this cursor. -/
def Item.ReadAt (c : Cursor) : Item → Prop
  | .key k => ∃ c', Score.key.run c = .ok (k, c')
  | .chord ch => ∃ limit c', (Score.chord limit).run c = .ok (ch, c')
  | _ => True

/-- An item and everything in it are read where they stand, further on in the text. -/
inductive Item.Spelled (c : Cursor) : Item → Prop
  | intro {item : Item} {c' : Cursor} (leads : c.Leads c') (begins : item.offset = c'.offset)
    (read : item.ReadAt c') (parts : ∀ part ∈ item.parts, Spelled c part) : Spelled c item

theorem Item.Spelled.earlier {c c' : Cursor} {item : Item} (spelled : item.Spelled c')
    (leads : c.Leads c') : item.Spelled c := by
  induction spelled with
  | intro further begins read _ ih => exact .intro (leads.trans further) begins read ih

/-- Between two cursors an item of this site has been read. -/
structure Item.Stands (site : Site) (item : Item) (c c' : Cursor) : Prop where
  leads : c.Leads c'
  known : item.Grammatical site
  after : c.offset ≤ item.offset
  placed : item.Placed c'.offset
  spelled : item.Spelled c

theorem Item.Stands.earlier {site : Site} {c c' c'' : Cursor} {item : Item}
    (stands : item.Stands site c' c'') (leads : c.Leads c') : item.Stands site c c'' :=
  ⟨leads.trans stands.leads, stands.known, Nat.le_trans leads.forth stands.after, stands.placed,
    stands.spelled.earlier leads⟩

/-- What may stand inside of ornaments may stand anywhere, but for breakpoints. -/
theorem Item.Grammatical.moved {item : Item} {site : Site} (known : item.Grammatical site)
    (inside : site ≠ .anywhere) (other : ∀ offset value, item ≠ .breakpoint offset value)
    (site' : Site) : item.Grammatical site' := by
  cases known with
  | setting words => exact .setting words
  | range known nonempty items => exact .range known nonempty items
  | key known => exact .key known
  | chord keys => exact .chord keys
  | ornament known nonempty items => exact .ornament known nonempty items
  | tie => exact .tie
  | breakpoint => exact absurd rfl (other _ _)
  | graced | group | parallel | emoji => exact absurd rfl inside
  | groupRef number => exact .groupRef number
  | rest => exact .rest

theorem Item.Grammatical.lift {item : Item} (known : item.Grammatical .ornament) (site : Site) :
    item.Grammatical site := by
  refine known.moved nofun (fun offset value same => ?_) site
  subst same
  exact nomatch known

theorem Item.Stands.lift {c c' : Cursor} {item : Item} (stands : item.Stands .ornament c c')
    (site : Site) : item.Stands site c c' := { stands with known := stands.known.lift site }

/-- Between two cursors these have been read one after the other. -/
inductive Row {α : Type} (F : α → Cursor → Cursor → Prop) : List α → Cursor → Cursor → Prop
  | nil {c c' : Cursor} (leads : c.Leads c') : Row F [] c c'
  | cons {a : α} {as : List α} {c c' c'' : Cursor} (first : F a c c') (more : Row F as c' c'') :
    Row F (a :: as) c c''

section Row
variable {α β : Type} {F : α → Cursor → Cursor → Prop} {c c' c'' : Cursor}

theorem Row.map {G : β → Cursor → Cursor → Prop} {f : α → β} {as : List α} (row : Row F as c c')
    (each : ∀ {a c c'}, F a c c' → G (f a) c c') : Row G (as.map f) c c' := by
  induction row with
  | nil leads => exact .nil leads
  | cons first _ ih => exact .cons (each first) ih

theorem Row.mono {G : α → Cursor → Cursor → Prop} {as : List α} (row : Row F as c c')
    (each : ∀ {a c c'}, F a c c' → G a c c') : Row G as c c' := by
  rw [← List.map_id as]
  exact row.map each

theorem Row.forall {P : α → Prop} {as : List α} (row : Row F as c c')
    (each : ∀ {a c c'}, F a c c' → P a) : ∀ a ∈ as, P a := by
  induction row with
  | nil => exact nofun
  | cons first _ ih => exact List.forall_mem_cons.mpr ⟨each first, ih⟩

theorem Row.facts {start : α → Nat} {P : Nat → α → Prop} {as : List α} (row : Row F as c c')
    (each : ∀ {a c c'}, F a c c' →
      c.Leads c' ∧ c.offset ≤ start a ∧ start a < c'.offset ∧ P c'.offset a)
    (mono : ∀ {a n m}, P n a → n ≤ m → P m a) :
    c.Leads c' ∧ (as.map start).Pairwise (· < ·) ∧ ∀ a ∈ as, c.offset ≤ start a ∧ P c'.offset a := by
  induction row with
  | nil leads => exact ⟨leads, .nil, nofun⟩
  | cons first _ ih =>
    obtain ⟨leads, after, before, known⟩ := each first
    obtain ⟨leads', ordered, all⟩ := ih
    refine ⟨leads.trans leads', List.pairwise_cons.mpr ⟨fun n listed => ?_, ordered⟩,
      List.forall_mem_cons.mpr ⟨⟨after, mono known leads'.forth⟩, fun b listed => ?_⟩⟩
    · obtain ⟨b, among, rfl⟩ := List.mem_map.mp listed
      exact Nat.lt_of_lt_of_le before (all b among).1
    · exact ⟨Nat.le_trans leads.forth (all b listed).1, (all b listed).2⟩

end Row

section Items
variable {site : Site} {c c' c'' : Cursor} {item : Item} {siblings : List Item} {bound : Nat}

theorem Row.items (row : Row (Item.Stands site) siblings c c') :
    c.Leads c' ∧ (siblings.map Item.offset).Pairwise (· < ·) ∧
      ∀ i ∈ siblings, c.offset ≤ i.offset ∧ i.Grammatical site ∧ i.Placed c'.offset :=
  row.facts (P := fun n i => i.Grammatical site ∧ i.Placed n)
    (fun stands => ⟨stands.leads, stands.after, stands.placed.inside, stands.known, stands.placed⟩)
    fun known within => ⟨known.1, known.2.mono within⟩

theorem Row.spelled (row : Row (Item.Stands site) siblings c c') : ∀ i ∈ siblings, i.Spelled c := by
  induction row with
  | nil => exact nofun
  | cons first _ ih =>
    exact List.forall_mem_cons.mpr ⟨first.spelled, fun i listed => (ih i listed).earlier first.leads⟩

/-- An item is placed if its parts have been read in a row behind its beginning. -/
theorem Item.placed_of_row (row : Row (Item.Stands site) item.parts c c')
    (begins : item.offset ≤ c.offset) (ends : c'.offset ≤ bound) (inside : item.offset < bound) :
    item.Placed bound := by
  obtain ⟨-, ordered, all⟩ := row.items
  exact .intro inside (fun part listed => Nat.le_trans begins (all part listed).1) ordered
    fun part listed => (all part listed).2.2.mono ends

/-- What has no parts has been read where it begins. -/
theorem Item.stands_of_bare (bare : item.parts = []) (known : item.Grammatical site)
    (begins : item.offset = c.offset) (read : item.ReadAt c) (leads : c.Leads c')
    (taken : c.offset < c'.offset) : item.Stands site c c' :=
  ⟨leads, known, Nat.le_of_eq begins.symm, placed_of_bare bare (begins ▸ taken),
    .intro (.refl c) begins read (bare ▸ nofun)⟩

/-- What has parts has been read if its parts have been read behind its beginning. -/
theorem Item.stands_of_row (item : Item) {site' : Site} {c₁ c₂ : Cursor}
    (row : Row (Item.Stands site') item.parts c₁ c₂) (known : item.Grammatical site)
    (begins : item.offset = c.offset) (read : item.ReadAt c) (before : c.Leads c₁)
    (after : c₂.Leads c') (taken : c.offset < c₁.offset) : item.Stands site c c' := by
  have inner := row.items.1
  have whole := (before.trans inner).trans after
  refine ⟨whole, known, Nat.le_of_eq begins.symm, ?_, .intro (.refl c) begins read fun part listed =>
    (row.spelled part listed).earlier before⟩
  refine placed_of_row row (begins ▸ before.forth) after.forth ?_
  exact begins ▸ Nat.lt_of_lt_of_le taken (inner.trans after).forth

/-- A last item, as behind graces. -/
theorem Row.snoc (row : Row (Item.Stands site) siblings c c') (last : item.Stands site c' c'') :
    Row (Item.Stands site) (siblings ++ [item]) c c'' := by
  induction row with
  | nil leads => exact .cons (last.earlier leads) (.nil (.refl _))
  | cons first _ ih => exact .cons first (ih last)

/-- What has been read with bars between stands in a row without them, too. -/
theorem Row.unbarred {pieces : List (Option Item)}
    (row : Row (fun piece c c' => c.Leads c' ∧ ∀ i ∈ piece, i.Stands site c c') pieces c c') :
    Row (Item.Stands site) (pieces.filterMap id) c c' := by
  have earlier {items : List Item} {c c' c'' : Cursor} (leads : c.Leads c')
      (row : Row (Item.Stands site) items c' c'') : Row (Item.Stands site) items c c'' := by
    cases row with
    | nil more => exact .nil (leads.trans more)
    | cons first more => exact .cons (first.earlier leads) more
  induction row with
  | nil leads => exact .nil leads
  | @cons piece _ _ _ _ first _ ih => cases piece with
    | none => exact earlier first.1 ih
    | some i => exact .cons (first.2 i rfl) ih

end Items

/-- Between two cursors a node has been read. -/
structure Node.Stands (node : Node) (c c' : Cursor) : Prop where
  leads : c.Leads c'
  known : node.Grammatical
  after : c.offset ≤ node.offset
  placed : node.Placed c'.offset
  spelled : ∀ part ∈ node.parts, part.Spelled c

section Nodes
variable {site : Site} {node : Node} {item : Item} {c c' : Cursor} {score : List Node} {bound : Nat}

theorem Node.Placed.mono {bound' : Nat} (placed : node.Placed bound) (within : bound ≤ bound') :
    node.Placed bound' :=
  ⟨Nat.lt_of_lt_of_le placed.inside within, placed.after, placed.ordered,
    fun part listed => (placed.parts part listed).mono within⟩

theorem Node.Stands.earlier {c'' : Cursor} (stands : node.Stands c' c'') (leads : c.Leads c') :
    node.Stands c c'' :=
  ⟨leads.trans stands.leads, stands.known, Nat.le_trans leads.forth stands.after, stands.placed,
    fun part listed => (stands.spelled part listed).earlier leads⟩

theorem Node.stands_of_item (stands : item.Stands .anywhere c c') : (Node.item item).Stands c c' := by
  refine ⟨stands.leads, stands.known, stands.after, ⟨stands.placed.inside, ?_, ?_, ?_⟩, ?_⟩
  · exact List.forall_mem_singleton.mpr (Nat.le_refl _)
  · exact List.pairwise_singleton _ _
  · exact List.forall_mem_singleton.mpr stands.placed
  · exact List.forall_mem_singleton.mpr stands.spelled

/-- A node has been read if its parts have been read behind its beginning. -/
theorem Node.stands_of_row (node : Node) {c₁ c₂ : Cursor}
    (row : Row (Item.Stands site) node.parts c₁ c₂) (known : node.Grammatical)
    (begins : node.offset = c.offset) (before : c.Leads c₁) (after : c₂.Leads c')
    (taken : c.offset < c₁.offset) : node.Stands c c' := by
  obtain ⟨inner, ordered, all⟩ := row.items
  refine ⟨(before.trans inner).trans after, known, Nat.le_of_eq begins.symm, ⟨?_, ?_, ordered, ?_⟩,
    fun part listed => (row.spelled part listed).earlier before⟩
  · exact begins ▸ Nat.lt_of_lt_of_le taken (inner.trans after).forth
  · exact fun part listed => begins ▸ Nat.le_trans before.forth (all part listed).1
  · exact fun part listed => (all part listed).2.2.mono after.forth

theorem Node.stands_of_bare (bare : node.parts = []) (known : node.Grammatical)
    (begins : node.offset = c.offset) (leads : c.Leads c') (taken : c.offset < c'.offset) :
    node.Stands c c' := by
  have row : Row (Item.Stands .anywhere) node.parts c' c' := bare ▸ .nil (.refl c')
  exact stands_of_row node row known begins leads (.refl c') taken

theorem Row.nodes_spelled (row : Row Node.Stands score c c') :
    ∀ node ∈ score, ∀ part ∈ node.parts, part.Spelled c := by
  induction row with
  | nil => exact nofun
  | cons first _ ih =>
    exact List.forall_mem_cons.mpr ⟨first.spelled, fun node listed part inside =>
      (ih node listed part inside).earlier first.leads⟩

/-- The nodes of a row stand one after the other. -/
theorem Row.nodes (row : Row Node.Stands score c c') :
    c.Leads c' ∧ (∀ node ∈ score, node.Grammatical) ∧ Score.Placed c'.offset score := by
  obtain ⟨leads, ordered, all⟩ := row.facts (P := fun n node => node.Grammatical ∧ node.Placed n)
    (fun stands => ⟨stands.leads, stands.after, stands.placed.inside, stands.known, stands.placed⟩)
    fun known within => ⟨known.1, known.2.mono within⟩
  exact ⟨leads, fun node listed => (all node listed).2.1, ordered,
    fun node listed => (all node listed).2.2⟩

end Nodes

end TextScore
