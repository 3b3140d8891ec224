import TextScore.Proofs.Custody

/-! Items with other keys. A map of keys changes every key of an item, those of chords, of graces and of
the items inside it, and nothing else. -/
namespace TextScore

def Chord.mapKeys (f : Key → Key) (c : Chord) : Chord := { c with keys := c.keys.map f }

mutual

def Item.mapKeys (f : Key → Key) : Item → Item
  | .key k => .key (f k)
  | .chord c => .chord (c.mapKeys f)
  | .range offset kind body => .range offset kind (mapAllKeys f body)
  | .ornament offset kind body => .ornament offset kind (mapAllKeys f body)
  | .graced offset graces main => .graced offset (mapAllKeys f graces) (main.mapKeys f)
  | .group offset id body => .group offset id (mapAllKeys f body)
  | .parallel offset branches => .parallel offset (mapBranchKeys f branches)
  | .setting s => .setting s
  | .tie offset => .tie offset
  | .breakpoint offset value => .breakpoint offset value
  | .groupRef offset id => .groupRef offset id
  | .emoji offset symbol => .emoji offset symbol
  | .rest offset => .rest offset

def mapAllKeys (f : Key → Key) : List Item → List Item
  | [] => []
  | item :: rest => item.mapKeys f :: mapAllKeys f rest

def mapBranchKeys (f : Key → Key) : List (List Item) → List (List Item)
  | [] => []
  | branch :: rest => mapAllKeys f branch :: mapBranchKeys f rest

end

variable {f : Key → Key}

theorem mapAllKeys_eq (f : Key → Key) (items : List Item) :
    mapAllKeys f items = items.map (Item.mapKeys f) := by
  induction items with
  | nil => rfl
  | cons item rest ih => rw [mapAllKeys, List.map_cons, ih]

theorem mapBranchKeys_eq (f : Key → Key) (branches : List (List Item)) :
    mapBranchKeys f branches = branches.map (List.map (Item.mapKeys f)) := by
  induction branches with
  | nil => rfl
  | cons branch rest ih => rw [mapBranchKeys, List.map_cons, ih, mapAllKeys_eq]

mutual

theorem Item.mapKeys_id : (item : Item) → item.mapKeys id = item
  | .key _ => rfl
  | .chord c => by rw [Item.mapKeys, Chord.mapKeys, List.map_id]
  | .range _ _ body => by rw [Item.mapKeys, mapAllKeys_id body]
  | .ornament _ _ body => by rw [Item.mapKeys, mapAllKeys_id body]
  | .graced _ graces main => by rw [Item.mapKeys, mapAllKeys_id graces, main.mapKeys_id]
  | .group _ _ body => by rw [Item.mapKeys, mapAllKeys_id body]
  | .parallel _ branches => by rw [Item.mapKeys, mapBranchKeys_id branches]
  | .setting _ | .tie _ | .breakpoint .. | .groupRef .. | .emoji .. | .rest _ => rfl

theorem mapAllKeys_id : (items : List Item) → mapAllKeys id items = items
  | [] => rfl
  | item :: rest => by rw [mapAllKeys, item.mapKeys_id, mapAllKeys_id rest]

theorem mapBranchKeys_id : (branches : List (List Item)) → mapBranchKeys id branches = branches
  | [] => rfl
  | branch :: rest => by rw [mapBranchKeys, mapAllKeys_id branch, mapBranchKeys_id rest]

end

/-- Items begin where they began. -/
theorem Item.offset_mapKeys (kept : ∀ k, (f k).offset = k.offset) (item : Item) :
    (item.mapKeys f).offset = item.offset := by
  cases item with
  | key k => exact kept k
  | _ => rfl

end TextScore
