import Flowchart.Proofs.Layout.Span
/-! The sweep over rows. The span of a block has room for the block and the gap, and spans of blocks
of one level do not overlap, so there is nothing to push apart: every block stays at its center in
the tree. -/
namespace Flowchart.Layout

section Row
variable {levels : Levels} {center : Nat → Rat} {nodes : List (Node Rat)} {level : Nat}

theorem rowAt_sorted : (rowAt levels center nodes level).Pairwise fun p q =>
    center p.2.id ≤ center q.2.id := by
  refine (List.pairwise_mergeSort ?_ ?_ _).imp of_decide_eq_true
  · intro p q r first second
    exact decide_eq_true ((of_decide_eq_true first).trans (of_decide_eq_true second))
  · intro p q
    rcases le_total (center p.2.id) (center q.2.id) with before | after
    · exact Bool.or_eq_true_iff.mpr (Or.inl (decide_eq_true before))
    · exact Bool.or_eq_true_iff.mpr (Or.inr (decide_eq_true after))

theorem rowAt_distinct (distinct : (nodes.map (·.id)).Nodup) :
    (rowAt levels center nodes level).Pairwise fun p q => p.2.id ≠ q.2.id := by
  have listed : (nodes.zipIdx.map fun (n, i) => (i, n)).map (·.2.id) = nodes.map (·.id) := by
    rw [List.map_map]
    change nodes.zipIdx.map ((·.id) ∘ Prod.fst) = _
    rw [← List.map_map, List.zipIdx_map_fst]
  have once : ((rowAt levels center nodes level).map (·.2.id)).Nodup := by
    refine ((List.mergeSort_perm _ _).map _).nodup_iff.mpr ?_
    exact (listed ▸ distinct).sublist (List.filter_sublist.map _)
  exact List.pairwise_map.mp once

end Row

theorem mem_zip_map {β γ : Type} {f : β → γ} {xs : List β} {a : β} {b : γ}
    (member : (a, b) ∈ xs.zip (xs.map f)) : b = f a := by
  have pairs : (xs.map id).zip (xs.map f) = xs.map fun c => (c, f c) := List.zip_map'
  rw [List.map_id] at pairs
  rw [pairs] at member
  obtain ⟨c, _, same⟩ := List.mem_map.mp member
  obtain ⟨rfl, rfl⟩ := Prod.mk.inj same
  rfl

section Packing
variable {gap : Rat} {center : Nat → Rat}

/-- Distance that two neighbours of a row keep between their centers. -/
def apartBy (gap : Rat) (center : Nat → Rat) (p q : Nat × Node Rat) : Prop :=
  center p.2.id + (p.2.box.width / 2 + q.2.box.width / 2 + gap) ≤ center q.2.id

theorem pushedCenter_of_far {wanted left width : Rat} {n : Node Rat}
    (far : left + (width / 2 + n.box.width / 2 + gap) ≤ wanted) :
    pushedCenter gap wanted (some (left, width)) n = wanted := by
  have free : ¬ wanted - left < width / 2 + n.box.width / 2 + gap := by linarith
  exact if_neg free

theorem packRow_eq_map_of_far {row : List (Nat × Node Rat)} {left width : Rat}
    (first : ∀ q ∈ row, left + (width / 2 + q.2.box.width / 2 + gap) ≤ center q.2.id)
    (far : row.Pairwise (apartBy gap center)) :
    packRow gap center (some (left, width)) row =
      row.map fun p => (p.1, center p.2.id - p.2.box.width / 2) := by
  induction row generalizing left width with
  | nil => rfl
  | cons p row ih =>
      obtain ⟨i, n⟩ := p
      obtain ⟨behind, others⟩ := List.pairwise_cons.mp far
      have kept := pushedCenter_of_far (first (i, n) List.mem_cons_self)
      rw [packRow_cons, kept, ih behind others, List.map_cons]

theorem packRow_none_eq_map {row : List (Nat × Node Rat)}
    (far : row.Pairwise (apartBy gap center)) :
    packRow gap center none row = row.map fun p => (p.1, center p.2.id - p.2.box.width / 2) := by
  cases row with
  | nil => rfl
  | cons p row =>
      obtain ⟨i, n⟩ := p
      obtain ⟨behind, others⟩ := List.pairwise_cons.mp far
      rw [packRow_cons, List.map_cons]
      exact congrArg (List.cons _) (packRow_eq_map_of_far behind others)

theorem apartBy_of_apart {width : Nat → Rat} {p q : Nat × Node Rat}
    (ordered : center p.2.id ≤ center q.2.id) (apart : Apart width center p.2.id q.2.id)
    (roomP : p.2.box.width + gap ≤ width p.2.id) (roomQ : q.2.box.width + gap ≤ width q.2.id) :
    apartBy gap center p q := by
  rw [apartBy]
  simp only [Apart, spanLeft, spanRight] at apart
  -- the other order leaves the spans no width, and then the blocks need no room
  rcases apart with before | after <;> linarith

end Packing

section Placed
variable {config : Config Rat} {levels : Levels} {edges : List Edge} {nodes : List (Node Rat)}

theorem treeWidth_eq_max (distinct : (nodes.map (·.id)).Nodup)
    (forest : Forest (nodes.map (·.id)) levels.get (treeBranches edges nodes)) {n : Node Rat}
    (member : n ∈ nodes) :
    treeWidth config levels edges nodes n.id =
      max (n.box.width + config.horizontalGap)
        ((childrenOf (treeBranches edges nodes) n.id).map
          (treeWidth config levels edges nodes)).sum := by
  rw [← greatest_eq_max, ← total_eq_sum]
  exact treeWidth_eq distinct forest member

theorem tree_nested (distinct : (nodes.map (·.id)).Nodup)
    (forest : Forest (nodes.map (·.id)) levels.get (treeBranches edges nodes))
    (sized : ∀ n ∈ nodes, 0 ≤ n.box.width + config.horizontalGap) :
    Nested (nodes.map (·.id)) (treeBranches edges nodes) (treeWidth config levels edges nodes)
      (treeCenter config levels edges nodes) := by
  refine forest.nested distinct ?_ ?_
  · intro id member
    obtain ⟨n, inside, rfl⟩ := List.mem_map.mp member
    rw [treeWidth_eq_max distinct forest inside]
    exact (sized n inside).trans (le_max_left _ _)
  · intro id member
    obtain ⟨n, inside, rfl⟩ := List.mem_map.mp member
    rw [treeWidth_eq_max distinct forest inside]
    exact le_max_right _ _

theorem rows_far (distinct : (nodes.map (·.id)).Nodup)
    (forest : Forest (nodes.map (·.id)) levels.get (treeBranches edges nodes))
    (sized : ∀ n ∈ nodes, 0 ≤ n.box.width + config.horizontalGap)
    {row : List (Nat × Node Rat)} (member : row ∈ treeRows config levels edges nodes) :
    row.Pairwise (apartBy config.horizontalGap (treeCenter config levels edges nodes)) := by
  obtain ⟨level, rfl⟩ := mem_rows member
  have nested := tree_nested distinct forest sized
  refine (rowAt_sorted.and (rowAt_distinct distinct)).imp_of_mem ?_
  intro p q left right facts
  obtain ⟨foundP, levelP⟩ := mem_rowAt.mp left
  obtain ⟨foundQ, levelQ⟩ := mem_rowAt.mp right
  have memberP := List.mem_of_getElem? foundP
  have memberQ := List.mem_of_getElem? foundQ
  have apart := nested.apart_of_level_eq forest facts.2 (List.mem_map_of_mem memberP)
    (List.mem_map_of_mem memberQ) (levelP.trans levelQ.symm)
  refine apartBy_of_apart facts.1 apart ?_ ?_
  · rw [treeWidth_eq_max distinct forest memberP]
    exact le_max_left _ _
  · rw [treeWidth_eq_max distinct forest memberQ]
    exact le_max_left _ _

/-- Packing leaves every block at its center in the tree. -/
theorem place_centers (distinct : (nodes.map (·.id)).Nodup)
    (forest : Forest (nodes.map (·.id)) levels.get (treeBranches edges nodes))
    (sized : ∀ n ∈ nodes, 0 ≤ n.box.width + config.horizontalGap) :
    (place config levels edges nodes).map (fun n => (n.id, n.center.x)) =
      nodes.map fun n => (n.id, treeCenter config levels edges nodes n.id) := by
  refine map_place config levels edges nodes ?_
  intro i k n row x placed landed
  have far := rows_far distinct forest sized (List.mem_of_getElem? landed.foundRow)
  have kept := landed.inRow
  rw [packed, packRow_none_eq_map far] at kept
  have left := congrArg Prod.snd (mem_zip_map kept)
  rw [landed.moved]
  change (n.id, x + n.box.width / 2) = _
  change x = treeCenter config levels edges nodes n.id - n.box.width / 2 at left
  rw [left, sub_add_cancel]

theorem children_ordered (id : Nat) : (childrenOf (treeBranches edges nodes) id).Sublist
    ((edges.filter fun e => e.source == id && !e.back).map (·.target)) := by
  have kept := (branches_sublist (nodes.map (·.id)) edges).filter (·.parent == id)
  have targets := kept.map (·.child)
  rw [List.filter_map, List.filter_filter, List.map_map] at targets
  exact targets

end Placed

/-- Every value that is looked up when blocks are placed is there: the width of a child when its
parent is reached, a root, the width and the center of every block. No block has two centers. -/
structure LookedUp (config : Config Rat) (levels : Levels) (bs : List Branch)
    (nodes : List (Node Rat)) : Prop where
  kids : ∀ before id after, bottomUp levels (nodes.map (·.id)) = before ++ id :: after →
    ∀ kid ∈ childrenOf bs id, (lastValue? (subtreeWidths config.horizontalGap
      (valueAt (nodes.map fun n => (n.id, n.box.width))) bs before) kid).isSome
  orphans : roots (nodes.map (·.id)) bs =
      (nodes.map (·.id)).filter (fun id => !bs.any (·.child == id)) ∧
    (nodes ≠ [] → roots (nodes.map (·.id)) bs ≠ [])
  widths : ∀ n ∈ nodes, (lastValue? (treeWidths config levels bs nodes) n.id).isSome
  once : ((treeCenters config levels bs nodes).map (·.1)).Perm (nodes.map (·.id))
  centers : ∀ n ∈ nodes, (lastValue? (treeCenters config levels bs nodes) n.id).isSome

/-- The tree of a chart and the places it gives. -/
structure TreePlaced (config : Config Rat) (levels : Levels) (edges : List Edge)
    (nodes : List (Node Rat)) : Prop where
  forest : Forest (nodes.map (·.id)) levels.get (treeBranches edges nodes)
  acyclic : Acyclic fun a b => ⟨a, b⟩ ∈ treeBranches edges nodes
  primary : ∀ before e after, edges = before ++ e :: after → Grows (nodes.map (·.id)) e →
    (∀ f ∈ before, Grows (nodes.map (·.id)) f → f.target ≠ e.target) →
      ⟨e.source, e.target⟩ ∈ treeBranches edges nodes
  lookedUp : LookedUp config levels (treeBranches edges nodes) nodes
  width : ∀ n ∈ nodes, treeWidth config levels edges nodes n.id =
    max (n.box.width + config.horizontalGap)
      ((childrenOf (treeBranches edges nodes) n.id).map (treeWidth config levels edges nodes)).sum
  ordered : ∀ id, (childrenOf (treeBranches edges nodes) id).Sublist
    ((edges.filter fun e => e.source == id && !e.back).map (·.target))
  nested : Nested (nodes.map (·.id)) (treeBranches edges nodes)
    (treeWidth config levels edges nodes) (treeCenter config levels edges nodes)
  still : ∀ row ∈ treeRows config levels edges nodes,
    packRow config.horizontalGap (treeCenter config levels edges nodes) none row =
      row.map fun p => (p.1, treeCenter config levels edges nodes p.2.id - p.2.box.width / 2)
  placed : (place config levels edges nodes).map (fun n => (n.id, n.center.x)) =
    nodes.map fun n => (n.id, treeCenter config levels edges nodes n.id)

theorem Forest.lookedUp {config : Config Rat} {levels : Levels} {bs : List Branch}
    {nodes : List (Node Rat)} (forest : Forest (nodes.map (·.id)) levels.get bs)
    (distinct : (nodes.map (·.id)).Nodup) : LookedUp config levels bs nodes := by
  have once := forest.centers_perm distinct (valueAt (treeWidths config levels bs nodes))
  constructor
  case kids =>
    intro before id after split kid member
    rw [lastValue?_isSome, subtreeWidths_keys]
    exact forest.mem_before split member
  case orphans =>
    refine ⟨forest.roots_eq.1, ?_⟩
    intro some
    exact forest.roots_eq.2 (by simpa using some)
  case widths =>
    intro n member
    rw [lastValue?_isSome, treeWidths, subtreeWidths_keys]
    exact (bottomUp_perm levels _).mem_iff.mpr (List.mem_map_of_mem member)
  case once => exact once
  case centers =>
    intro n member
    rw [lastValue?_isSome]
    exact once.mem_iff.mpr (List.mem_map_of_mem member)

/-- Parents form a forest that is walked once, spans of siblings are side by side in the span of
their parent, and every block stays at its center in the tree. -/
theorem place_tree {config : Config Rat} {nodes : List (Node Rat)}
    (distinct : (nodes.map (·.id)).Nodup) (edges : List Edge)
    (sized : ∀ n ∈ nodes, 0 ≤ n.box.width + config.horizontalGap) :
    ∃ levels, levelsOf (nodes.map (·.id)) edges = .ok levels ∧
      TreePlaced config levels (levels.mark edges) nodes := by
  obtain ⟨values, demoted, left, found, run, settled⟩ := levelsOf_ends distinct edges
  have forest := (run.longestPaths distinct settled).forest
  refine ⟨_, found, ?_⟩
  constructor
  case forest => exact forest
  case acyclic => exact forest.acyclic
  case primary =>
    intro before e after split grows first
    rw [split]
    exact mem_branches_of_first grows first after
  case lookedUp => exact forest.lookedUp distinct
  case width => exact fun n member => treeWidth_eq_max distinct forest member
  case ordered => exact children_ordered
  case nested => exact tree_nested distinct forest sized
  case still => exact fun row member => packRow_none_eq_map (rows_far distinct forest sized member)
  case placed => exact place_centers distinct forest sized

/-- A block with two parents, a loop, and a block that is just as wide as the gap is negative. -/
theorem place_tree_two_parents :
    let block : Block := ⟨.process, "step", "[step]", none⟩
    let nodes : List (Node Rat) :=
      [⟨block, 3, ⟨0, 0, 200, 60⟩, none, none⟩, ⟨block, 1, ⟨0, 0, 60, 60⟩, none, none⟩,
        ⟨block, 2, ⟨0, 0, 300, 90⟩, none, none⟩, ⟨block, 7, ⟨0, 0, 30, 40⟩, none, none⟩]
    let edges : List Edge :=
      [⟨3, 1, none, false⟩, ⟨3, 2, none, false⟩, ⟨2, 1, none, false⟩, ⟨1, 3, some "again", false⟩]
    let config : Config Rat := Config.standard.withGaps (-30) 60
    (nodes.map (·.id)).Nodup ∧ (∀ n ∈ nodes, 0 ≤ n.box.width + config.horizontalGap) ∧
      ∃ levels, levelsOf (nodes.map (·.id)) edges = .ok levels ∧
        TreePlaced config levels (levels.mark edges) nodes := by
  intro block nodes edges config
  have distinct : (nodes.map (·.id)).Nodup := by decide
  have sized : ∀ n ∈ nodes, 0 ≤ n.box.width + config.horizontalGap := by decide +kernel
  exact ⟨distinct, sized, place_tree distinct edges sized⟩

end Flowchart.Layout
