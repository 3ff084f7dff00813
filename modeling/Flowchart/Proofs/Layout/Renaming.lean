import Flowchart.Proofs.Layout.Arrange
/-! Other numbers for the blocks. A one-to-one change of the numbers goes through the layout:
levels, demoted connections and places come out for the new numbers as they do for the old ones. -/
namespace Flowchart

def Edge.rename (f : Nat → Nat) (e : Edge) : Edge :=
  { e with source := f e.source, target := f e.target }

def Node.rename {α : Type} (f : Nat → Nat) (n : Node α) : Node α := { n with id := f n.id }

def Diagram.rename {α : Type} (f : Nat → Nat) (d : Diagram α) : Diagram α :=
  ⟨d.nodes.map (·.rename f), d.edges.map (·.rename f)⟩

namespace Layout

def Branch.rename (f : Nat → Nat) (b : Branch) : Branch := ⟨f b.parent, f b.child⟩

def Levels.rename (f : Nat → Nat) (levels : Levels) : Levels :=
  { levels with entries := levels.entries.map (Prod.map f id) }

def Arrangement.rename {α : Type} (f : Nat → Nat) (a : Arrangement α) : Arrangement α :=
  ⟨a.diagram.rename f, a.levels.rename f⟩

section Cast
variable {m n : Nat} (same : m = n)

/-- The link between places of a table that has the same length. -/
def Link.cast (l : Link m) : Link n := ⟨l.edge, l.source.cast same, l.target.cast same⟩

theorem resolve_cast (size : Nat) (ls : List (Link m)) :
    resolve size (ls.map (Link.cast same)) =
      (resolve size ls).map fun p => (p.1.cast same, p.2) := by
  subst same
  have kept : ls.map (Link.cast rfl) = ls := List.map_id ls
  rw [kept]
  cases resolve size ls <;> rfl

end Cast

theorem place?_cons (key x : Nat) (xs : List Nat) :
    place? key (x :: xs) =
      ((place? key xs).map Fin.succ).or
        (if x = key then some ⟨0, Nat.succ_pos xs.length⟩ else none) := by
  rw [place?]
  cases place? key xs <;> simp

variable {f : Nat → Nat} (injective : Function.Injective f)
include injective

theorem place?_rename (key : Nat) (ids : List Nat) :
    place? (f key) (ids.map f) = (place? key ids).map (Fin.cast (List.length_map f).symm) := by
  induction ids with
  | nil => rfl
  | cons x xs ih =>
      refine (place?_cons (f key) (f x) (xs.map f)).trans ?_
      rw [ih, place?_cons]
      cases place? key xs with
      | some i => rfl
      | none =>
          simp only [injective.eq_iff, Option.map_none, Option.none_or]
          split <;> rfl

theorem links_rename (ids : List Nat) (edges : List Edge) :
    links (ids.map f) (edges.map (·.rename f)) =
      (links ids edges).map (Link.cast (List.length_map f).symm) := by
  rw [links, links, List.zipIdx_map, List.filterMap_map, List.map_filterMap]
  refine List.filterMap_congr ?_
  rintro ⟨e, i⟩ -
  cases back : e.back with
  | true => simp [Edge.rename, back]
  | false =>
      simp only [Function.comp_apply, Prod.map_apply, Edge.rename, back,
        place?_rename injective, id]
      cases place? e.source ids <;> cases place? e.target ids <;> rfl

theorem levelsOf_rename {ids : List Nat} (distinct : ids.Nodup) (edges : List Edge) :
    levelsOf (ids.map f) (edges.map (·.rename f)) = (levelsOf ids edges).map (·.rename f) := by
  have renamed := distinct.map injective
  have resolved := resolve_cast (List.length_map f).symm ids.length (links ids edges)
  have size : tableSize (ids.map f) = ids.length := by
    rw [tableSize_of_nodup renamed, List.length_map]
  rw [levelsOf, levelsOf, tableSize_of_nodup distinct, size, links_rename injective, resolved]
  cases resolve ids.length (links ids edges) with
  | error fault => rfl
  | ok p =>
      refine congrArg (fun entries => Except.ok (Levels.mk entries p.2)) ?_
      exact List.zip_map_left

theorem find?_rename {β : Type} (pairs : List (Nat × β)) (key : Nat) :
    (pairs.map (Prod.map f id)).find? (·.1 == f key) =
      (pairs.find? (·.1 == key)).map (Prod.map f id) := by
  rw [List.find?_map]
  congr 2
  funext p
  simp [injective.eq_iff]

theorem Levels.get_rename (levels : Levels) (key : Nat) :
    (levels.rename f).get (f key) = levels.get key := by
  rw [Levels.get, Levels.get, Levels.rename, ← List.map_reverse, find?_rename injective,
    Option.map_map]
  rfl

omit injective in
theorem Levels.mark_rename (levels : Levels) (edges : List Edge) :
    (levels.rename f).mark (edges.map (·.rename f)) = (levels.mark edges).map (·.rename f) := by
  rw [Levels.mark, Levels.mark, List.zipIdx_map, List.map_map, List.map_map]
  refine List.map_congr_left ?_
  rintro ⟨e, i⟩ -
  change (if levels.demoted.contains i then _ else _) = Edge.rename f (if _ then _ else _)
  split <;> rfl

section Tree
variable {α : Type} [Scalar α]

theorem contains_rename (ids : List Nat) (key : Nat) :
    (ids.map f).contains (f key) = ids.contains key := by
  simp [injective.eq_iff]

theorem branches_rename (ids : List Nat) (edges : List Edge) :
    branches (ids.map f) (edges.map (·.rename f)) = (branches ids edges).map (·.rename f) := by
  rw [branches, List.foldl_map]
  refine @List.foldl_hom _ _ _ (List.map (Branch.rename f)) _ _ edges [] ?_
  intro found e
  have known : (found.map (Branch.rename f)).any (·.child == f e.target) =
      found.any (·.child == e.target) := by
    simp only [List.any_map, Branch.rename, Function.comp_def, injective.beq_eq]
  simp only [Edge.rename, known, contains_rename injective, injective.beq_eq]
  split
  · rfl
  · simp [Branch.rename]

theorem childrenOf_rename (bs : List Branch) (key : Nat) :
    childrenOf (bs.map (·.rename f)) (f key) = (childrenOf bs key).map f := by
  simp only [childrenOf, List.filter_map, List.map_map, Function.comp_def, Branch.rename,
    injective.beq_eq]

theorem prune_rename (bs : List Branch) (key : Nat) :
    prune (bs.map (·.rename f)) (f key) = (prune bs key).map (·.rename f) := by
  simp only [prune, List.filter_map, Function.comp_def, Branch.rename, bne, injective.beq_eq]

theorem roots_rename (ids : List Nat) (bs : List Branch) :
    roots (ids.map f) (bs.map (·.rename f)) = (roots ids bs).map f := by
  have orphans : (ids.map f).filter (fun id => !(bs.map (Branch.rename f)).any (·.child == id)) =
      (ids.filter fun id => !bs.any (·.child == id)).map f := by
    simp only [List.filter_map, List.any_map, Function.comp_def, Branch.rename, injective.beq_eq]
  rw [roots, roots, orphans]
  cases ids.filter fun id => !bs.any (·.child == id) with
  | nil => exact List.map_take.symm
  | cons => rfl

omit [Scalar α] in
theorem lookup_rename (pairs : List (Nat × α)) (key : Nat) :
    (pairs.map (Prod.map f id)).lookup (f key) = pairs.lookup key := by
  induction pairs with
  | nil => rfl
  | cons p pairs ih =>
      rw [List.map_cons, List.lookup_cons, List.lookup_cons, ih, Prod.map_fst, injective.beq_eq]
      rfl

theorem valueAt_rename (pairs : List (Nat × α)) (key : Nat) :
    valueAt (pairs.map (Prod.map f id)) (f key) = valueAt pairs key := by
  rw [valueAt, valueAt, lastValue?, lastValue?, ← List.map_reverse, lookup_rename injective]

theorem subtreeWidths_rename (gap : α) {width renamed : Nat → α}
    (same : ∀ key, renamed (f key) = width key) (bs : List Branch) (order : List Nat) :
    subtreeWidths gap renamed (bs.map (·.rename f)) (order.map f) =
      (subtreeWidths gap width bs order).map (Prod.map f id) := by
  rw [subtreeWidths, List.foldl_map]
  refine @List.foldl_hom _ _ _ (List.map (Prod.map f id)) _ _ order [] ?_
  intro known key
  simp only [childrenOf_rename injective, same, List.map_map, List.map_append, List.map_singleton,
    Function.comp_def, valueAt_rename injective]
  rfl

omit injective in
theorem spreadOut_rename {width renamed : Nat → α} (same : ∀ key, renamed (f key) = width key)
    (left : α) (ids : List Nat) :
    spreadOut renamed left (ids.map f) = (spreadOut width left ids).map (Prod.map f id) := by
  induction ids generalizing left with
  | nil => rfl
  | cons key ids ih =>
      rw [List.map_cons, spreadOut, same, ih]
      rfl

theorem spreadChildren_rename {width renamed : Nat → α} (same : ∀ key, renamed (f key) = width key)
    (bs : List Branch) (key : Nat) (center : α) :
    spreadChildren renamed (bs.map (·.rename f)) (f key) center =
      (spreadChildren width bs key center).map (Prod.map f id) := by
  simp only [spreadChildren, childrenOf_rename injective, List.map_map, Function.comp_def, same,
    spreadOut_rename same]

theorem walk_rename {width renamed : Nat → α} (same : ∀ key, renamed (f key) = width key)
    (bs : List Branch) (stack : List (Nat × α)) :
    walk renamed (bs.map (·.rename f)) (stack.map (Prod.map f id)) =
      (walk width bs stack).map (Prod.map f id) := by
  induction bs, stack using walk.induct width with
  | case1 bs => rw [List.map_nil, walk, walk, List.map_nil]
  | case2 bs key center stack ih =>
      rw [List.map_cons, walk, Prod.map_apply, walk, prune_rename injective,
        spreadChildren_rename injective same, ← List.map_reverse, ← List.map_append]
      exact congrArg (_ :: ·) ih

theorem centers_rename {width renamed : Nat → α} (same : ∀ key, renamed (f key) = width key)
    (ids : List Nat) (bs : List Branch) :
    centers renamed (ids.map f) (bs.map (·.rename f)) =
      (centers width ids bs).map (Prod.map f id) := by
  simp only [centers, roots_rename injective, List.map_map, Function.comp_def, same,
    spreadOut_rename same, ← List.map_reverse, walk_rename injective same]

theorem bottomUp_rename (levels : Levels) (ids : List Nat) :
    bottomUp (levels.rename f) (ids.map f) = (bottomUp levels ids).map f := by
  refine (List.map_mergeSort ?_).symm
  intro a _ b _
  rw [Levels.get_rename injective, Levels.get_rename injective]

variable (config : Config α) (levels : Levels) (bs : List Branch) (nodes : List (Node α))

omit injective [Scalar α] in
theorem ids_rename : (nodes.map (·.rename f)).map (·.id) = (nodes.map (·.id)).map f := by
  rw [List.map_map, List.map_map]
  rfl

theorem treeWidths_rename :
    treeWidths config (levels.rename f) (bs.map (·.rename f)) (nodes.map (·.rename f)) =
      (treeWidths config levels bs nodes).map (Prod.map f id) := by
  have own : (nodes.map (Node.rename f)).map (fun n => (n.id, n.box.width)) =
      (nodes.map fun n => (n.id, n.box.width)).map (Prod.map f id) := by
    rw [List.map_map, List.map_map]
    rfl
  rw [treeWidths, own, ids_rename, bottomUp_rename injective]
  exact subtreeWidths_rename injective _ (valueAt_rename injective _) ..

theorem treeCenters_rename :
    treeCenters config (levels.rename f) (bs.map (·.rename f)) (nodes.map (·.rename f)) =
      (treeCenters config levels bs nodes).map (Prod.map f id) := by
  rw [treeCenters, treeWidths_rename injective, ids_rename]
  exact centers_rename injective (valueAt_rename injective _) ..

end Tree

section Rows
variable {α : Type} [Scalar α] {center renamed : Nat → α}
  (same : ∀ key, renamed (f key) = center key)
include same

omit injective in
/-- Blocks of a row under other numbers. -/
theorem mergeSort_rename (row : List (Nat × Node α)) :
    (row.map (Prod.map id (Node.rename f))).mergeSort
        (fun (_, a) (_, b) => Scalar.precedes (renamed a.id) (renamed b.id)) =
      (row.mergeSort fun (_, a) (_, b) => Scalar.precedes (center a.id) (center b.id)).map
        (Prod.map id (Node.rename f)) := by
  refine (List.map_mergeSort ?_).symm
  rintro ⟨i, m⟩ _ ⟨j, n⟩ _
  change Scalar.precedes (center m.id) (center n.id) =
    Scalar.precedes (renamed (f m.id)) (renamed (f n.id))
  rw [same, same]

theorem rowAt_rename (levels : Levels) (nodes : List (Node α)) (level : Nat) :
    rowAt (levels.rename f) renamed (nodes.map (·.rename f)) level =
      (rowAt levels center nodes level).map (Prod.map id (Node.rename f)) := by
  rw [rowAt, rowAt, ← mergeSort_rename same, List.zipIdx_map, List.map_map, List.filter_map,
    List.filter_map, List.map_map]
  simp only [Function.comp_def, Prod.map, Node.rename, Levels.get_rename injective]

theorem rows_rename (levels : Levels) (nodes : List (Node α)) :
    rows (levels.rename f) renamed (nodes.map (·.rename f)) =
      (rows levels center nodes).map (List.map (Prod.map id (Node.rename f))) := by
  have highest : (levels.rename f).max? = levels.max? := by
    rw [Levels.max?, Levels.max?, Levels.rename, List.map_map]
    rfl
  have row : rowAt (levels.rename f) renamed (nodes.map (Node.rename f)) =
      List.map (Prod.map id (Node.rename f)) ∘ rowAt levels center nodes :=
    funext (rowAt_rename injective same levels nodes)
  rw [rows, rows, highest, row, ← List.map_map, List.filter_map]
  simp only [Function.comp_def, List.isEmpty_map]

omit injective in
theorem packRow_rename (gap : α) (previous : Option (α × α)) (row : List (Nat × Node α)) :
    packRow gap renamed previous (row.map (Prod.map id (Node.rename f))) =
      packRow gap center previous row := by
  induction row generalizing previous with
  | nil => rfl
  | cons p row ih =>
      obtain ⟨i, n⟩ := p
      change (i, pushedCenter gap (renamed (f n.id)) previous n - n.box.width / 2) :: _ = _
      rw [packRow, ← ih, ← same]
      rfl

omit injective in
theorem stackRows_rename (config : Config α) (top : α) (rs : List (List (Nat × Node α))) :
    stackRows config renamed top (rs.map (List.map (Prod.map id (Node.rename f)))) =
      stackRows config center top rs := by
  induction rs generalizing top with
  | nil => rfl
  | cons row rs ih =>
      have height : tallest (row.map (Prod.map id (Node.rename f))) = tallest row := by
        rw [tallest, List.foldl_map]
        rfl
      rw [List.map_cons, stackRows, stackRows, packRow_rename same, height, ih]

end Rows

variable {α : Type} [Scalar α] (config : Config α)

theorem place_rename (levels : Levels) (edges : List Edge) (nodes : List (Node α)) :
    place config (levels.rename f) (edges.map (·.rename f)) (nodes.map (·.rename f)) =
      (place config levels edges nodes).map (·.rename f) := by
  rw [place, place, ids_rename, branches_rename injective, treeCenters_rename injective]
  simp only [rows_rename injective (valueAt_rename injective _),
    stackRows_rename (valueAt_rename injective _), List.zipIdx_map, List.map_map]
  refine List.map_congr_left ?_
  rintro ⟨n, i⟩ -
  simp only [Function.comp_apply, Prod.map_apply, id]
  split <;> rfl

/-- Arranging renamed blocks is renaming arranged ones. -/
theorem arrange_rename {d : Diagram α} (distinct : (d.nodes.map (·.id)).Nodup) :
    arrange config (d.rename f) = (arrange config d).map (·.rename f) := by
  have ids : (d.rename f).nodes.map (·.id) = (d.nodes.map (·.id)).map f := ids_rename d.nodes
  have renamed : ((d.rename f).nodes.map (·.id)).Nodup := ids ▸ distinct.map injective
  obtain ⟨levels, found, arranged, -⟩ := arrange_ends config distinct
  obtain ⟨others, foundOthers, arrangedOthers, -⟩ := arrange_ends config renamed
  obtain rfl : levels.rename f = others := by
    have same := levelsOf_rename injective distinct d.edges
    rw [found, ← ids] at same
    exact Except.ok.inj (same.symm.trans foundOthers)
  rw [arrangedOthers, arranged]
  simp only [Diagram.rename, Levels.mark_rename, place_rename injective]
  rfl

end Layout
end Flowchart
