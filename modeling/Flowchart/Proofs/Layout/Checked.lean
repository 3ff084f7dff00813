import Flowchart.Proofs.Layout.Arrange
import Flowchart.Proofs.Layout.Table
import Flowchart.Proofs.Layout.Width
/-! Arranging with every reading checked. Blocks may share a number, so maps by number have fewer
entries than there are blocks while levels and rows go by place. A place is below the number of
blocks by its type, and no map and no list is read where it has no entry; only the table of the
search for cycles can be too short. -/
namespace Flowchart.Layout

variable {α : Type} [Scalar α]

theorem mapM_eq_some_map {β γ : Type} {read : β → Option γ} {value : β → γ} {xs : List β}
    (known : ∀ x ∈ xs, read x = some (value x)) : xs.mapM read = some (xs.map value) := by
  induction xs with
  | nil => rfl
  | cons x xs ih =>
    obtain ⟨first, others⟩ := List.forall_mem_cons.mp known
    rw [List.mapM_cons, first, ih others]
    rfl

theorem lastValue?_of_mem {pairs : List (Nat × α)} {key : Nat} (known : key ∈ pairs.map (·.1)) :
    lastValue? pairs key = some (valueAt pairs key) := by
  obtain ⟨value, found⟩ := Option.isSome_iff_exists.mp (lastValue?_isSome.mpr known)
  rw [valueAt, found, Option.getD_some]

/-! Placement as in `Layout.place`, where a value that is read and is not there ends it. -/
namespace Checked

def subtreeWidths (gap : α) (own : List (Nat × α)) (bs : List Branch) (order : List Nat) :
    Option (List (Nat × α)) :=
  order.foldlM (fun known id => do
    let width ← lastValue? own id
    let below := total ((childrenOf bs id).map (valueAt known))
    return known ++ [(id, greatest (width + gap) below)]) []

def roots (ids : List Nat) (bs : List Branch) : Option (List Nat) :=
  match ids.filter fun id => !bs.any (·.child == id) with
  | [] => ids[0]?.map fun id => [id]
  | rs => some rs

def spreadOut (widths : List (Nat × α)) (left : α) : List Nat → Option (List (Nat × α))
  | [] => some []
  | id :: ids => do
    let width ← lastValue? widths id
    let others ← spreadOut widths (left + width) ids
    return (id, left + width / 2) :: others

theorem length_spreadOut {widths : List (Nat × α)} {left : α} {ids : List Nat}
    {spread : List (Nat × α)} (done : spreadOut widths left ids = some spread) :
    spread.length = ids.length := by
  induction ids generalizing left spread with
  | nil =>
    obtain rfl := Option.some.inj done
    rfl
  | cons id ids ih =>
    simp only [spreadOut, Option.bind_eq_bind, Option.bind_eq_some_iff] at done
    obtain ⟨width, -, others, rest, same⟩ := done
    obtain rfl := Option.some.inj same
    rw [List.length_cons, List.length_cons, ih rest]

def spreadChildren (widths : List (Nat × α)) (bs : List Branch) (id : Nat) (center : α) :
    Option (List (Nat × α)) := do
  let kids := childrenOf bs id
  let spans ← kids.mapM (lastValue? widths)
  spreadOut widths (center - total spans / 2) kids

theorem length_spreadChildren {widths : List (Nat × α)} {bs : List Branch} {id : Nat} {center : α}
    {spread : List (Nat × α)} (done : spreadChildren widths bs id center = some spread) :
    spread.length = (childrenOf bs id).length := by
  obtain ⟨spans, -, spreads⟩ := Option.bind_eq_some_iff.mp done
  exact length_spreadOut spreads

def walk (widths : List (Nat × α)) (bs : List Branch) :
    (stack : List (Nat × α)) → Option (List (Nat × α))
  | [] => some []
  | (id, center) :: stack =>
    match _h : spreadChildren widths bs id center with
    | some kids => (walk widths (prune bs id) (kids.reverse ++ stack)).map ((id, center) :: ·)
    | none => none
  termination_by stack => bs.length + stack.length
  decreasing_by
    have parts := length_prune_add bs id
    simp only [List.length_append, List.length_reverse, length_spreadChildren _h, List.length_cons]
    omega

def centers (widths : List (Nat × α)) (ids : List Nat) (bs : List Branch) :
    Option (List (Nat × α)) := do
  let rs ← roots ids bs
  let spans ← rs.mapM (lastValue? widths)
  let stack ← spreadOut widths (-total spans / 2) rs
  walk widths bs stack.reverse

/-- A row, each block read at its place. -/
def readRow (nodes : List (Node α)) (row : List (Nat × Node α)) : Option (List (Nat × Node α)) :=
  row.mapM fun p => nodes[p.1]?.map (p.1, ·)

/-- Move each block to its corner, in place. -/
def moveAll (nodes : List (Node α)) (corners : List (Nat × Point α)) : Option (List (Node α)) :=
  corners.foldlM (fun nodes p =>
    nodes[p.1]?.map fun n => nodes.set p.1 (n.moveTo p.2.x p.2.y)) nodes

def place (config : Config α) (levels : Levels) (edges : List Edge) (nodes : List (Node α)) :
    Option (List (Node α)) :=
  if nodes.isEmpty then some nodes
  else do
    let ids := nodes.map (·.id)
    let bs := treeBranches edges nodes
    let own := nodes.map fun n => (n.id, n.box.width)
    let widths ← subtreeWidths config.horizontalGap own bs (bottomUp levels ids)
    let found ← centers widths ids bs
    let center := valueAt found
    let rs ← (rows levels center nodes).mapM (readRow nodes)
    moveAll nodes (stackRows config center config.topMargin rs)

section Trees
variable {own widths : List (Nat × α)} {bs : List Branch} {ids : List Nat}

theorem subtreeWidths_eq (gap : α) {order : List Nat} (known : ∀ id ∈ order, id ∈ own.map (·.1)) :
    subtreeWidths gap own bs order = some (Layout.subtreeWidths gap (valueAt own) bs order) := by
  induction order using List.reverseRecOn with
  | nil => rfl
  | append_singleton order id ih =>
    have earlier := ih fun key member => known key (List.mem_append_left _ member)
    have last := lastValue?_of_mem (known id (List.mem_append_right _ (List.mem_singleton_self id)))
    rw [subtreeWidths] at earlier
    rw [subtreeWidths, List.foldlM_append, earlier, subtreeWidths_concat]
    simp [last]

theorem roots_eq (some : ids ≠ []) : roots ids bs = .some (Layout.roots ids bs) := by
  obtain ⟨first, others, rfl⟩ := List.exists_cons_of_ne_nil some
  cases orphans : (first :: others).filter fun id => !bs.any (·.child == id) with
  | nil => simp only [roots, Layout.roots, orphans]; rfl
  | cons root rest => simp only [roots, Layout.roots, orphans]

theorem spreadOut_eq (left : α) (known : ∀ id ∈ ids, id ∈ widths.map (·.1)) :
    spreadOut widths left ids = some (Layout.spreadOut (valueAt widths) left ids) := by
  induction ids generalizing left with
  | nil => rfl
  | cons id ids ih =>
    obtain ⟨first, others⟩ := List.forall_mem_cons.mp known
    rw [spreadOut, lastValue?_of_mem first, Option.bind_eq_bind, Option.bind_some, ih _ others]
    rfl

theorem spans_eq (known : ∀ id ∈ ids, id ∈ widths.map (·.1)) :
    ids.mapM (lastValue? widths) = some (ids.map (valueAt widths)) :=
  mapM_eq_some_map fun id member => lastValue?_of_mem (known id member)

theorem walk_eq (known : ∀ b ∈ bs, b.child ∈ widths.map (·.1)) (stack : List (Nat × α)) :
    walk widths bs stack = some (Layout.walk (valueAt widths) bs stack) := by
  induction bs, stack using Layout.walk.induct (valueAt widths) with
  | case1 bs => rw [walk, Layout.walk]
  | case2 bs id center stack ih =>
    have kids : ∀ kid ∈ childrenOf bs id, kid ∈ widths.map (·.1) :=
      fun kid member => known _ (mem_childrenOf.mp member)
    have spread : spreadChildren widths bs id center =
        some (Layout.spreadChildren (valueAt widths) bs id center) := by
      rw [spreadChildren, spans_eq kids, Option.bind_eq_bind, Option.bind_some, spreadOut_eq _ kids]
      rfl
    have later := ih fun b member => known b (List.mem_of_mem_filter member)
    rw [walk, Layout.walk]
    split
    · next found same =>
      obtain rfl := Option.some.inj (spread.symm.trans same)
      rw [later, Option.map_some]
    · next none => cases spread.symm.trans none

theorem mem_of_mem_roots {id : Nat} (member : id ∈ Layout.roots ids bs) : id ∈ ids := by
  rw [Layout.roots] at member
  split at member
  · exact List.mem_of_mem_take member
  · exact List.mem_of_mem_filter member

theorem centers_eq (some : ids ≠ []) (known : ∀ id ∈ ids, id ∈ widths.map (·.1))
    (below : ∀ b ∈ bs, b.child ∈ ids) :
    centers widths ids bs = .some (Layout.centers (valueAt widths) ids bs) := by
  have first : ∀ id ∈ Layout.roots ids bs, id ∈ widths.map (·.1) :=
    fun id member => known id (mem_of_mem_roots member)
  simp only [centers, roots_eq some, spans_eq first, spreadOut_eq _ first, Option.bind_eq_bind,
    Option.bind_some]
  exact walk_eq (fun b member => known _ (below b member)) _

end Trees

section Rows
variable {nodes : List (Node α)}

theorem readRows_eq (levels : Levels) (center : Nat → α) (nodes : List (Node α)) :
    (rows levels center nodes).mapM (readRow nodes) = some (rows levels center nodes) := by
  have whole : ∀ row ∈ rows levels center nodes, readRow nodes row = some (id row) := by
    intro row member
    obtain ⟨level, rfl⟩ := mem_rows member
    have found : ∀ p ∈ rowAt levels center nodes level,
        nodes[p.1]?.map (p.1, ·) = some (id p) := by
      intro p inside
      rw [(mem_rowAt.mp inside).1]
      rfl
    rw [readRow, mapM_eq_some_map found, List.map_id, id]
  rw [mapM_eq_some_map whole, List.map_id]

/-- A block with its place, at the corner that its place is looked up with. -/
def toCorner (corners : List (Nat × Point α)) (p : Node α × Nat) : Node α :=
  match corners.lookup p.2 with
  | some corner => p.1.moveTo corner.x corner.y
  | none => p.1

omit [Scalar α] in
theorem getElem?_toCorner (corners : List (Nat × Point α)) (nodes : List (Node α)) (i : Nat) :
    (nodes.zipIdx.map (toCorner corners))[i]? = nodes[i]?.map fun n => toCorner corners (n, i) := by
  rw [List.getElem?_map, List.getElem?_zipIdx, Option.map_map, Nat.zero_add]
  rfl

omit [Scalar α] in
/-- Where no place has two corners it does not matter whether blocks are moved one after the other
or all at once. -/
theorem moveAll_eq {corners : List (Nat × Point α)} (once : (corners.map (·.1)).Nodup)
    (known : ∀ p ∈ corners, p.1 < nodes.length) :
    moveAll nodes corners = some (nodes.zipIdx.map (toCorner corners)) := by
  induction corners generalizing nodes with
  | nil => exact congrArg some (List.zipIdx_map_fst 0 nodes).symm
  | cons p corners ih =>
    obtain ⟨i, corner⟩ := p
    obtain ⟨new, others⟩ := List.nodup_cons.mp once
    obtain ⟨inside, rest⟩ := List.forall_mem_cons.mp known
    have first : moveAll nodes ((i, corner) :: corners) =
        moveAll (nodes.set i (nodes[i].moveTo corner.x corner.y)) corners := by
      rw [moveAll, List.foldlM_cons, List.getElem?_eq_getElem inside]
      rfl
    rw [first, ih others (by simpa using rest)]
    refine congrArg some (List.ext_getElem? fun j => ?_)
    rw [getElem?_toCorner, getElem?_toCorner]
    by_cases same : j = i
    · subst same
      have absent : corners.lookup j = none := by
        refine List.lookup_eq_none_iff.mpr fun p member => bne_iff_ne.mpr ?_
        rintro rfl
        exact new (List.mem_map.mpr ⟨p, member, rfl⟩)
      rw [List.getElem?_set_self inside, List.getElem?_eq_getElem inside]
      simp [toCorner, absent]
    · have later : ((i, corner) :: corners).lookup j = corners.lookup j := by
        rw [List.lookup_cons, beq_eq_false_iff_ne.mpr same]
      rw [List.getElem?_set_ne (Ne.symm same)]
      simp only [toCorner, later]

/-- The corners that rows are stacked at belong to places of blocks, and no place has two. -/
theorem corners_inside (config : Config α) (levels : Levels) (center : Nat → α)
    (nodes : List (Node α)) :
    let corners := stackRows config center config.topMargin (rows levels center nodes)
    (corners.map (·.1)).Nodup ∧ ∀ p ∈ corners, p.1 < nodes.length := by
  intro corners
  have keys : corners.map (·.1) = (rows levels center nodes).flatten.map (·.1) :=
    stackRows_keys config center config.topMargin _
  refine ⟨keys ▸ nodup_flatten_rows, ?_⟩
  intro p member
  have listed : p.1 ∈ (rows levels center nodes).flatten.map (·.1) :=
    keys ▸ List.mem_map_of_mem member
  obtain ⟨q, inside, same⟩ := List.mem_map.mp listed
  obtain ⟨row, inRows, inRow⟩ := List.mem_flatten.mp inside
  obtain ⟨level, rfl⟩ := mem_rows inRows
  exact same ▸ (List.getElem?_eq_some_iff.mp (mem_rowAt.mp inRow).1).1

end Rows

section Placed
variable (config : Config α) (levels : Levels) (edges : List Edge) (nodes : List (Node α))

theorem treeWidths_eq (bs : List Branch) :
    subtreeWidths config.horizontalGap (nodes.map fun n => (n.id, n.box.width)) bs
      (bottomUp levels (nodes.map (·.id))) = some (treeWidths config levels bs nodes) := by
  refine subtreeWidths_eq _ fun id member => ?_
  have listed := (bottomUp_perm levels (nodes.map (·.id))).mem_iff.mp member
  rw [List.map_map]
  exact listed

theorem treeCenters_eq (some : nodes.map (·.id) ≠ []) :
    centers (treeWidths config levels (treeBranches edges nodes) nodes) (nodes.map (·.id))
      (treeBranches edges nodes) =
        .some (treeCenters config levels (treeBranches edges nodes) nodes) := by
  refine centers_eq some ?_ ?_
  · intro id member
    rw [treeWidths, subtreeWidths_keys]
    exact (bottomUp_perm levels _).mem_iff.mpr member
  · intro b member
    obtain ⟨e, -, grows, rfl⟩ := grows_of_mem_branches member
    exact grows.target_mem

/-- No value is missing where blocks are placed, whatever numbers, levels and connections they
have. -/
theorem place_eq : place config levels edges nodes =
    some (Layout.place config levels edges nodes) := by
  rw [place]
  split
  · next empty =>
    obtain rfl := List.isEmpty_iff.mp empty
    rfl
  · next blocks =>
    have some : nodes.map (·.id) ≠ [] := by simpa [List.isEmpty_iff] using blocks
    obtain ⟨once, inside⟩ := corners_inside config levels (treeCenter config levels edges nodes)
      nodes
    simp only [treeWidths_eq, treeCenters_eq config levels edges nodes some, readRows_eq,
      Option.bind_eq_bind, Option.bind_some]
    exact moveAll_eq once inside

end Placed
end Checked

/-- An arrangement for which nothing is read that is not there. Its levels are the ones that a table
with an entry for each place gives, each demoted connection is there and lies on a cycle, and blocks
are placed with all readings checked. -/
structure InRange (config : Config α) (d : Diagram α) (a : Arrangement α) : Prop where
  levels : ∃ values, a.levels.entries = (d.nodes.map (·.id)).zip values.toList ∧
    resolve (d.nodes.map (·.id)).length (links (d.nodes.map (·.id)) d.edges) =
      .ok (values, a.levels.demoted)
  demoted : ∀ i ∈ a.levels.demoted, ∃ e, d.edges[i]? = some e ∧
    OnCycle (d.nodes.map (·.id)) d.edges e
  placed : Checked.place config a.levels a.diagram.edges d.nodes = some a.diagram.nodes

section Arranged
variable (config : Config α) {d : Diagram α}

theorem arrange_of_levelsOf {values : Vector Nat (d.nodes.map (·.id)).length} {demoted : List Nat}
    (found : levelsOf (d.nodes.map (·.id)) d.edges =
      .ok ⟨(d.nodes.map (·.id)).zip values.toList, demoted⟩)
    (cyclic : ∀ i ∈ demoted, ∃ e, d.edges[i]? = some e ∧
      OnCycle (d.nodes.map (·.id)) d.edges e) :
    ∃ a, arrange config d = .ok a ∧
      a.levels = ⟨(d.nodes.map (·.id)).zip values.toList, demoted⟩ ∧
      a.diagram.nodes = place config a.levels a.diagram.edges d.nodes := by
  obtain ⟨nodes, edges⟩ := d
  cases nodes with
  | cons n nodes =>
    rw [arrange, found]
    exact ⟨_, rfl, rfl, rfl⟩
  | nil =>
    -- without blocks there is no cycle, and nothing has been demoted
    have none : demoted = [] := by
      refine List.eq_nil_iff_forall_not_mem.mpr fun i member => ?_
      obtain ⟨e, -, cycle⟩ := cyclic i member
      exact List.not_mem_nil cycle.source_mem
    subst none
    exact ⟨_, rfl, rfl, rfl⟩

theorem arrange_of_levelsOf_error {fault : Fault} (some : d.nodes ≠ [])
    (failed : levelsOf (d.nodes.map (·.id)) d.edges = .error fault) :
    arrange config d = .error fault := by
  rw [arrange, if_neg (by simpa using some), failed]

end Arranged

/-- Blocks are arranged with everything in range, unless a block strays beyond the table of a
search for cycles. That takes blocks with the same number, and a cycle that leads to the block. -/
theorem arrange_inRange (config : Config α) (d : Diagram α) :
    (∃ a, arrange config d = .ok a ∧ InRange config d a) ∨
      ∃ p : Fin (d.nodes.map (·.id)).length,
        arrange config d = .error (.outsideTable p (tableSize (d.nodes.map (·.id)))) ∧
        Strays (d.nodes.map (·.id)) d.edges p := by
  rcases levelsOf_table (d.nodes.map (·.id)) d.edges with
    ⟨values, demoted, left, full, run, found⟩ | ⟨p, failed, strays⟩
  · have cyclic : ∀ i ∈ demoted, ∃ e, d.edges[i]? = some e ∧
        OnCycle (d.nodes.map (·.id)) d.edges e := fun i member => run.onCycle member
    obtain ⟨a, arranged, levels, nodes⟩ := arrange_of_levelsOf config found cyclic
    refine .inl ⟨a, arranged, ⟨values, congrArg Levels.entries levels, levels ▸ full⟩,
      levels ▸ cyclic, ?_⟩
    rw [Checked.place_eq, ← nodes]
  · refine .inr ⟨p, arrange_of_levelsOf_error config ?_ failed, strays⟩
    intro empty
    exact absurd p.isLt (by simp [empty])

/-- Two blocks with the same number before a third one, and a cycle. The second pass begins a search
at the third block, and the table has two entries. -/
theorem levelsOf_outsideTable : levelsOf [0, 0, 1] [⟨1, 0, none, false⟩, ⟨0, 1, none, false⟩] =
    .error (.outsideTable 2 2) := by
  let ls : List (Link 3) := [⟨0, 2, 1⟩, ⟨1, 1, 2⟩]
  have listed : links [0, 0, 1] [⟨1, 0, none, false⟩, ⟨0, 1, none, false⟩] = ls := by decide
  have table : tableSize [0, 0, 1] = 2 := by decide
  have closes : closesCycle 2 ls ⟨1, 1, 2⟩ = .error (.outsideTable 2 2) := by
    rw [closesCycle, search, if_neg (by decide), if_pos (by decide)]
    rfl
  have first : sweep 2 ls ls (Vector.replicate 3 0) false = .ok (.levels #v[0, 1, 2] true) := rfl
  have second : sweep 2 ls ls #v[0, 1, 2] false = .error (.outsideTable 2 2) := by
    have pushed : sweep 2 ls ls #v[0, 1, 2] false = sweep 2 ls [⟨1, 1, 2⟩] #v[0, 3, 2] true := rfl
    rw [pushed, sweep, closes]
    rfl
  have again : settle 2 ls #v[0, 1, 2] = .error (.outsideTable 2 2) := by rw [settle, second]
  have settled : settle 2 ls (Vector.replicate 3 0) = .error (.outsideTable 2 2) := by
    rw [settle, first]
    exact again
  have resolved : resolve 2 ls = .error (.outsideTable 2 2) := by rw [resolve, settled]
  rw [levelsOf, table, listed, resolved]

theorem arrange_outsideTable :
    let block : Block := ⟨.process, "step", "[step]", none⟩
    let nodes : List (Node Rat) :=
      [⟨block, 0, ⟨0, 0, 100, 50⟩, none, none⟩, ⟨block, 0, ⟨0, 0, 100, 50⟩, none, none⟩,
        ⟨block, 1, ⟨0, 0, 100, 50⟩, none, none⟩]
    let edges : List Edge := [⟨1, 0, none, false⟩, ⟨0, 1, none, false⟩]
    arrange Config.standard ⟨nodes, edges⟩ = .error (.outsideTable 2 2) :=
  arrange_of_levelsOf_error _ (List.cons_ne_nil _ _) levelsOf_outsideTable

end Flowchart.Layout
