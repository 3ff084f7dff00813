import Flowchart.Proofs.Lookup
/-! Rows of a placed chart. The blocks are shared out to rows by their levels, rows follow each
other from low to high levels, and every block lands in the row of its level, where its row was
packed. -/
namespace Flowchart.Layout

variable {α : Type} [Scalar α]

section Membership
variable {levels : Levels} {center : Nat → α} {nodes : List (Node α)}

theorem mem_rowAt {level : Nat} {p : Nat × Node α} :
    p ∈ rowAt levels center nodes level ↔ nodes[p.1]? = some p.2 ∧ levels.get p.2.id = level := by
  simp only [rowAt, List.mem_mergeSort, List.mem_filter, List.mem_map, List.mem_zipIdx_iff_getElem?,
    beq_iff_eq]
  constructor
  · rintro ⟨⟨⟨n, i⟩, found, rfl⟩, same⟩
    exact ⟨found, same⟩
  · rintro ⟨found, same⟩
    exact ⟨⟨(p.2, p.1), found, rfl⟩, same⟩

theorem mem_rows {row : List (Nat × Node α)} (member : row ∈ rows levels center nodes) :
    ∃ level, row = rowAt levels center nodes level := by
  obtain ⟨level, _, same⟩ := List.mem_map.mp (List.mem_of_mem_filter member)
  exact ⟨level, same.symm⟩

theorem Levels.get_le_max (levels : Levels) (id : Nat) : levels.get id ≤ levels.max?.getD 0 := by
  cases found : levels.entries.reverse.find? (·.1 == id) with
  | none => simp [Levels.get, found]
  | some entry =>
      have member : entry.2 ∈ levels.entries.map (·.2) :=
        List.mem_map_of_mem (List.mem_reverse.mp (List.mem_of_find?_eq_some found))
      have high := List.le_max?_getD_of_mem (k := 0) member
      simpa [Levels.get, Levels.max?, found] using high

theorem exists_row (levels : Levels) (center : Nat → α) {i : Nat} {n : Node α}
    (found : nodes[i]? = some n) :
    ∃ row ∈ rows levels center nodes, (i, n) ∈ row := by
  have inside : (i, n) ∈ rowAt levels center nodes (levels.get n.id) := mem_rowAt.mpr ⟨found, rfl⟩
  refine ⟨_, List.mem_filter.mpr ⟨List.mem_map_of_mem ?_, ?_⟩, inside⟩
  · exact List.mem_range.mpr (Nat.lt_succ_of_le (levels.get_le_max n.id))
  · cases same : rowAt levels center nodes (levels.get n.id) with
    | nil => simp [same] at inside
    | cons => rfl

theorem level_eq_of_mem_rows {row : List (Nat × Node α)} (member : row ∈ rows levels center nodes)
    {p q : Nat × Node α} (left : p ∈ row) (right : q ∈ row) :
    levels.get p.2.id = levels.get q.2.id := by
  obtain ⟨level, rfl⟩ := mem_rows member
  exact (mem_rowAt.mp left).2.trans (mem_rowAt.mp right).2.symm

theorem rows_pairwise_lt : (rows levels center nodes).Pairwise fun low high =>
    ∀ p ∈ low, ∀ q ∈ high, levels.get p.2.id < levels.get q.2.id := by
  refine List.Pairwise.filter _ (List.pairwise_map.mpr (List.pairwise_lt_range.imp ?_))
  intro j k less p low q high
  rw [(mem_rowAt.mp low).2, (mem_rowAt.mp high).2]
  exact less

theorem level_lt_iff {j k : Nat} {low high : List (Nat × Node α)} {p q : Nat × Node α}
    (foundLow : (rows levels center nodes)[j]? = some low)
    (foundHigh : (rows levels center nodes)[k]? = some high) (inLow : p ∈ low) (inHigh : q ∈ high) :
    levels.get p.2.id < levels.get q.2.id ↔ j < k := by
  have ordered := List.pairwise_iff_getElem.mp
    (rows_pairwise_lt : (rows levels center nodes).Pairwise _)
  obtain ⟨boundLow, rfl⟩ := List.getElem?_eq_some_iff.mp foundLow
  obtain ⟨boundHigh, rfl⟩ := List.getElem?_eq_some_iff.mp foundHigh
  rcases Nat.lt_trichotomy j k with before | same | after
  · exact iff_of_true (ordered j k boundLow boundHigh before p inLow q inHigh) before
  · subst same
    have level := level_eq_of_mem_rows (List.getElem_mem boundLow) inLow inHigh
    exact iff_of_false (Nat.not_lt.mpr (Nat.le_of_eq level.symm)) (Nat.lt_irrefl j)
  · have level := ordered k j boundHigh boundLow after q inHigh p inLow
    exact iff_of_false (Nat.lt_asymm level) (Nat.lt_asymm after)

theorem nodup_flatten_rows : ((rows levels center nodes).flatten.map (·.1)).Nodup := by
  have placed : (nodes.zipIdx.map Prod.swap).Nodup := by
    refine List.Nodup.of_map (·.1) ?_
    rw [List.map_map]
    change (nodes.zipIdx.map (·.2)).Nodup
    rw [List.zipIdx_map_snd]
    exact List.nodup_range'
  have flat : (rows levels center nodes).flatten.Nodup := by
    refine List.nodup_flatten.mpr ⟨?_, rows_pairwise_lt.imp ?_⟩
    · intro row member
      obtain ⟨level, rfl⟩ := mem_rows member
      exact (List.mergeSort_perm _ _).nodup_iff.mpr (placed.filter _)
    · intro low high less p inLow inHigh
      exact Nat.lt_irrefl _ (less p inLow p inHigh)
  refine List.Nodup.map_on ?_ flat
  have found : ∀ p ∈ (rows levels center nodes).flatten, nodes[p.1]? = some p.2 := by
    intro p inside
    obtain ⟨row, member, inRow⟩ := List.mem_flatten.mp inside
    obtain ⟨level, rfl⟩ := mem_rows member
    exact (mem_rowAt.mp inRow).1
  intro p left q right same
  have nodeSame := (found p left).symm.trans (same ▸ found q right)
  exact Prod.ext same (Option.some.inj nodeSame)

end Membership

/-- Top of the row at an index, with the first row at `top`. -/
def rowTop (config : Config α) : (top : α) → List (List (Nat × Node α)) → Nat → α
  | top, [], _ => top
  | top, _ :: _, 0 => top
  | top, row :: rs, k + 1 => rowTop config (top + (tallest row + config.verticalGap)) rs k

section Packing
variable {gap : α} {center : Nat → α} {config : Config α}

theorem packRow_keys (previous : Option (α × α)) (row : List (Nat × Node α)) :
    (packRow gap center previous row).map (·.1) = row.map (·.1) := by
  induction row generalizing previous with
  | nil => rfl
  | cons p row ih => simp only [packRow, List.map_cons, ih]

theorem exists_mem_zip_packRow (gap : α) (center : Nat → α) (previous : Option (α × α))
    {row : List (Nat × Node α)} {p : Nat × Node α} (member : p ∈ row) :
    ∃ x, (p, (p.1, x)) ∈ row.zip (packRow gap center previous row) := by
  induction row generalizing previous with
  | nil => simp at member
  | cons q row ih =>
      simp only [packRow, List.zip_cons_cons]
      rcases List.mem_cons.mp member with rfl | later
      · exact ⟨_, List.mem_cons_self⟩
      · obtain ⟨x, inside⟩ := ih _ later
        exact ⟨x, List.mem_cons_of_mem _ inside⟩

theorem stackRows_keys (config : Config α) (center : Nat → α) (top : α)
    (rs : List (List (Nat × Node α))) :
    (stackRows config center top rs).map (·.1) = rs.flatten.map (·.1) := by
  induction rs generalizing top with
  | nil => rfl
  | cons row rs ih =>
      rw [stackRows, List.map_append, ih, List.flatten_cons, List.map_append, List.map_map]
      congr 1
      exact packRow_keys none row

/-- A left end of a row together with the top of the row is a corner. -/
theorem mem_stackRows (top : α) {x : α} {rs : List (List (Nat × Node α))}
    {row : List (Nat × Node α)} {i k : Nat} (found : rs[k]? = some row)
    (member : (i, x) ∈ packRow config.horizontalGap center none row) :
    (i, ⟨x, rowTop config top rs k⟩) ∈ stackRows config center top rs := by
  induction rs generalizing top k with
  | nil => simp at found
  | cons first rs ih =>
      rw [stackRows]
      cases k with
      | zero =>
          rw [List.getElem?_cons_zero, Option.some.injEq] at found
          subst found
          exact List.mem_append_left _ (List.mem_map_of_mem member)
      | succ k => exact List.mem_append_right _ (ih _ found)

end Packing

section Placed
variable (config : Config α) (levels : Levels) (edges : List Edge) (nodes : List (Node α))

def treeCenter : Nat → α :=
  valueAt (treeCenters config levels (branches (nodes.map (·.id)) edges) nodes)

def treeRows : List (List (Nat × Node α)) :=
  rows levels (treeCenter config levels edges nodes) nodes

/-- The blocks of a row with their left ends. -/
def packed (row : List (Nat × Node α)) : List ((Nat × Node α) × (Nat × α)) :=
  row.zip (packRow config.horizontalGap (treeCenter config levels edges nodes) none row)

def treeTop (k : Nat) : α := rowTop config config.topMargin (treeRows config levels edges nodes) k

theorem place_eq : place config levels edges nodes = nodes.zipIdx.map fun (n, i) =>
    match (stackRows config (treeCenter config levels edges nodes) config.topMargin
      (treeRows config levels edges nodes)).lookup i with
    | some corner => n.moveTo corner.x corner.y
    | none => n := rfl

/-- The block `n` at place `i` of the list lands in the row at `k`, its left end at `x`. -/
structure Landed (i k : Nat) (n : Node α) (row : List (Nat × Node α)) (x : α) (placed : Node α) :
    Prop where
  found : nodes[i]? = some n
  foundRow : (treeRows config levels edges nodes)[k]? = some row
  inRow : ((i, n), (i, x)) ∈ packed config levels edges nodes row
  moved : placed = n.moveTo x (treeTop config levels edges nodes k)

theorem exists_landed {i : Nat} {n : Node α} (found : nodes[i]? = some n) :
    ∃ k row x placed, Landed config levels edges nodes i k n row x placed ∧
      (place config levels edges nodes)[i]? = some placed := by
  obtain ⟨row, member, inside⟩ := exists_row levels (treeCenter config levels edges nodes) found
  obtain ⟨k, foundRow⟩ := List.getElem?_of_mem member
  obtain ⟨x, inPacked⟩ := exists_mem_zip_packRow config.horizontalGap
    (treeCenter config levels edges nodes) none inside
  refine ⟨k, row, x, _, ⟨found, foundRow, inPacked, rfl⟩, ?_⟩
  have corner := mem_stackRows config.topMargin foundRow (List.of_mem_zip inPacked).2
  have distinct : ((stackRows config (treeCenter config levels edges nodes) config.topMargin
      (treeRows config levels edges nodes)).map (·.1)).Nodup := by
    rw [stackRows_keys]
    exact nodup_flatten_rows
  have looked := lookup_of_nodup_map distinct corner
  rw [place_eq, List.getElem?_map, List.getElem?_zipIdx, found, Option.map_some, Option.map_some,
    Nat.zero_add]
  simp only [looked]
  rfl

theorem length_place : (place config levels edges nodes).length = nodes.length := by
  rw [place_eq, List.length_map, List.length_zipIdx]

theorem landed_of_mem {placed : Node α} (member : placed ∈ place config levels edges nodes) :
    ∃ i k n row x, Landed config levels edges nodes i k n row x placed := by
  obtain ⟨i, inside, rfl⟩ := List.mem_iff_getElem.mp member
  have found := List.getElem?_eq_getElem (length_place config levels edges nodes ▸ inside)
  obtain ⟨k, row, x, placed, landed, same⟩ := exists_landed config levels edges nodes found
  rw [List.getElem?_eq_getElem inside, Option.some.injEq] at same
  exact ⟨i, k, _, row, x, same ▸ landed⟩

theorem map_place {β : Type} {f g : Node α → β}
    (kept : ∀ i k n row x placed, Landed config levels edges nodes i k n row x placed →
      f placed = g n) : (place config levels edges nodes).map f = nodes.map g := by
  refine List.ext_getElem? ?_
  intro i
  rw [List.getElem?_map, List.getElem?_map]
  cases found : nodes[i]? with
  | none =>
      rw [List.getElem?_eq_none_iff, ← length_place config levels edges nodes,
        ← List.getElem?_eq_none_iff] at found
      rw [found]
      rfl
  | some n =>
      obtain ⟨k, row, x, placed, landed, same⟩ := exists_landed config levels edges nodes found
      rw [same, Option.map_some, Option.map_some, kept i k n row x placed landed]

theorem place_sizes : (place config levels edges nodes).map
    (fun n => (n.id, n.box.width, n.box.height)) =
      nodes.map fun n => (n.id, n.box.width, n.box.height) := by
  refine map_place config levels edges nodes ?_
  intro i k n row x placed landed
  rw [landed.moved]
  rfl

theorem place_ids : (place config levels edges nodes).map (·.id) = nodes.map (·.id) := by
  refine map_place config levels edges nodes ?_
  intro i k n row x placed landed
  rw [landed.moved]
  rfl

variable {config levels edges nodes}

theorem Landed.mem_row {i k : Nat} {n placed : Node α} {row : List (Nat × Node α)} {x : α}
    (landed : Landed config levels edges nodes i k n row x placed) : (i, n) ∈ row :=
  (List.of_mem_zip landed.inRow).1

theorem Landed.id_eq {i k : Nat} {n placed : Node α} {row : List (Nat × Node α)} {x : α}
    (landed : Landed config levels edges nodes i k n row x placed) : placed.id = n.id := by
  rw [landed.moved]
  rfl

theorem Landed.level_lt_iff {i j k l : Nat} {m n high low : Node α}
    {row other : List (Nat × Node α)} {x y : α} (above : Landed config levels edges nodes i k m row x high)
    (below : Landed config levels edges nodes j l n other y low) :
    levels.get high.id < levels.get low.id ↔ k < l := by
  rw [above.id_eq, below.id_eq]
  exact Layout.level_lt_iff above.foundRow below.foundRow above.mem_row below.mem_row

end Placed
end Flowchart.Layout
