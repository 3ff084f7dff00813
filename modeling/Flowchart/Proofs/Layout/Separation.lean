import Flowchart.Proofs.Layout.Arrange
import Flowchart.Proofs.Rational
import Flowchart.Proofs.Route
import Mathlib.Tactic.Linarith
/-! Blocks keep their distance. Packing leaves the gap between neighbours of a row, rows are stacked
with the gap between them, and levels rise along forward connections, so these point down. -/
namespace Flowchart.Layout

section Row
variable {gap : Rat} {center : Nat → Rat}

theorem le_pushedCenter (gap wanted left width : Rat) (n : Node Rat) :
    left + (width / 2 + n.box.width / 2 + gap) ≤
      pushedCenter gap wanted (some (left, width)) n := by
  rw [pushedCenter_some]
  split
  · exact le_rfl
  · linarith

theorem packRow_right {row : List (Nat × Node Rat)} (positive : 0 ≤ gap)
    (sized : ∀ p ∈ row, 0 ≤ p.2.box.width) (left width : Rat) :
    ∀ q ∈ row.zip (packRow gap center (some (left, width)) row),
      left + width / 2 + gap ≤ q.2.2 := by
  induction row generalizing left width with
  | nil => simp
  | cons p row ih =>
      obtain ⟨i, n⟩ := p
      obtain ⟨wide, others⟩ := List.forall_mem_cons.mp sized
      have apart := le_pushedCenter gap (center n.id) left width n
      intro q member
      rw [packRow_cons, List.zip_cons_cons] at member
      rcases List.mem_cons.mp member with rfl | later
      · change left + width / 2 + gap ≤ pushedCenter gap (center n.id) (some (left, width)) n -
          n.box.width / 2
        linarith
      · have behind := ih others _ _ q later
        change 0 ≤ n.box.width at wide
        linarith

/-- Blocks of a packed row do not come closer than the gap. -/
theorem packRow_pairwise {row : List (Nat × Node Rat)} (positive : 0 ≤ gap)
    (sized : ∀ p ∈ row, 0 ≤ p.2.box.width) (previous : Option (Rat × Rat)) :
    (row.zip (packRow gap center previous row)).Pairwise fun p q =>
      p.2.2 + p.1.2.box.width + gap ≤ q.2.2 := by
  induction row generalizing previous with
  | nil => exact List.Pairwise.nil
  | cons p row ih =>
      obtain ⟨i, n⟩ := p
      have others := (List.forall_mem_cons.mp sized).2
      rw [packRow_cons, List.zip_cons_cons]
      refine List.pairwise_cons.mpr ⟨?_, ih others _⟩
      intro q later
      have behind := packRow_right positive others _ _ q later
      change pushedCenter gap (center n.id) previous n - n.box.width / 2 + n.box.width + gap ≤ q.2.2
      linarith

end Row

section Stack
variable {config : Config Rat} {rs : List (List (Nat × Node Rat))}

theorem tallest_cons_fold (height : Rat) (row : List (Nat × Node Rat)) :
    height ≤ row.foldl (fun high p => greatest high p.2.box.height) height ∧
      ∀ p ∈ row,
        p.2.box.height ≤ row.foldl (fun high p => greatest high p.2.box.height) height := by
  induction row generalizing height with
  | nil => simp
  | cons p row ih =>
      obtain ⟨above, others⟩ := ih (greatest height p.2.box.height)
      rw [greatest_eq_max, max_le_iff, ← greatest_eq_max] at above
      rw [List.foldl_cons]
      exact ⟨above.1, List.forall_mem_cons.mpr ⟨above.2, others⟩⟩

theorem tallest_nonneg (row : List (Nat × Node Rat)) : 0 ≤ tallest row :=
  (tallest_cons_fold 0 row).1

theorem height_le_tallest {row : List (Nat × Node Rat)} {p : Nat × Node Rat} (member : p ∈ row) :
    p.2.box.height ≤ tallest row := (tallest_cons_fold 0 row).2 p member

theorem rowTop_cons_succ (top : Rat) (row : List (Nat × Node Rat)) (k : Nat) :
    rowTop config top (row :: rs) (k + 1) =
      rowTop config (top + (tallest row + config.verticalGap)) rs k := rfl

theorem le_rowTop (positive : 0 ≤ config.verticalGap) (top : Rat) (k : Nat) :
    top ≤ rowTop config top rs k := by
  induction rs generalizing top k with
  | nil => exact le_rfl
  | cons row rs ih =>
      cases k with
      | zero => exact le_rfl
      | succ k =>
          have below := ih (top + (tallest row + config.verticalGap)) k
          have high := tallest_nonneg row
          rw [rowTop_cons_succ]
          linarith

/-- A row ends above the gap over every later row. -/
theorem rowTop_add_le (positive : 0 ≤ config.verticalGap) (top : Rat) {j k : Nat}
    {row : List (Nat × Node Rat)} (found : rs[j]? = some row) (later : j < k) :
    rowTop config top rs j + (tallest row + config.verticalGap) ≤ rowTop config top rs k := by
  induction rs generalizing top j k with
  | nil => simp at found
  | cons first rs ih =>
      obtain ⟨k, rfl⟩ := Nat.exists_eq_add_of_lt later
      cases j with
      | zero =>
          rw [List.getElem?_cons_zero, Option.some.injEq] at found
          subst found
          exact le_rowTop positive _ _
      | succ j =>
          rw [show j + 1 + k + 1 = (j + k + 1) + 1 by omega, rowTop_cons_succ, rowTop_cons_succ]
          exact ih _ found (by omega)

end Stack

section Arranged
variable {config : Config Rat} {levels : Levels} {edges : List Edge} {nodes : List (Node Rat)}
variable {i j k l : Nat} {m n placedM placedN : Node Rat} {row other : List (Nat × Node Rat)}
variable {x y : Rat}

theorem Landed.beside (positive : 0 ≤ config.horizontalGap)
    (sized : ∀ n ∈ nodes, 0 ≤ n.box.width)
    (left : Landed config levels edges nodes i k m row x placedM)
    (right : Landed config levels edges nodes j k n other y placedN) (different : m.id ≠ n.id) :
    placedM.box.right + config.horizontalGap ≤ placedN.box.x ∨
      placedN.box.right + config.horizontalGap ≤ placedM.box.x := by
  obtain rfl := Option.some.inj (left.foundRow.symm.trans right.foundRow)
  have wide : ∀ p ∈ row, 0 ≤ p.2.box.width := by
    intro p inRow
    obtain ⟨level, rfl⟩ := mem_rows (List.mem_of_getElem? left.foundRow)
    exact sized p.2 (List.mem_of_getElem? (mem_rowAt.mp inRow).1)
  have apart : (packed config levels edges nodes row).Pairwise fun p q =>
      p.2.2 + p.1.2.box.width + config.horizontalGap ≤ q.2.2 :=
    packRow_pairwise positive wide none
  have distinct : ((i, m), (i, x)) ≠ ((j, n), (j, y)) := by
    intro same
    exact different (congrArg (fun p => p.1.2.id) same)
  rw [left.moved, right.moved]
  exact pairwise_or apart left.inRow right.inRow distinct

theorem Landed.above (positive : 0 ≤ config.verticalGap)
    (high : Landed config levels edges nodes i k m row x placedM)
    (low : Landed config levels edges nodes j l n other y placedN) (later : k < l) :
    placedM.box.bottom + config.verticalGap ≤ placedN.box.y := by
  have apart := rowTop_add_le positive config.topMargin high.foundRow later
  have fits := height_le_tallest high.mem_row
  rw [high.moved, low.moved]
  change rowTop config config.topMargin (treeRows config levels edges nodes) k + m.box.height +
    config.verticalGap ≤ rowTop config config.topMargin (treeRows config levels edges nodes) l
  change m.box.height ≤ tallest row at fits
  linarith

theorem place_above (positive : 0 ≤ config.verticalGap)
    (memberM : m ∈ place config levels edges nodes) (memberN : n ∈ place config levels edges nodes)
    (lower : levels.get m.id < levels.get n.id) :
    m.box.bottom + config.verticalGap ≤ n.box.y := by
  obtain ⟨i, k, source, row, x, high⟩ := landed_of_mem _ _ _ _ memberM
  obtain ⟨j, l, target, other, y, low⟩ := landed_of_mem _ _ _ _ memberN
  exact high.above positive low ((high.level_lt_iff low).mp lower)

theorem Landed.row_eq (left : Landed config levels edges nodes i k m row x placedM)
    (right : Landed config levels edges nodes j l n other y placedN)
    (same : levels.get placedM.id = levels.get placedN.id) : k = l := by
  have before := left.level_lt_iff right
  have after := right.level_lt_iff left
  omega

theorem place_level (memberM : m ∈ place config levels edges nodes)
    (memberN : n ∈ place config levels edges nodes) (same : levels.get m.id = levels.get n.id) :
    m.box.y = n.box.y := by
  obtain ⟨i, k, source, row, x, left⟩ := landed_of_mem _ _ _ _ memberM
  obtain ⟨j, l, target, other, y, right⟩ := landed_of_mem _ _ _ _ memberN
  rw [left.moved, right.moved, left.row_eq right same]
  rfl

theorem place_beside (positive : 0 ≤ config.horizontalGap) (sized : ∀ n ∈ nodes, 0 ≤ n.box.width)
    (memberM : m ∈ place config levels edges nodes) (memberN : n ∈ place config levels edges nodes)
    (different : m.id ≠ n.id) (same : levels.get m.id = levels.get n.id) :
    m.box.y = n.box.y ∧ (m.box.right + config.horizontalGap ≤ n.box.x ∨
      n.box.right + config.horizontalGap ≤ m.box.x) := by
  obtain ⟨i, k, source, row, x, left⟩ := landed_of_mem _ _ _ _ memberM
  obtain ⟨j, l, target, other, y, right⟩ := landed_of_mem _ _ _ _ memberN
  obtain rfl := left.row_eq right same
  refine ⟨place_level memberM memberN same, left.beside positive sized right ?_⟩
  rwa [left.id_eq, right.id_eq] at different

theorem place_disjoint (horizontal : 0 ≤ config.horizontalGap) (vertical : 0 ≤ config.verticalGap)
    (sized : ∀ n ∈ nodes, 0 ≤ n.box.width) (memberM : m ∈ place config levels edges nodes)
    (memberN : n ∈ place config levels edges nodes) (different : m.id ≠ n.id) :
    ¬ m.box.Overlaps n.box := by
  rintro ⟨left, right, top, bottom⟩
  rcases Nat.lt_trichotomy (levels.get m.id) (levels.get n.id) with lower | same | higher
  · have apart := place_above vertical memberM memberN lower
    linarith
  · have apart := (place_beside horizontal sized memberM memberN different same).2
    rcases apart with before | after <;> linarith
  · have apart := place_above vertical memberN memberM higher
    linarith

/-- Levels rise along forward connections, and so these lead to later rows. -/
theorem place_below (positive : 0 ≤ config.verticalGap)
    (longest : LongestPaths (nodes.map (·.id)) edges levels) {e : Edge} (present : e ∈ edges)
    (forward : e.back = false) (memberM : m ∈ place config levels edges nodes)
    (memberN : n ∈ place config levels edges nodes) (leaves : m.id = e.source)
    (enters : n.id = e.target) : m.box.bottom + config.verticalGap ≤ n.box.y := by
  have ids := place_ids config levels edges nodes
  have source : e.source ∈ nodes.map (·.id) := leaves ▸ ids ▸ List.mem_map_of_mem memberM
  have target : e.target ∈ nodes.map (·.id) := enters ▸ ids ▸ List.mem_map_of_mem memberN
  refine place_above positive memberM memberN ?_
  rw [leaves, enters]
  exact longest.rises e present forward source target

end Arranged

/-- Distances and arrows of an arranged chart. -/
structure Separated (config : Config Rat) (a : Arrangement Rat) : Prop where
  beside : ∀ m ∈ a.diagram.nodes, ∀ n ∈ a.diagram.nodes, m.id ≠ n.id →
    a.levels.get m.id = a.levels.get n.id → m.box.y = n.box.y ∧
      (m.box.right + config.horizontalGap ≤ n.box.x ∨ n.box.right + config.horizontalGap ≤ m.box.x)
  above : ∀ m ∈ a.diagram.nodes, ∀ n ∈ a.diagram.nodes, a.levels.get m.id < a.levels.get n.id →
    m.box.bottom + config.verticalGap ≤ n.box.y
  disjoint : ∀ m ∈ a.diagram.nodes, ∀ n ∈ a.diagram.nodes, m.id ≠ n.id → ¬ m.box.Overlaps n.box
  below : ∀ e ∈ a.diagram.edges, e.back = false → ∀ m ∈ a.diagram.nodes, ∀ n ∈ a.diagram.nodes,
    m.id = e.source → n.id = e.target → m.box.bottom + config.verticalGap ≤ n.box.y
  arrows : ∀ (spread : Rat) (i : Nat) (e : Edge), a.diagram.edges[i]? = some e → e.back = false →
    e.source ∈ a.diagram.nodes.map (·.id) → e.target ∈ a.diagram.nodes.map (·.id) →
      ∃ r : Route Rat, (∀ q, q ∈ Route.all a.diagram spread ∧ q.edge = i ↔ q = r) ∧
        r.back = false ∧ r.heading = .down

/-- Blocks of one level are side by side, levels are above each other, no two blocks overlap, and
arrows of forward connections point down. -/
theorem arrange_separated {config : Config Rat} (horizontal : 0 ≤ config.horizontalGap)
    (vertical : 0 ≤ config.verticalGap) {d : Diagram Rat} (distinct : (d.nodes.map (·.id)).Nodup)
    (sized : ∀ n ∈ d.nodes, 0 ≤ n.box.width) :
    ∃ a, arrange config d = .ok a ∧
      levelsOf (d.nodes.map (·.id)) d.edges = .ok a.levels ∧
      a.diagram.edges = a.levels.mark d.edges ∧
      a.diagram.nodes.map (fun n => (n.id, n.box.width, n.box.height)) =
        d.nodes.map (fun n => (n.id, n.box.width, n.box.height)) ∧
      Separated config a := by
  obtain ⟨levels, found, arranged, longest⟩ := arrange_ends config distinct
  refine ⟨_, arranged, found, rfl, place_sizes _ _ _ _, ?_⟩
  constructor
  case beside =>
    intro m memberM n memberN different same
    exact place_beside horizontal sized memberM memberN different same
  case above =>
    intro m memberM n memberN lower
    exact place_above vertical memberM memberN lower
  case disjoint =>
    intro m memberM n memberN different
    exact place_disjoint horizontal vertical sized memberM memberN different
  case below =>
    intro e present forward m memberM n memberN leaves enters
    exact place_below vertical longest present forward memberM memberN leaves enters
  case arrows =>
    intro spread i e present forward source target
    have ids := place_ids config levels (levels.mark d.edges) d.nodes
    obtain ⟨m, memberM, leaves⟩ := List.mem_map.mp source
    obtain ⟨n, memberN, enters⟩ := List.mem_map.mp target
    obtain ⟨start, finish, bottom, top, routed⟩ :=
      Route.exists_of_forward spread (ids ▸ distinct) present forward memberM memberN leaves enters
    refine ⟨_, routed, rfl, Route.heading_forward ?_⟩
    have apart := place_below vertical longest (List.mem_of_getElem? present) forward memberM
      memberN leaves enters
    rw [bottom, top]
    linarith

/-- A loop of two blocks and a wide block beside one of them. -/
theorem arrange_separated_loop :
    let block : Block := ⟨.process, "step", "[step]", none⟩
    let d : Diagram Rat :=
      ⟨[⟨block, 0, ⟨0, 0, 140, 60⟩, none, none⟩, ⟨block, 1, ⟨0, 0, 60, 60⟩, none, none⟩,
        ⟨block, 5, ⟨0, 0, 300, 90⟩, none, none⟩],
        [⟨0, 1, none, false⟩, ⟨1, 0, some "again", false⟩, ⟨0, 5, none, false⟩]⟩
    0 ≤ (Config.standard : Config Rat).horizontalGap ∧
      0 ≤ (Config.standard : Config Rat).verticalGap ∧ (d.nodes.map (·.id)).Nodup ∧
      (∀ n ∈ d.nodes, 0 ≤ n.box.width) ∧
      ∃ a, arrange Config.standard d = .ok a ∧
        levelsOf (d.nodes.map (·.id)) d.edges = .ok a.levels ∧
        a.diagram.edges = a.levels.mark d.edges ∧
        a.diagram.nodes.map (fun n => (n.id, n.box.width, n.box.height)) =
          d.nodes.map (fun n => (n.id, n.box.width, n.box.height)) ∧
        Separated Config.standard a := by
  intro block d
  have horizontal : 0 ≤ (Config.standard : Config Rat).horizontalGap := by decide
  have vertical : 0 ≤ (Config.standard : Config Rat).verticalGap := by decide
  have distinct : (d.nodes.map (·.id)).Nodup := by decide
  have sized : ∀ n ∈ d.nodes, 0 ≤ n.box.width := by decide
  exact ⟨horizontal, vertical, distinct, sized,
    arrange_separated horizontal vertical distinct sized⟩

end Flowchart.Layout
