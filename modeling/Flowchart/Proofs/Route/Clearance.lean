import Flowchart.Proofs.Layout.Separation
/-! Detours around rows of blocks. A detour looks only at the blocks between its two ends, and its
vertical line is longer than that at both of them. It stays clear all the same: blocks stand in
rows, and no other row is so close that the line could reach it there. -/
namespace Flowchart

namespace Layout

/-- Blocks stand in rows. Any two begin at one height, or one of them ends by the gap above the
other. -/
structure InRows (gap : Rat) (nodes : List (Node Rat)) : Prop where
  upright : ∀ n ∈ nodes, n.box.y ≤ n.box.bottom
  apart : ∀ m ∈ nodes, ∀ n ∈ nodes, m.box.y = n.box.y ∨ m.box.bottom + gap ≤ n.box.y ∨
    n.box.bottom + gap ≤ m.box.y

theorem inRows_place {config : Config Rat} (positive : 0 ≤ config.verticalGap) (levels : Levels)
    (edges : List Edge) {nodes : List (Node Rat)} (high : ∀ n ∈ nodes, 0 ≤ n.box.height) :
    InRows config.verticalGap (place config levels edges nodes) := by
  constructor
  case upright =>
    intro placed member
    obtain ⟨i, k, n, row, x, landed⟩ := landed_of_mem _ _ _ _ member
    rw [landed.moved]
    exact le_add_of_nonneg_right (high n (List.mem_of_getElem? landed.found))
  case apart =>
    intro m memberM n memberN
    rcases Nat.lt_trichotomy (levels.get m.id) (levels.get n.id) with lower | same | higher
    · exact .inr (.inl (place_above positive memberM memberN lower))
    · exact .inl (place_level memberM memberN same)
    · exact .inr (.inr (place_above positive memberN memberM higher))

end Layout

namespace Route
open Layout

section Passing
variable {gap : Rat} {nodes : List (Node Rat)} {m n b : Node Rat}

/-- What begins above the line below a block begins above the end of the block. -/
theorem y_le_of_above (rows : InRows gap nodes) (wide : detourDrop < gap)
    (source : m ∈ nodes) (member : b ∈ nodes)
    (above : b.box.y ≤ m.box.bottom + detourDrop) : b.box.y ≤ m.box.bottom := by
  have own := rows.upright m source
  have other := rows.upright b member
  have drop : (0 : Rat) ≤ detourDrop := by decide
  rcases rows.apart m source b member with same | lower | higher <;> linarith

/-- What ends below the line above a block ends below the top of the block. -/
theorem le_bottom_of_below (rows : InRows gap nodes) (wide : detourEntry < gap)
    (target : n ∈ nodes) (member : b ∈ nodes)
    (below : n.box.y - detourEntry ≤ b.box.bottom) : n.box.y ≤ b.box.bottom := by
  have own := rows.upright n target
  have other := rows.upright b member
  have entry : (0 : Rat) ≤ detourEntry := by decide
  rcases rows.apart n target b member with same | lower | higher <;> linarith

/-- A block beside the vertical line of a detour is one that the detour looked at. -/
theorem mem_passed (rows : InRows gap nodes) (wide : detourDrop < gap) (source : m ∈ nodes)
    (target : n ∈ nodes) (member : b ∈ nodes)
    (below : min (m.box.bottom + detourDrop) (n.box.y - detourEntry) ≤ b.box.bottom)
    (above : b.box.y ≤ max (m.box.bottom + detourDrop) (n.box.y - detourEntry))
    {start finish : Point Rat} (leaves : start.y = m.box.bottom) (enters : finish.y = n.box.y) :
    b ∈ passed nodes start finish := by
  have less : (detourEntry : Rat) < detourDrop := by decide
  have drop : (0 : Rat) ≤ detourDrop := by decide
  have entry : (0 : Rat) ≤ detourEntry := by decide
  refine List.mem_filter.mpr ⟨member, ?_⟩
  rw [leaves, enters, Bool.and_eq_true, decide_eq_true_eq, decide_eq_true_eq]
  constructor
  · rcases min_le_iff.mp below with first | second
    · exact min_le_iff.mpr (.inl (by linarith))
    · have ends := le_bottom_of_below rows (less.trans wide) target member second
      exact min_le_iff.mpr (.inr ends)
  · rcases le_max_iff.mp above with first | second
    · exact le_max_iff.mpr (.inl (y_le_of_above rows wide source member first))
    · exact le_max_iff.mpr (.inr (by linarith))

end Passing

/-- A detour from below one block to above another, with every block beside its vertical line to the
right of that. -/
structure Clear (nodes : List (Node Rat)) (m n : Node Rat) (r : Route Rat) (left : Rat) : Prop where
  starts : r.start.y = m.box.bottom
  finishes : r.finish.y = n.box.y
  shape : r.shape = .orthogonal [⟨r.start.x, m.box.bottom + 20⟩, ⟨left, m.box.bottom + 20⟩,
    ⟨left, n.box.y - 12⟩, ⟨r.finish.x, n.box.y - 12⟩]
  clear : ∀ b ∈ nodes, min (m.box.bottom + 20) (n.box.y - 12) ≤ b.box.bottom →
    b.box.y ≤ max (m.box.bottom + 20) (n.box.y - 12) → left + 40 ≤ b.box.x

theorem clear_detour {gap : Rat} {nodes : List (Node Rat)} (rows : InRows gap nodes)
    (wide : 20 < gap) {m n : Node Rat} (source : m ∈ nodes) (target : n ∈ nodes) (edge : Nat)
    {start finish : Point Rat} (leaves : start.y = m.box.bottom) (enters : finish.y = n.box.y) :
    Clear nodes m n (detour nodes edge start finish) (detourLeft nodes edge start finish) := by
  constructor
  case starts => exact leaves
  case finishes => exact enters
  case shape =>
    rw [← leaves, ← enters]
    rfl
  case clear =>
    intro b member below above
    have inside := mem_passed rows wide source target member below above leaves enters
    have left := @detourLeft_le_passed nodes edge start finish b inside
    have reach : (40 : Rat) ≤ detourReach edge := detourMargin_le edge
    linarith

/-- The detours of an arranged chart. -/
structure Detours (d : Diagram Rat) (spread : Rat) : Prop where
  drawn : ∀ i e, d.edges[i]? = some e → e.back = true → ∀ m ∈ d.nodes, ∀ n ∈ d.nodes,
    m.id = e.source → n.id = e.target → ∃ r ∈ all d spread, r.edge = i ∧ r.back = true
  clear : ∀ r ∈ all d spread, r.back = true → ∃ e m n left, d.edges[r.edge]? = some e ∧
    e.back = true ∧ m ∈ d.nodes ∧ n ∈ d.nodes ∧ m.id = e.source ∧ n.id = e.target ∧
    Clear d.nodes m n r left

theorem detours_of_rows {d : Diagram Rat} (distinct : (d.nodes.map (·.id)).Nodup) {gap : Rat}
    (rows : InRows gap d.nodes) (wide : 20 < gap) (spread : Rat) : Detours d spread := by
  constructor
  case drawn =>
    intro i e present back m source n target leaves enters
    refine ⟨between d spread i e m n, (mem_all spread distinct).mpr ?_, edge_between .., ?_⟩
    · exact ⟨i, e, m, n, present, source, target, leaves, enters, rfl⟩
    · rw [back_between, back]
  case clear =>
    intro r drawn back
    obtain ⟨i, e, m, n, present, source, target, leaves, enters, rfl⟩ :=
      (mem_all spread distinct).mp drawn
    rw [back_between] at back
    rw [edge_between]
    have shape : between d spread i e m n =
        detour d.nodes i (startOf d spread i m) (finishOf d spread i n) := if_pos back
    have clear : Clear d.nodes m n
        (detour d.nodes i (startOf d spread i m) (finishOf d spread i n)) _ :=
      clear_detour rows wide source target i rfl rfl
    exact ⟨e, m, n, _, present, back, source, target, leaves, enters, shape ▸ clear⟩

/-- Detours stay clear of the blocks that they pass, wherever their ends are: above or below, in one
row or at one block. The gap between rows has to be more than the drop below a source. -/
theorem arrange_clear {config : Config Rat} (vertical : 20 < config.verticalGap)
    {d : Diagram Rat} (distinct : (d.nodes.map (·.id)).Nodup)
    (high : ∀ n ∈ d.nodes, 0 ≤ n.box.height) :
    ∃ a, arrange config d = .ok a ∧ ∀ spread, Detours a.diagram spread := by
  obtain ⟨levels, -, arranged, -⟩ := arrange_ends config distinct
  refine ⟨_, arranged, detours_of_rows ?_ (inRows_place ?_ levels _ high) vertical⟩
  · rwa [place_ids]
  · linarith

/-- A loop of two blocks, a loop of one, and a wide block that is referred back to. -/
theorem arrange_clear_loops :
    let block : Block := ⟨.process, "step", "[step]", none⟩
    let d : Diagram Rat :=
      ⟨[⟨block, 0, ⟨0, 0, 140, 60⟩, none, none⟩, ⟨block, 1, ⟨0, 0, 60, 60⟩, none, none⟩,
        ⟨block, 5, ⟨0, 0, 300, 90⟩, none, none⟩],
        [⟨0, 1, none, false⟩, ⟨1, 0, some "again", false⟩, ⟨1, 1, none, false⟩,
          ⟨0, 5, none, true⟩]⟩
    20 < (Config.standard : Config Rat).verticalGap ∧ (d.nodes.map (·.id)).Nodup ∧
      (∀ n ∈ d.nodes, 0 ≤ n.box.height) ∧
      ∃ a, arrange Config.standard d = .ok a ∧ ∀ spread, Detours a.diagram spread := by
  intro block d
  have vertical : 20 < (Config.standard : Config Rat).verticalGap := by decide
  have distinct : (d.nodes.map (·.id)).Nodup := by decide
  have high : ∀ n ∈ d.nodes, 0 ≤ n.box.height := by decide
  exact ⟨vertical, distinct, high, arrange_clear vertical distinct high⟩

end Route
end Flowchart
