import Flowchart.Picture
import Flowchart.Proofs.Box
import Flowchart.Proofs.Fan
import Flowchart.Proofs.Layout.Separation
import Flowchart.Proofs.Script.Chart
/-! How much of its connections a drawing shows. Its area is that of the blocks with some space
around, and routes never leave it upwards or downwards. They leave it to the side where many
connections share a block, or where a detour goes around the leftmost block far enough. -/
namespace Flowchart
open Drawing (area)

namespace Layout

theorem blockWidth_nonneg (labelWidth : Rat) : 0 ≤ blockWidth .standard labelWidth := by
  rw [blockWidth, least_eq_min, greatest_eq_max]
  exact le_min (le_max_of_le_right (by decide)) (by decide)

/-- Blocks are never measured as less than nothing. -/
theorem measureNode_nonneg (n : Node Rat) :
    0 ≤ (measureNode .standard n).1 ∧ 0 ≤ (measureNode .standard n).2 := by
  have atLeast (least size : Rat) (sized : 0 ≤ least) : 0 ≤ greatest least size := by
    rw [greatest_eq_max]
    exact le_max_of_le_left sized
  unfold measureNode
  cases n.shape with
  | connector => constructor <;> (change (0 : Rat) ≤ 16 * 2; decide +kernel)
  | decision =>
      have wide (side : Rat) := atLeast (Config.standard : Config Rat).decisionSize side (by decide)
      exact ⟨wide _, mul_nonneg (wide _) (by decide +kernel)⟩
  | subBlock =>
      refine ⟨?_, by change (0 : Rat) ≤ 100; decide⟩
      simp only [compositeWidth, greatest_eq_max, le_max_iff]
      exact .inl (.inl (.inl (.inl (by decide))))
  | terminatorStart => exact ⟨blockWidth_nonneg _, by change (0 : Rat) ≤ 46; decide⟩
  | terminatorEnd => exact ⟨blockWidth_nonneg _, by change (0 : Rat) ≤ 46; decide⟩
  | terminator => exact ⟨blockWidth_nonneg _, atLeast _ _ (by decide)⟩
  | process => exact ⟨blockWidth_nonneg _, atLeast _ _ (by decide)⟩
  | io => exact ⟨add_nonneg (blockWidth_nonneg _) (by decide +kernel), atLeast _ _ (by decide)⟩

end Layout

namespace Route

section Shapes
variable {edge : Nat} {start finish : Point Rat}

theorem forward_controls :
    (forward edge start finish).controls = [start, finish] ∨
      ∃ reach, (forward edge start finish).controls =
          [start, ⟨start.x, start.y + reach⟩, ⟨finish.x, finish.y - reach⟩, finish] ∧
        (start.y + 40 ≤ finish.y → 0 ≤ reach ∧ reach ≤ finish.y - start.y) := by
  by_cases near : magnitude (finish.x - start.x) < straightBelow
  · left
    simp only [forward, controls, if_pos near]
  · right
    refine ⟨_, by simp only [forward, controls, if_neg near]; rfl, ?_⟩
    intro down
    have falls : ¬ finish.y - start.y < 0 := by linarith
    rw [if_neg falls, greatest_eq_max]
    constructor
    · exact le_max_of_le_left (by decide)
    · refine max_le ?_ (by linarith)
      change (40 : Rat) ≤ _
      linarith

theorem detour_controls (nodes : List (Node Rat)) :
    (detour nodes edge start finish).controls =
      [start, ⟨start.x, start.y + 20⟩, ⟨detourLeft nodes edge start finish, start.y + 20⟩,
        ⟨detourLeft nodes edge start finish, finish.y - 12⟩, ⟨finish.x, finish.y - 12⟩, finish] :=
  rfl

end Shapes

section Fits
variable {style : Drawing.Style Rat} {s : Scene Rat} {bounds : Box Rat} {i : Nat} {e : Edge}
  {m n : Node Rat}

/-- How far to the left of what it passes a connection goes. -/
def around (e : Edge) (i : Nat) : Rat := if e.back then detourReach i else 0

theorem around_nonneg (e : Edge) (i : Nat) : 0 ≤ around e i := by
  unfold around
  split
  · exact detourReach_nonneg i
  · exact le_rfl

/-- The anchors on this side of the block, and what goes around it from there, find room between
the middle of the block and the border of the drawing. -/
def Roomy (style : Drawing.Style Rat) (d : Diagram Rat) (side : Fan.Side) (i : Nat) (e : Edge)
    (n : Node Rat) : Prop :=
  Fan.reach style.fanSpread (Fan.crowd d side e) + around e i ≤ n.box.width / 2 + style.padding

/-- Where the route of a connection runs in the area of a drawing. -/
structure Runs (style : Drawing.Style Rat) (s : Scene Rat) (i : Nat) (e : Edge) (m n : Node Rat)
    (r : Route Rat) : Prop where
  /-- It does not leave the drawing upwards or downwards. -/
  heights : ∀ p ∈ r.polyline,
    (area style s .document).y ≤ p.y ∧ p.y ≤ (area style s .document).bottom
  inside_iff : (∀ p ∈ r.polyline, (area style s .document).contains p = true) ↔
    (area style s .document).Abreast r.start ∧ (area style s .document).Abreast r.finish ∧
      (e.back = true →
        (area style s .document).x ≤ detourLeft s.diagram.nodes i r.start r.finish)
  inside : around e i ≤ style.padding → Roomy style s.diagram .source i e m →
    Roomy style s.diagram .target i e n →
      ∀ p ∈ r.polyline, (area style s .document).contains p = true

/-- What is assumed about two connected blocks. -/
structure Joined (s : Scene Rat) (bounds : Box Rat) (i : Nat) (e : Edge) (m n : Node Rat) :
    Prop where
  bounded : s.diagram.bounds? = some bounds
  present : s.diagram.edges[i]? = some e
  source : m ∈ s.diagram.nodes
  target : n ∈ s.diagram.nodes
  sized : 0 ≤ m.box.height ∧ 0 ≤ n.box.height
  below : e.back = false → m.box.bottom + 40 ≤ n.box.y

/-- A route is within two vertical lines if its ends are and its detour is. -/
theorem between_controls_x (spread : Rat) {low high : Rat}
    (start : low ≤ (startOf s.diagram spread i m).x ∧ (startOf s.diagram spread i m).x ≤ high)
    (finish : low ≤ (finishOf s.diagram spread i n).x ∧ (finishOf s.diagram spread i n).x ≤ high)
    (left : e.back = true → low ≤ detourLeft s.diagram.nodes i (startOf s.diagram spread i m)
      (finishOf s.diagram spread i n)) :
    ∀ c ∈ (between s.diagram spread i e m n).controls, low ≤ c.x ∧ c.x ≤ high := by
  cases back : e.back with
  | true =>
      have left := left back
      have right := @detourLeft_le_start s.diagram.nodes i (startOf s.diagram spread i m)
        (finishOf s.diagram spread i n)
      have reach := detourReach_nonneg i
      rw [between, if_pos back, detour_controls]
      simp only [List.forall_mem_cons]
      refine ⟨start, start, ⟨left, ?_⟩, ⟨left, ?_⟩, finish, finish, List.forall_mem_nil _⟩
        <;> linarith
  | false =>
      rw [between, if_neg (by simp [back])]
      obtain straight | ⟨reach, curve, -⟩ := @forward_controls i
        (startOf s.diagram spread i m) (finishOf s.diagram spread i n)
      · rw [straight]
        simp only [List.forall_mem_cons]
        exact ⟨start, finish, List.forall_mem_nil _⟩
      · rw [curve]
        simp only [List.forall_mem_cons]
        exact ⟨start, start, finish, finish, List.forall_mem_nil _⟩

theorem corner_mem_polyline (d : Diagram Rat) (spread : Rat) (back : e.back = true) :
    ⟨detourLeft d.nodes i (startOf d spread i m) (finishOf d spread i n),
      (startOf d spread i m).y + detourDrop⟩ ∈ (between d spread i e m n).polyline := by
  rw [between, if_pos back]
  exact .tail _ (.tail _ (.head _))

section Joined
variable (joined : Joined s bounds i e m n)
include joined

theorem Joined.area_eq : area style s .document = bounds.inflate style.padding := by
  rw [area, joined.bounded]

theorem Joined.start_y (spread : Rat) : bounds.y ≤ (startOf s.diagram spread i m).y ∧
    (startOf s.diagram spread i m).y ≤ bounds.bottom := by
  have within := s.diagram.within_bounds joined.bounded joined.source
  have tall : m.box.y ≤ m.box.bottom := le_add_of_nonneg_right joined.sized.1
  exact ⟨within.top.trans tall, within.bottom⟩

theorem Joined.finish_y (spread : Rat) : bounds.y ≤ (finishOf s.diagram spread i n).y ∧
    (finishOf s.diagram spread i n).y ≤ bounds.bottom := by
  have within := s.diagram.within_bounds joined.bounded joined.target
  have tall : n.box.y ≤ n.box.bottom := le_add_of_nonneg_right joined.sized.2
  exact ⟨within.top, tall.trans within.bottom⟩

/-- No point that shapes the route is much above or below the blocks. -/
theorem Joined.controls_y (spread : Rat) : ∀ c ∈ (between s.diagram spread i e m n).controls,
    bounds.y - 20 ≤ c.y ∧ c.y ≤ bounds.bottom + 20 := by
  obtain ⟨startTop, startBottom⟩ := joined.start_y spread
  obtain ⟨finishTop, finishBottom⟩ := joined.finish_y spread
  cases back : e.back with
  | true =>
      rw [between, if_pos back, detour_controls]
      simp only [List.forall_mem_cons]
      refine ⟨?_, ?_, ?_, ?_, ?_, ?_, List.forall_mem_nil _⟩ <;> constructor <;> linarith
  | false =>
      have falls : (startOf s.diagram spread i m).y + 40 ≤ (finishOf s.diagram spread i n).y :=
        joined.below back
      rw [between, if_neg (by simp [back])]
      obtain straight | ⟨reach, curve, bent⟩ := @forward_controls i
        (startOf s.diagram spread i m) (finishOf s.diagram spread i n)
      · rw [straight]
        simp only [List.forall_mem_cons]
        refine ⟨?_, ?_, List.forall_mem_nil _⟩ <;> constructor <;> linarith
      · obtain ⟨some, short⟩ := bent falls
        rw [curve]
        simp only [List.forall_mem_cons]
        refine ⟨?_, ?_, ?_, ?_, List.forall_mem_nil _⟩ <;> constructor <;> linarith

/-- The anchors of a connection with enough room are in the drawing, as far from its border as the
detour needs. -/
theorem Joined.anchors_x (wide : 0 ≤ style.fanSpread)
    (source : Roomy style s.diagram .source i e m) (target : Roomy style s.diagram .target i e n) :
    (bounds.x - style.padding + around e i ≤ (startOf s.diagram style.fanSpread i m).x ∧
      (startOf s.diagram style.fanSpread i m).x ≤ bounds.right + style.padding) ∧
    bounds.x - style.padding + around e i ≤ (finishOf s.diagram style.fanSpread i n).x ∧
      (finishOf s.diagram style.fanSpread i n).x ≤ bounds.right + style.padding := by
  have anchor (side : Fan.Side) (k : Node Rat) (member : k ∈ s.diagram.nodes)
      (roomy : Roomy style s.diagram side i e k) (offset : Rat)
      (low : -Fan.reach style.fanSpread (Fan.crowd s.diagram side e) ≤ offset)
      (high : offset ≤ Fan.reach style.fanSpread (Fan.crowd s.diagram side e)) :
      bounds.x - style.padding + around e i ≤ k.center.x + offset ∧
        k.center.x + offset ≤ bounds.right + style.padding := by
    have within := s.diagram.within_bounds joined.bounded member
    have left := within.left
    have right : k.box.x + k.box.width ≤ bounds.right := within.right
    have some := around_nonneg e i
    change bounds.x - style.padding + around e i ≤ k.box.x + k.box.width / 2 + offset ∧
      k.box.x + k.box.width / 2 + offset ≤ bounds.right + style.padding
    unfold Roomy at roomy
    constructor <;> linarith
  have leaves := @Fan.lookup_between s.diagram .source style.fanSpread i e wide joined.present
  have enters := @Fan.lookup_between s.diagram .target style.fanSpread i e wide joined.present
  exact ⟨anchor .source m joined.source source _ leaves.1 leaves.2,
    anchor .target n joined.target target _ enters.1 enters.2⟩

theorem Joined.runs (wide : 0 ≤ style.fanSpread) (padded : 20 ≤ style.padding) :
    Runs style s i e m n (between s.diagram style.fanSpread i e m n) := by
  have heights : ∀ p ∈ (between s.diagram style.fanSpread i e m n).polyline,
      (area style s .document).y ≤ p.y ∧ p.y ≤ (area style s .document).bottom := by
    rw [joined.area_eq, Box.bottom_inflate]
    refine @polyline_between _ .y _ _ ?_
    intro c member
    obtain ⟨low, high⟩ := joined.controls_y style.fanSpread c member
    exact ⟨(sub_le_sub_left padded _).trans low, high.trans (add_le_add_right padded _)⟩
  have inside (start : (area style s .document).Abreast (startOf s.diagram style.fanSpread i m))
      (finish : (area style s .document).Abreast (finishOf s.diagram style.fanSpread i n))
      (left : e.back = true → (area style s .document).x ≤ detourLeft s.diagram.nodes i
        (startOf s.diagram style.fanSpread i m) (finishOf s.diagram style.fanSpread i n)) :
      ∀ p ∈ (between s.diagram style.fanSpread i e m n).polyline,
        (area style s .document).contains p = true := by
    intro p member
    refine Box.contains_iff.mpr ⟨?_, heights p member⟩
    exact @polyline_between _ .x _ _ (between_controls_x _ start finish left) p member
  refine ⟨heights, ⟨?_, ?_⟩, ?_⟩
  · intro contained
    rw [start_between, finish_between]
    refine ⟨?_, ?_, ?_⟩
    · have first := (Box.contains_iff.mp (contained _ (start_mem_polyline _))).1
      rwa [start_between] at first
    · have last := (Box.contains_iff.mp (contained _ (finish_mem_polyline _))).1
      rwa [finish_between] at last
    · intro back
      exact (Box.contains_iff.mp (contained _ (corner_mem_polyline _ _ back))).1.1
  · rintro ⟨start, finish, left⟩
    rw [start_between] at start left
    rw [finish_between] at finish left
    exact inside start finish left
  · intro short source target
    obtain ⟨⟨startLeft, startRight⟩, finishLeft, finishRight⟩ :=
      joined.anchors_x wide source target
    have some := around_nonneg e i
    rw [joined.area_eq] at inside ⊢
    rw [Box.Abreast, Box.Abreast, Box.right_inflate] at inside
    refine inside ⟨(le_add_of_nonneg_right some).trans startLeft, startRight⟩
      ⟨(le_add_of_nonneg_right some).trans finishLeft, finishRight⟩ ?_
    intro back
    have reach : around e i = detourReach i := if_pos back
    have left := @le_detourLeft s.diagram.nodes i _ _ _ startLeft finishLeft ?_
    · rwa [reach, add_sub_cancel_right] at left
    · intro k member
      have within := (s.diagram.within_bounds joined.bounded member).left
      linarith

/-- A detour that passes the leftmost block leaves the drawing if it goes further around than there
is space. -/
theorem Joined.exists_outside (back : e.back = true) (far : style.padding < detourReach i)
    {k : Node Rat} (leftmost : k.box.x = bounds.x)
    (passes : k ∈ passed s.diagram.nodes (startOf s.diagram style.fanSpread i m)
      (finishOf s.diagram style.fanSpread i n)) :
    ∃ p ∈ (between s.diagram style.fanSpread i e m n).polyline,
      (area style s .document).contains p = false := by
  refine ⟨_, corner_mem_polyline _ _ back, ?_⟩
  have left := @detourLeft_le_passed _ i _ _ _ passes
  rw [Bool.eq_false_iff, Ne, Box.contains_iff, joined.area_eq]
  rintro ⟨⟨inside, -⟩, -⟩
  change bounds.x - style.padding ≤ detourLeft _ i _ _ at inside
  linarith

end Joined

end Fits

end Route

namespace Picture
open Route (Runs Joined between)

/-- The scene of a chart: its blocks, sized and placed, and its connections, some of them marked as
back-references. -/
structure Laid (source : String) (s : Scene Rat) : Prop where
  ids : s.diagram.nodes.map (·.id) = List.range (Script.parse source).blocks.length
  edges : ∃ levels : Layout.Levels, s.diagram.edges = levels.mark (Script.parse source).edges
  sized : ∀ n ∈ s.diagram.nodes, 0 ≤ n.box.width ∧ 0 ≤ n.box.height
  below : ∀ e ∈ s.diagram.edges, e.back = false → ∀ m ∈ s.diagram.nodes, ∀ n ∈ s.diagram.nodes,
    m.id = e.source → n.id = e.target → m.box.bottom + 60 ≤ n.box.y

theorem exists_scene {source : String} (some : (Script.parse source).blocks ≠ []) :
    ∃ s, scene (.standard : Layout.Config Rat) source = .ok (s, (Script.parse source).diagnostics) ∧
      Laid source s := by
  let d : Diagram Rat := Layout.measureAll .standard (Script.parse source).diagram
  have formed : ((Script.parse source).diagram : Diagram Rat).WellFormed :=
    Script.diagram_wellFormed source
  have ids : d.nodes.map (·.id) = List.range (Script.parse source).blocks.length := by
    rw [← Script.Chart.ids_nodes (α := Rat)]
    exact List.map_map
  have distinct : (d.nodes.map (·.id)).Nodup := ids ▸ List.nodup_range
  obtain ⟨levels, -, arranged, longest⟩ := Layout.arrange_ends .standard distinct
  have sizes := Layout.place_sizes .standard levels (levels.mark d.edges) d.nodes
  refine ⟨{ diagram := ⟨Layout.place .standard levels (levels.mark d.edges) d.nodes,
    levels.mark d.edges⟩ }, ?_, ?_⟩
  · have blocks : (Script.parse source).blocks.isEmpty = false := by simpa using some
    simp only [scene, blocks, Bool.false_eq_true, if_false, formed.ofDiagram_eq, Layout.layout]
    rw [arranged]
  · constructor
    case ids => exact (Layout.place_ids ..).trans ids
    case edges => exact ⟨levels, rfl⟩
    case sized =>
      intro n member
      have placed := List.mem_map_of_mem (f := fun n => (n.id, n.box.width, n.box.height)) member
      rw [sizes] at placed
      obtain ⟨k, measured, same⟩ := List.mem_map.mp placed
      obtain ⟨raw, -, rfl⟩ := List.mem_map.mp measured
      obtain ⟨width, height⟩ := Prod.mk.inj (Prod.mk.inj same).2
      obtain ⟨wide, tall⟩ := Layout.measureNode_nonneg raw
      exact ⟨width ▸ wide, height ▸ tall⟩
    case below =>
      intro e present forward m memberM n memberN leaves enters
      exact Layout.place_below (by decide) longest present forward memberM memberN leaves enters

theorem Laid.distinct {source : String} {s : Scene Rat} (laid : Laid source s) :
    (s.diagram.nodes.map (·.id)).Nodup := laid.ids ▸ List.nodup_range

/-- Two connected blocks of a chart are as routes need them. -/
theorem Laid.joined {source : String} {s : Scene Rat} (laid : Laid source s) {i : Nat} {e : Edge}
    {m n : Node Rat} (present : s.diagram.edges[i]? = some e) (source : m ∈ s.diagram.nodes)
    (target : n ∈ s.diagram.nodes) (leaves : m.id = e.source) (enters : n.id = e.target) :
    ∃ bounds, Joined s bounds i e m n := by
  obtain ⟨bounds, bounded⟩ : ∃ bounds, s.diagram.bounds? = some bounds := by
    unfold Diagram.bounds?
    split
    · next none => exact absurd (none ▸ source) List.not_mem_nil
    · exact ⟨_, rfl⟩
  refine ⟨bounds, bounded, present, source, target,
    ⟨(laid.sized m source).2, (laid.sized n target).2⟩, ?_⟩
  intro forward
  have below := laid.below e (List.mem_of_getElem? present) forward m source n target leaves enters
  linarith

/-- Every chart with a block can be drawn. No route leaves the drawing upwards or downwards, and
none does to the side unless one of its ends does or its detour goes around the leftmost block too
far, which needs a crowd at a block or a late back-reference. -/
theorem scene_runs {source : String} (some : (Script.parse source).blocks ≠ []) :
    ∃ s, scene (.standard : Layout.Config Rat) source = .ok (s, (Script.parse source).diagnostics) ∧
      ∀ r ∈ Route.all s.diagram (Drawing.Style.standard : Drawing.Style Rat).fanSpread,
        ∃ e m n, s.edge? r.edge = .some e ∧ m ∈ s.diagram.nodes ∧ n ∈ s.diagram.nodes ∧
          m.id = e.source ∧ n.id = e.target ∧ Runs .standard s r.edge e m n r := by
  obtain ⟨s, drawn, laid⟩ := exists_scene some
  refine ⟨s, drawn, ?_⟩
  intro r member
  obtain ⟨i, e, m, n, present, source, target, leaves, enters, rfl⟩ :=
    (Route.mem_all _ laid.distinct).mp member
  obtain ⟨bounds, joined⟩ := laid.joined present source target leaves enters
  rw [Route.edge_between]
  exact ⟨e, m, n, present, source, target, leaves, enters, joined.runs (by decide) (by decide)⟩

theorem scene_runs_return :
    (Script.parse "ts()\nte()\n...\nts()\na>\nte()\na>!ts()").blocks ≠ [] ∧
      ∃ s, scene (.standard : Layout.Config Rat) "ts()\nte()\n...\nts()\na>\nte()\na>!ts()" =
          .ok (s, []) ∧
        ∀ r ∈ Route.all s.diagram (Drawing.Style.standard : Drawing.Style Rat).fanSpread,
          ∃ e m n, s.edge? r.edge = .some e ∧ m ∈ s.diagram.nodes ∧ n ∈ s.diagram.nodes ∧
            m.id = e.source ∧ n.id = e.target ∧ Runs .standard s r.edge e m n r := by
  have some : (Script.parse "ts()\nte()\n...\nts()\na>\nte()\na>!ts()").blocks ≠ [] := by
    decide +kernel
  have clean : (Script.parse "ts()\nte()\n...\nts()\na>\nte()\na>!ts()").diagnostics = [] := by
    decide +kernel
  exact ⟨some, clean ▸ scene_runs some⟩

/-- The third of three loops goes around its block out of the drawing. -/
theorem scene_runs_outside_loops :
    ∃ s, scene (.standard : Layout.Config Rat)
        "ts()\n...\nts()\na*x*>!ts()\nts()\na*y*>!ts()\nts()\na>!ts()" = .ok (s, []) ∧
      ∃ r ∈ Route.all s.diagram (Drawing.Style.standard : Drawing.Style Rat).fanSpread,
        ∃ p ∈ r.polyline,
          (area (.standard : Drawing.Style Rat) s .document).contains p = false := by
  let source := "ts()\n...\nts()\na*x*>!ts()\nts()\na*y*>!ts()\nts()\na>!ts()"
  have one : (Script.parse source).blocks.length = 1 := by decide +kernel
  have loops : (Script.parse source).edges = [⟨0, 0, some "x", true⟩, ⟨0, 0, some "y", true⟩,
    ⟨0, 0, none, true⟩] := by decide +kernel
  have clean : (Script.parse source).diagnostics = [] := by decide +kernel
  obtain ⟨s, drawn, laid⟩ := @exists_scene source (by decide +kernel)
  refine ⟨s, clean ▸ drawn, ?_⟩
  obtain ⟨levels, marked⟩ := laid.edges
  have present : s.diagram.edges[2]? = some ⟨0, 0, none, true⟩ := by
    rw [marked, loops]
    simp [Layout.Levels.mark]
  obtain ⟨n, single, zero⟩ : ∃ n, s.diagram.nodes = [n] ∧ n.id = 0 := by
    have ids := laid.ids
    rw [one] at ids
    exact List.map_eq_singleton_iff.mp ids
  have member : n ∈ s.diagram.nodes := single ▸ List.mem_singleton_self n
  refine ⟨_, (Route.mem_all _ laid.distinct).mpr
    ⟨2, _, n, n, present, member, member, zero, zero, rfl⟩, ?_⟩
  obtain ⟨bounds, joined⟩ := laid.joined present member member zero zero
  have around : n.box = bounds := by
    have bounded := joined.bounded
    rw [Diagram.bounds?, single] at bounded
    exact Option.some.inj bounded
  refine joined.exists_outside rfl (by decide +kernel) (congrArg Box.x around) ?_
  refine List.mem_filter.mpr ⟨member, ?_⟩
  simp only [Bool.and_eq_true, decide_eq_true_eq]
  exact ⟨min_le_left _ _, le_max_right _ _⟩

end Picture
end Flowchart
