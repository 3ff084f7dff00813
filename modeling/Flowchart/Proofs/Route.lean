import Flowchart.Route
import Flowchart.Proofs.Lookup
import Flowchart.Proofs.Rational
import Mathlib.Algebra.Order.Field.Basic
import Mathlib.Tactic.GCongr
import Mathlib.Tactic.Linarith
import Mathlib.Tactic.NormNum
import Mathlib.Tactic.Ring
/-! Routes of connections between blocks that exist, and how far they reach. -/
namespace Flowchart.Route

section All
variable {α : Type} [Scalar α] {d : Diagram α}

/-- Where a connection leaves its source and where it enters its target. -/
def startOf (d : Diagram α) (spread : α) (i : Nat) (m : Node α) : Point α :=
  ⟨m.center.x + (Fan.ofDiagram d spread).sourceOffset i, m.box.bottom⟩

def finishOf (d : Diagram α) (spread : α) (i : Nat) (n : Node α) : Point α :=
  ⟨n.center.x + (Fan.ofDiagram d spread).targetOffset i, n.box.y⟩

/-- The route of a connection from one block to another. -/
def between (d : Diagram α) (spread : α) (i : Nat) (e : Edge) (m n : Node α) : Route α :=
  if e.back then detour d.nodes i (startOf d spread i m) (finishOf d spread i n)
  else forward i (startOf d spread i m) (finishOf d spread i n)

theorem edge_between (d : Diagram α) (spread : α) (i : Nat) (e : Edge) (m n : Node α) :
    (between d spread i e m n).edge = i := by
  cases back : e.back <;> simp [between, back, detour, forward]

theorem start_between (d : Diagram α) (spread : α) (i : Nat) (e : Edge) (m n : Node α) :
    (between d spread i e m n).start = startOf d spread i m := by
  cases back : e.back <;> simp [between, back, detour, forward]

theorem finish_between (d : Diagram α) (spread : α) (i : Nat) (e : Edge) (m n : Node α) :
    (between d spread i e m n).finish = finishOf d spread i n := by
  cases back : e.back <;> simp [between, back, detour, forward]

theorem back_between (d : Diagram α) (spread : α) (i : Nat) (e : Edge) (m n : Node α) :
    (between d spread i e m n).back = e.back := by
  cases back : e.back <;> simp [between, back, detour, forward]

/-- There is a route for each connection that has both its blocks. -/
theorem mem_all (spread : α) (distinct : (d.nodes.map (·.id)).Nodup) {r : Route α} :
    r ∈ all d spread ↔ ∃ i e m n, d.edges[i]? = some e ∧ m ∈ d.nodes ∧ n ∈ d.nodes ∧
      m.id = e.source ∧ n.id = e.target ∧ r = between d spread i e m n := by
  constructor
  · intro member
    obtain ⟨⟨e, i⟩, inside, made⟩ := List.mem_filterMap.mp member
    dsimp only at made
    split at made
    · next m n source target =>
      obtain rfl := Option.some.inj made
      have leaves : m.id = e.source := by simpa using List.find?_some source
      have enters : n.id = e.target := by simpa using List.find?_some target
      exact ⟨i, e, m, n, List.mem_zipIdx_iff_getElem?.mp inside,
        List.mem_reverse.mp (List.mem_of_find?_eq_some source),
        List.mem_reverse.mp (List.mem_of_find?_eq_some target), leaves, enters, rfl⟩
    · cases made
  · rintro ⟨i, e, m, n, present, source, target, leaves, enters, rfl⟩
    have foundSource := reverse_find?_of_nodup_map (·.id) distinct source
    have foundTarget := reverse_find?_of_nodup_map (·.id) distinct target
    rw [leaves] at foundSource
    rw [enters] at foundTarget
    refine List.mem_filterMap.mpr ⟨(e, i), List.mem_zipIdx_iff_getElem?.mpr present, ?_⟩
    simp only [foundSource, foundTarget]
    rfl

/-- The route of a connection, if both its blocks exist. -/
def route? (d : Diagram α) (spread : α) (p : Edge × Nat) : Option (Route α) :=
  match d.nodes.reverse.find? (·.id == p.1.source), d.nodes.reverse.find? (·.id == p.1.target) with
  | some m, some n => some (between d spread p.2 p.1 m n)
  | _, _ => none

theorem all_eq_filterMap (d : Diagram α) (spread : α) :
    all d spread = d.edges.zipIdx.filterMap (route? d spread) :=
  rfl

theorem edge_of_route? {spread : α} {p : Edge × Nat} {r : Route α}
    (made : route? d spread p = some r) : r.edge = p.2 := by
  unfold route? at made
  split at made
  · rw [← Option.some.inj made, edge_between]
  · cases made

theorem isSome_route? {spread : α} {p : Edge × Nat} :
    (route? d spread p).isSome = true ↔
      (∃ m ∈ d.nodes, m.id = p.1.source) ∧ ∃ n ∈ d.nodes, n.id = p.1.target := by
  have found (id : Nat) :
      (d.nodes.reverse.find? (·.id == id)).isSome = true ↔ ∃ n ∈ d.nodes, n.id = id := by
    simp
  rw [← found, ← found, route?]
  cases d.nodes.reverse.find? (·.id == p.1.source) <;>
    cases d.nodes.reverse.find? (·.id == p.1.target) <;> simp

/-- The routes are those of the connections that have both blocks, in their order. -/
theorem edges_all (d : Diagram α) (spread : α) :
    ((all d spread).map (·.edge)).Pairwise (· < ·) ∧
      ∀ i, i ∈ (all d spread).map (·.edge) ↔ ∃ e, d.edges[i]? = some e ∧
        (∃ m ∈ d.nodes, m.id = e.source) ∧ ∃ n ∈ d.nodes, n.id = e.target := by
  rw [all_eq_filterMap]
  constructor
  · rw [List.pairwise_map, List.pairwise_filterMap]
    refine (pairwise_zipIdx d.edges).imp ?_
    intro p q less r made r' made'
    rwa [edge_of_route? made, edge_of_route? made']
  · intro i
    rw [List.mem_map]
    constructor
    · rintro ⟨r, inside, rfl⟩
      obtain ⟨⟨e, i⟩, present, made⟩ := List.mem_filterMap.mp inside
      rw [edge_of_route? made]
      exact ⟨e, List.mem_zipIdx_iff_getElem?.mp present,
        isSome_route?.mp (Option.isSome_of_eq_some made)⟩
    · rintro ⟨e, present, ends⟩
      have drawn : (route? d spread (e, i)).isSome = true := isSome_route?.mpr ends
      obtain ⟨r, made⟩ := Option.isSome_iff_exists.mp drawn
      exact ⟨r, List.mem_filterMap.mpr ⟨(e, i), List.mem_zipIdx_iff_getElem?.mpr present, made⟩,
        edge_of_route? made⟩

/-- A forward connection between two blocks has one route, from the bottom of the one to the top of
the other. -/
theorem exists_of_forward (spread : α) (distinct : (d.nodes.map (·.id)).Nodup) {i : Nat} {e : Edge}
    (present : d.edges[i]? = some e) (forward : e.back = false) {m n : Node α}
    (source : m ∈ d.nodes) (target : n ∈ d.nodes) (leaves : m.id = e.source)
    (enters : n.id = e.target) :
    ∃ start finish : Point α, start.y = m.box.bottom ∧ finish.y = n.box.y ∧
      ∀ r, r ∈ all d spread ∧ r.edge = i ↔ r = Route.forward i start finish := by
  have shape : between d spread i e m n =
      Route.forward i (startOf d spread i m) (finishOf d spread i n) := by
    simp only [between, forward, Bool.false_eq_true, if_false]
  refine ⟨startOf d spread i m, finishOf d spread i n, rfl, rfl, ?_⟩
  intro r
  rw [← shape]
  constructor
  · rintro ⟨member, index⟩
    obtain ⟨j, f, source', target', other, memberS, memberT, leaves', enters', rfl⟩ :=
      (mem_all spread distinct).mp member
    obtain rfl : j = i := (edge_between ..).symm.trans index
    obtain rfl := Option.some.inj (present.symm.trans other)
    rw [List.inj_on_of_nodup_map distinct memberS source (leaves'.trans leaves.symm),
      List.inj_on_of_nodup_map distinct memberT target (enters'.trans enters.symm)]
  · rintro rfl
    exact ⟨(mem_all spread distinct).mpr
      ⟨i, e, m, n, present, source, target, leaves, enters, rfl⟩, edge_between ..⟩

end All

theorem heading_forward {edge : Nat} {start finish : Point Rat} (down : start.y ≤ finish.y) :
    (Route.forward edge start finish).heading = .down := by
  have turned : ¬ finish.y - start.y < 0 := by linarith
  exact if_neg turned

section Polyline

/-- The value of a cubic curve at `t`, with `u` for what is left of one. -/
def cubic (t u a b c d : Rat) : Rat :=
  u * u * u * a + 3 * u * u * t * b + 3 * u * t * t * c + t * t * t * d

theorem cubic_self {t u : Rat} (one : u + t = 1) (x : Rat) : cubic t u x x x x = x := by
  have expanded : cubic t u x x x x = (u + t) ^ 3 * x := by
    unfold cubic
    ring
  rw [expanded, one, one_pow, one_mul]

theorem cubic_mono {t u a b c d a' b' c' d' : Rat} (early : 0 ≤ t) (late : 0 ≤ u) (first : a ≤ a')
    (second : b ≤ b') (third : c ≤ c') (fourth : d ≤ d') :
    cubic t u a b c d ≤ cubic t u a' b' c' d' := by
  unfold cubic
  gcongr

/-- The points that shape a route. -/
def controls {α : Type} (r : Route α) : List (Point α) :=
  match r.shape with
  | .straight => [r.start, r.finish]
  | .curve first second => [r.start, first, second, r.finish]
  | .orthogonal corners => r.start :: (corners ++ [r.finish])

/-- One of the coordinates of a point. -/
inductive Axis where
  | x
  | y

def Axis.of {α : Type} (axis : Axis) (p : Point α) : α :=
  match axis with
  | .x => p.x
  | .y => p.y

theorem of_cubicPoint (axis : Axis) (a b c d : Point Rat) (t : Rat) :
    axis.of (cubicPoint a b c d t) =
      cubic t (1 - t) (axis.of a) (axis.of b) (axis.of c) (axis.of d) := by
  cases axis <;> rfl

/-- A route stays between bounds of the points that shape it. -/
theorem polyline_between {r : Route Rat} {axis : Axis} {low high : Rat}
    (bounded : ∀ c ∈ r.controls, low ≤ axis.of c ∧ axis.of c ≤ high) :
    ∀ p ∈ r.polyline, low ≤ axis.of p ∧ axis.of p ≤ high := by
  obtain ⟨edge, start, finish, shape, heading, back⟩ := r
  cases shape with
  | straight => exact bounded
  | orthogonal corners => exact bounded
  | curve first second =>
      simp only [controls, List.forall_mem_cons] at bounded
      obtain ⟨one, two, three, four, -⟩ := bounded
      intro p member
      obtain ⟨i, inside, rfl⟩ := List.mem_map.mp member
      let t : Rat := (i : Rat) / (curveSegments : Nat)
      have early : 0 ≤ t := div_nonneg (Nat.cast_nonneg i) (Nat.cast_nonneg curveSegments)
      have late : t ≤ 1 := by
        have last : i ≤ curveSegments := Nat.lt_succ_iff.mp (List.mem_range.mp inside)
        exact (div_le_one (by norm_num [curveSegments])).mpr (Nat.cast_le.mpr last)
      change low ≤ axis.of (cubicPoint start first second finish t) ∧
        axis.of (cubicPoint start first second finish t) ≤ high
      rw [of_cubicPoint]
      constructor
      · rw [← cubic_self (sub_add_cancel 1 t) low]
        exact cubic_mono early (sub_nonneg.mpr late) one.1 two.1 three.1 four.1
      · rw [← cubic_self (sub_add_cancel 1 t) high]
        exact cubic_mono early (sub_nonneg.mpr late) one.2 two.2 three.2 four.2

theorem start_mem_polyline (r : Route Rat) : r.start ∈ r.polyline := by
  obtain ⟨edge, start, finish, shape, heading, back⟩ := r
  cases shape with
  | straight => exact List.mem_cons_self
  | orthogonal corners => exact List.mem_cons_self
  | curve first second =>
      refine List.mem_map.mpr ⟨0, List.mem_range.mpr (Nat.succ_pos _), ?_⟩
      change cubicPoint start first second finish ((0 : Nat) / (curveSegments : Nat)) = start
      simp [cubicPoint]

theorem finish_mem_polyline (r : Route Rat) : r.finish ∈ r.polyline := by
  obtain ⟨edge, start, finish, shape, heading, back⟩ := r
  cases shape with
  | straight => exact List.mem_cons_of_mem _ (List.mem_singleton_self _)
  | orthogonal corners =>
      exact List.mem_cons_of_mem _ (List.mem_append_right _ (List.mem_singleton_self _))
  | curve first second =>
      refine List.mem_map.mpr ⟨curveSegments, List.mem_range.mpr (Nat.lt_succ_self _), ?_⟩
      change cubicPoint start first second finish
        ((curveSegments : Nat) / (curveSegments : Nat)) = finish
      simp [cubicPoint, curveSegments]

end Polyline

section Detour

/-- How far left of all that it passes a detour goes. -/
def detourReach (edge : Nat) : Rat := detourMargin + detourStagger edge

theorem detourMargin_le (edge : Nat) : detourMargin ≤ detourReach edge := by
  have stagger : (0 : Rat) ≤ (edge % 6 : Nat) * 15 := mul_nonneg (Nat.cast_nonneg _) (by decide)
  exact le_add_of_nonneg_right stagger

theorem detourReach_nonneg (edge : Nat) : 0 ≤ detourReach edge :=
  le_trans (by decide) (detourMargin_le edge)

theorem foldl_least_le (xs : List Rat) (start : Rat) :
    xs.foldl least start ≤ start ∧ ∀ x ∈ xs, xs.foldl least start ≤ x := by
  induction xs generalizing start with
  | nil => exact ⟨le_rfl, fun x member => absurd member List.not_mem_nil⟩
  | cons x xs ih =>
      obtain ⟨below, others⟩ := ih (least start x)
      rw [least_eq_min, le_min_iff, ← least_eq_min] at below
      exact ⟨below.1, List.forall_mem_cons.mpr ⟨below.2, others⟩⟩

theorem le_foldl_least {xs : List Rat} {low start : Rat} (first : low ≤ start)
    (others : ∀ x ∈ xs, low ≤ x) : low ≤ xs.foldl least start := by
  induction xs generalizing start with
  | nil => exact first
  | cons x xs ih =>
      obtain ⟨next, rest⟩ := List.forall_mem_cons.mp others
      refine ih ?_ rest
      rw [least_eq_min]
      exact le_min first next

variable {nodes : List (Node Rat)} {edge : Nat} {start finish : Point Rat}

/-- What a detour passes. -/
def passed (nodes : List (Node Rat)) (start finish : Point Rat) : List (Node Rat) :=
  nodes.filter fun n => min start.y finish.y ≤ n.box.bottom && n.box.y ≤ max start.y finish.y

theorem detourLeft_eq : detourLeft nodes edge start finish =
    ((passed nodes start finish).map (·.box.x)).foldl least (min start.x finish.x) -
      detourReach edge := by
  rw [passed, ← least_eq_min, ← greatest_eq_max, ← least_eq_min]
  exact sub_sub _ _ _

theorem detourLeft_le_start : detourLeft nodes edge start finish ≤ start.x - detourReach edge := by
  rw [detourLeft_eq]
  exact sub_le_sub_right ((foldl_least_le _ _).1.trans (min_le_left _ _)) _

theorem detourLeft_le_passed {n : Node Rat} (member : n ∈ passed nodes start finish) :
    detourLeft nodes edge start finish ≤ n.box.x - detourReach edge := by
  rw [detourLeft_eq]
  exact sub_le_sub_right ((foldl_least_le _ _).2 _ (List.mem_map_of_mem member)) _

theorem le_detourLeft {low : Rat} (first : low ≤ start.x) (last : low ≤ finish.x)
    (others : ∀ n ∈ nodes, low ≤ n.box.x) :
    low - detourReach edge ≤ detourLeft nodes edge start finish := by
  rw [detourLeft_eq]
  refine sub_le_sub_right (le_foldl_least (le_min first last) ?_) _
  intro x member
  obtain ⟨n, inside, rfl⟩ := List.mem_map.mp member
  exact others n (List.mem_filter.mp inside).1

end Detour

end Flowchart.Route
