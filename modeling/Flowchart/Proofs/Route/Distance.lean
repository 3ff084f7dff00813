import Flowchart.Proofs.Route
import Flowchart.Proofs.Viewport
import Mathlib.Data.Finset.Dedup
import Mathlib.Data.Finset.Max
import Mathlib.Data.Rat.Floor
/-! Distance to a route. The clamped projection of a point is the nearest point of a segment: seen
from it, no point of the segment lies on the side of the projected one. The distance to a route is
the least of these distances, so it is the distance to a nearest point of the whole polyline. Exact
rationals have no square root, so it stands for any function that keeps the order of the squares. -/
namespace Flowchart

namespace Point
variable {p a b q : Point Rat}

/-- The point at `t` on the way from `a` to `b`. -/
def along (a b : Point Rat) (t : Rat) : Point Rat := ⟨a.x + t * (b.x - a.x), a.y + t * (b.y - a.y)⟩

/-- The segment from `a` to `b`, a single point where both are the same. -/
def OnSegment (a b q : Point Rat) : Prop := ∃ t, 0 ≤ t ∧ t ≤ 1 ∧ q = along a b t

/-- A nearest point among those of a figure. -/
structure IsNearest (p : Point Rat) (figure : Point Rat → Prop) (q : Point Rat) : Prop where
  inside : figure q
  least : ∀ other, figure other → p.squaredDistance q ≤ p.squaredDistance other

/-- How far along the segment the foot of the perpendicular is. -/
def foot (p a b : Point Rat) : Rat :=
  ((p.x - a.x) * (b.x - a.x) + (p.y - a.y) * (b.y - a.y)) / a.squaredDistance b

theorem squaredDistance_nonneg (a b : Point Rat) : 0 ≤ a.squaredDistance b :=
  add_nonneg (mul_self_nonneg _) (mul_self_nonneg _)

theorem eq_of_squaredDistance_eq_zero (none : a.squaredDistance b = 0) : b = a := by
  obtain ⟨x, y⟩ := mul_self_add_mul_self_eq_zero.mp none
  cases a
  cases b
  exact congrArg₂ Point.mk (sub_eq_zero.mp x) (sub_eq_zero.mp y)

theorem foot_mul (p a b : Point Rat) : foot p a b * a.squaredDistance b =
    (p.x - a.x) * (b.x - a.x) + (p.y - a.y) * (b.y - a.y) := by
  by_cases none : a.squaredDistance b = 0
  · rw [none, mul_zero, eq_of_squaredDistance_eq_zero none, sub_self, sub_self, mul_zero, mul_zero,
      add_zero]
  · exact div_mul_cancel₀ _ none

theorem projection_eq (p a b : Point Rat) :
    p.projection a b = along a b (max 0 (min (foot p a b) 1)) := by
  have shape : p.projection a b =
      if a.squaredDistance b == 0 then a else along a b (clamp 0 1 (foot p a b)) := rfl
  rw [shape]
  by_cases none : a.squaredDistance b = 0
  · rw [if_pos (beq_iff_eq.mpr none), eq_of_squaredDistance_eq_zero none, along, sub_self, sub_self,
      mul_zero, add_zero, add_zero]
  · rw [if_neg (mt beq_iff_eq.mp none)]
    exact congrArg (along a b) (clamp_eq_max_min zero_le_one _)

theorem onSegment_projection (p a b : Point Rat) : OnSegment a b (p.projection a b) :=
  ⟨_, le_max_left _ _, max_le zero_le_one (min_le_right _ _), projection_eq p a b⟩

/-- What clamping adds to a number points away from all of the unit interval. -/
theorem clamped_between (s : Rat) {t : Rat} (early : 0 ≤ t) (late : t ≤ 1) :
    0 ≤ (t - max 0 (min s 1)) * (max 0 (min s 1) - s) := by
  rcases le_total s 0 with below | above
  · rw [max_eq_left ((min_le_left _ _).trans below)]
    exact mul_nonneg (sub_nonneg.mpr early) (sub_nonneg.mpr below)
  · rcases le_total s 1 with inside | beyond
    · rw [min_eq_left inside, max_eq_right above, sub_self, mul_zero]
    · rw [min_eq_right beyond, max_eq_right zero_le_one]
      exact mul_nonneg_of_nonpos_of_nonpos (sub_nonpos.mpr late) (sub_nonpos.mpr beyond)

/-- At the projection the angle between the point and the rest of the segment is not acute. -/
theorem squaredDistance_projection (p : Point Rat) (on : OnSegment a b q) :
    p.squaredDistance (p.projection a b) + (p.projection a b).squaredDistance q ≤
      p.squaredDistance q := by
  obtain ⟨t, early, late, rfl⟩ := on
  rw [projection_eq]
  generalize clamped : max 0 (min (foot p a b) 1) = c
  have apart : 0 ≤ (t - c) * (c - foot p a b) * a.squaredDistance b := by
    rw [← clamped]
    exact mul_nonneg (clamped_between _ early late) (squaredDistance_nonneg a b)
  have cosine : p.squaredDistance (along a b t) =
      p.squaredDistance (along a b c) + (along a b c).squaredDistance (along a b t) +
        2 * ((t - c) * (c * a.squaredDistance b - foot p a b * a.squaredDistance b)) := by
    rw [foot_mul]
    simp only [squaredDistance, along]
    ring
  rw [cosine, ← sub_mul, ← mul_assoc]
  linarith

theorem isNearest_projection (p a b : Point Rat) :
    p.IsNearest (OnSegment a b) (p.projection a b) where
  inside := onSegment_projection p a b
  least _ on := (le_add_of_nonneg_right (squaredDistance_nonneg _ _)).trans
    (squaredDistance_projection p on)

end Point

/-- Distances over exact rationals, with a function for the square root and a bound for it. -/
abbrev Metric.ofRoot (sqrt : Rat → Rat) (infinity : Rat) : Metric Rat :=
  { (inferInstance : Scalar Rat) with sqrt, infinity }

namespace Route
open Point (OnSegment IsNearest)

/-- The points of the polyline that a route is drawn as, curves in straight pieces. -/
def OnPolyline (r : Route Rat) (q : Point Rat) : Prop :=
  ∃ i a b, r.polyline[i]? = some a ∧ r.polyline[i + 1]? = some b ∧ OnSegment a b q

theorem onPolyline_iff {r : Route Rat} {q : Point Rat} :
    OnPolyline r q ↔ ∃ s ∈ r.segments, OnSegment s.1 s.2 q := by
  constructor
  · rintro ⟨i, a, b, first, second, on⟩
    refine ⟨(a, b), List.mem_iff_getElem?.mpr ⟨i, ?_⟩, on⟩
    exact List.getElem?_zip_eq_some.mpr ⟨first, List.getElem?_tail ▸ second⟩
  · rintro ⟨⟨a, b⟩, member, on⟩
    obtain ⟨i, found⟩ := List.mem_iff_getElem?.mp member
    obtain ⟨first, second⟩ := List.getElem?_zip_eq_some.mp found
    exact ⟨i, a, b, first, List.getElem?_tail ▸ second, on⟩

/-- Every shape is drawn with at least one piece. -/
theorem segments_ne_nil (r : Route Rat) : r.segments ≠ [] := by
  obtain ⟨edge, start, finish, shape, heading, back⟩ := r
  cases shape with
  | straight => exact List.cons_ne_nil _ _
  | curve first second => exact List.cons_ne_nil _ _
  | orthogonal corners => cases corners <;> exact List.cons_ne_nil _ _

/-- Of the nearest points of the pieces one is nearest on the whole polyline. -/
theorem exists_segment_nearest (r : Route Rat) (p : Point Rat) :
    ∃ s ∈ r.segments, p.IsNearest r.OnPolyline (p.projection s.1 s.2) := by
  have some : r.segments.toFinset.Nonempty := by
    obtain ⟨s, member⟩ := List.exists_mem_of_ne_nil _ (segments_ne_nil r)
    exact ⟨s, List.mem_toFinset.mpr member⟩
  obtain ⟨s, member, least⟩ := r.segments.toFinset.exists_min_image
    (fun s => p.squaredDistance (p.projection s.1 s.2)) some
  rw [List.mem_toFinset] at member
  refine ⟨s, member, onPolyline_iff.mpr ⟨s, member, Point.onSegment_projection p s.1 s.2⟩, ?_⟩
  intro other on
  obtain ⟨u, inside, within⟩ := onPolyline_iff.mp on
  exact (least u (List.mem_toFinset.mpr inside)).trans
    ((p.isNearest_projection u.1 u.2).least other within)

/-- The clamped projection is a nearest point of its segment, and the distance to a route is that to
a nearest point of its polyline, for every square root that keeps the order. Infinity has to lie
beyond no more than the distances to the pieces of this route. -/
theorem distanceTo_nearest {sqrt : Rat → Rat} {infinity : Rat}
    (ordered : ∀ x y, 0 ≤ x → x ≤ y → sqrt x ≤ sqrt y) (r : Route Rat) (p : Point Rat)
    (bounded : ∀ s ∈ r.segments, sqrt (p.squaredDistance (p.projection s.1 s.2)) ≤ infinity) :
    letI : Metric Rat := .ofRoot sqrt infinity
    (∀ a b, p.IsNearest (OnSegment a b) (p.projection a b)) ∧
      ∃ q, p.IsNearest r.OnPolyline q ∧ r.distanceTo p = p.distance q ∧
        ∀ other, r.OnPolyline other → r.distanceTo p ≤ p.distance other := by
  let metric : Metric Rat := .ofRoot sqrt infinity
  obtain ⟨s, member, nearest⟩ := exists_segment_nearest r p
  have below : ∀ other, r.OnPolyline other →
      p.distance (p.projection s.1 s.2) ≤ p.distance other := fun other on =>
    ordered _ _ (Point.squaredDistance_nonneg _ _) (nearest.least other on)
  have attained : r.distanceTo p = p.distance (p.projection s.1 s.2) := by
    refine le_antisymm ?_ ?_
    · exact (foldl_least_le _ _).2 _ (List.mem_map.mpr ⟨s, member, rfl⟩)
    · refine le_foldl_least (bounded s member) ?_
      intro x listed
      obtain ⟨u, inside, rfl⟩ := List.mem_map.mp listed
      exact below _ (onPolyline_iff.mpr ⟨u, inside, Point.onSegment_projection p u.1 u.2⟩)
  refine ⟨p.isNearest_projection, p.projection s.1 s.2, nearest, attained, ?_⟩
  intro other on
  exact attained ▸ below other on

/-- The whole part of a square root. -/
def wholeRoot (x : Rat) : Rat := (Nat.sqrt ⌊x⌋₊ : Nat)

/-- A detour with a piece of no length, from a point beside its left line. -/
theorem distanceTo_nearest_detour :
    let r : Route Rat := ⟨0, ⟨50, 50⟩, ⟨50, 0⟩,
      .orthogonal [⟨50, 50⟩, ⟨50, 70⟩, ⟨-40, 70⟩, ⟨-40, -12⟩, ⟨50, -12⟩], .down, true⟩
    let p : Point Rat := ⟨-43, 74⟩
    letI : Metric Rat := .ofRoot wholeRoot 1000
    (∀ x y, 0 ≤ x → x ≤ y → wholeRoot x ≤ wholeRoot y) ∧
      (∀ s ∈ r.segments, wholeRoot (p.squaredDistance (p.projection s.1 s.2)) ≤ 1000) ∧
      r.distanceTo p = 5 ∧
      (∀ a b, p.IsNearest (OnSegment a b) (p.projection a b)) ∧
      ∃ q, p.IsNearest r.OnPolyline q ∧ r.distanceTo p = p.distance q ∧
        ∀ other, r.OnPolyline other → r.distanceTo p ≤ p.distance other := by
  intro r p
  have ordered : ∀ x y : Rat, 0 ≤ x → x ≤ y → wholeRoot x ≤ wholeRoot y := by
    intro x y _ below
    have roots := Nat.sqrt_le_sqrt (Nat.floor_mono below)
    exact Nat.cast_le.mpr roots
  have bounded :
      ∀ s ∈ r.segments, wholeRoot (p.squaredDistance (p.projection s.1 s.2)) ≤ 1000 := by
    decide +kernel
  exact ⟨ordered, bounded, by decide +kernel, distanceTo_nearest ordered r p bounded⟩

end Route

end Flowchart
