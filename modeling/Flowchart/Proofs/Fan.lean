import Flowchart.Route.Fan
import Flowchart.Proofs.Lookup
import Mathlib.Algebra.Order.Field.Rat
import Mathlib.Data.Rat.Cast.Order
import Mathlib.Tactic.Linarith
/-! Anchors that are fanned out stay around the middle of their side, the further from it the more
connections share the side. -/
namespace Flowchart.Fan

section Side
variable {α : Type} {d : Diagram α} {side : Side}

/-- How many connections share a side of a block with one of them. -/
def crowd (d : Diagram α) (side : Side) (e : Edge) : Nat :=
  (d.edges.filter fun f => side.near f == side.near e).length

theorem mem_present {i : Nat} {e : Edge} (member : (i, e) ∈ present d) :
    d.edges[i]? = some e := by
  obtain ⟨inside, -⟩ := List.mem_filter.mp member
  obtain ⟨⟨f, j⟩, found, same⟩ := List.mem_map.mp inside
  cases same
  exact List.mem_zipIdx_iff_getElem?.mp found

theorem pairwise_present (d : Diagram α) : (present d).Pairwise fun p q => p.1 < q.1 := by
  have listed : (d.edges.zipIdx.map fun p => (p.2, p.1)).Pairwise fun p q => p.1 < q.1 :=
    List.pairwise_map.mpr (pairwise_zipIdx d.edges)
  exact listed.filter _

/-- A group is no larger than the crowd at its block. -/
theorem length_group_le (e : Edge) :
    ((present d).filter fun p => side.near p.2 == side.near e).length ≤ crowd d side e := by
  have all : ((d.edges.zipIdx.map Prod.swap).filter
      fun p => side.near p.2 == side.near e).length = crowd d side e := by
    rw [crowd, List.filter_map, List.length_map]
    conv_rhs => rw [← List.zipIdx_map_fst 0 d.edges, List.filter_map, List.length_map]
    rfl
  rw [← all]
  exact (List.filter_sublist.filter _).length_le

variable [Scalar α]

theorem mem_groupOffsets {spread : α} {center : Nat → α} {group : List (Nat × Edge)} {i : Nat}
    {offset : α} (member : (i, offset) ∈ groupOffsets spread center side group) :
    i ∈ group.map (·.1) ∧ offset ∈ steps spread group.length := by
  unfold groupOffsets at member
  split at member
  · obtain ⟨first, second⟩ := List.of_mem_zip member
    refine ⟨?_, second⟩
    exact ((List.mergeSort_perm _ _).map _).mem_iff.mp first
  · exact absurd member List.not_mem_nil

/-- A connection has its offset from the group of its block. -/
theorem exists_of_lookup {spread : α} {i : Nat} {offset : α}
    (found : (sideOffsets d spread side).lookup i = some offset) :
    ∃ e, d.edges[i]? = some e ∧
      offset ∈ steps spread ((present d).filter fun p => side.near p.2 == side.near e).length := by
  obtain ⟨before, after, split, -⟩ := List.lookup_eq_some_iff.mp found
  have member : (i, offset) ∈ sideOffsets d spread side := by
    rw [split]
    exact List.mem_append_right _ List.mem_cons_self
  obtain ⟨id, -, inside⟩ := List.mem_flatMap.mp member
  obtain ⟨known, step⟩ := mem_groupOffsets inside
  obtain ⟨⟨j, e⟩, grouped, rfl⟩ := List.mem_map.mp known
  obtain ⟨present, near⟩ := List.mem_filter.mp grouped
  obtain rfl : side.near e = id := beq_iff_eq.mp near
  exact ⟨e, mem_present present, step⟩

end Side

section Offsets
variable {d : Diagram Rat} {side : Side} {spread : Rat} {i : Nat} {e : Edge}

/-- How far from the middle the anchors of a crowd are at most. -/
def reach (spread : Rat) (crowd : Nat) : Rat := (crowd - 1 : Nat) * spread / 2

theorem reach_mono (wide : 0 ≤ spread) {few many : Nat} (fewer : few ≤ many) :
    reach spread few ≤ reach spread many := by
  have less : ((few - 1 : Nat) : Rat) ≤ (many - 1 : Nat) :=
    Nat.cast_le.mpr (Nat.sub_le_sub_right fewer 1)
  have scaled := mul_le_mul_of_nonneg_right less wide
  unfold reach
  linarith

theorem reach_nonneg (wide : 0 ≤ spread) (crowd : Nat) : 0 ≤ reach spread crowd :=
  div_nonneg (mul_nonneg (Nat.cast_nonneg _) wide) (by decide)

theorem steps_between (wide : 0 ≤ spread) {count : Nat} {offset : Rat}
    (member : offset ∈ steps spread count) :
    -reach spread count ≤ offset ∧ offset ≤ reach spread count := by
  obtain ⟨j, inside, rfl⟩ := List.mem_map.mp member
  have last : j ≤ count - 1 := Nat.le_sub_one_of_lt (List.mem_range.mp inside)
  have low : (0 : Rat) ≤ j * spread := mul_nonneg (Nat.cast_nonneg j) wide
  have high : (j : Rat) * spread ≤ (count - 1 : Nat) * spread :=
    mul_le_mul_of_nonneg_right (Nat.cast_le.mpr last) wide
  change -reach spread count ≤ -((count - 1 : Nat) * spread) / 2 + j * spread ∧
    -((count - 1 : Nat) * spread) / 2 + j * spread ≤ reach spread count
  unfold reach
  constructor <;> linarith

theorem lookup_between (wide : 0 ≤ spread) (present : d.edges[i]? = some e) :
    -reach spread (crowd d side e) ≤ ((sideOffsets d spread side).lookup i).getD 0 ∧
      ((sideOffsets d spread side).lookup i).getD 0 ≤ reach spread (crowd d side e) := by
  cases found : (sideOffsets d spread side).lookup i with
  | none =>
      have middle := reach_nonneg wide (crowd d side e)
      exact ⟨neg_nonpos.mpr middle, middle⟩
  | some offset =>
      obtain ⟨f, other, step⟩ := exists_of_lookup found
      obtain rfl := Option.some.inj (present.symm.trans other)
      have grown := reach_mono wide (@length_group_le _ d side e)
      obtain ⟨low, high⟩ := steps_between wide step
      exact ⟨(neg_le_neg grown).trans low, high.trans grown⟩

end Offsets

end Flowchart.Fan
