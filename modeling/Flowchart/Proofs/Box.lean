import Flowchart.Diagram
import Flowchart.Proofs.Rational
import Mathlib.Tactic.Ring
/-! Boxes within boxes. The bounds of a diagram are around every block of it. -/
namespace Flowchart

namespace Box

/-- No part of the inner box is outside the outer one. -/
structure Within (inner outer : Box Rat) : Prop where
  left : outer.x ≤ inner.x
  right : inner.right ≤ outer.right
  top : outer.y ≤ inner.y
  bottom : inner.bottom ≤ outer.bottom

theorem Within.refl (b : Box Rat) : Within b b := ⟨le_rfl, le_rfl, le_rfl, le_rfl⟩

theorem Within.trans {a b c : Box Rat} (first : Within a b) (second : Within b c) : Within a c :=
  ⟨second.left.trans first.left, first.right.trans second.right, second.top.trans first.top,
    first.bottom.trans second.bottom⟩

theorem right_union (a b : Box Rat) : (a.union b).right = max a.right b.right := by
  rw [← greatest_eq_max]
  exact add_sub_cancel _ _

theorem bottom_union (a b : Box Rat) : (a.union b).bottom = max a.bottom b.bottom := by
  rw [← greatest_eq_max]
  exact add_sub_cancel _ _

theorem x_union (a b : Box Rat) : (a.union b).x = min a.x b.x := least_eq_min _ _

theorem y_union (a b : Box Rat) : (a.union b).y = min a.y b.y := least_eq_min _ _

theorem within_union_left (a b : Box Rat) : Within a (a.union b) where
  left := by rw [x_union]; exact min_le_left _ _
  right := by rw [right_union]; exact le_max_left _ _
  top := by rw [y_union]; exact min_le_left _ _
  bottom := by rw [bottom_union]; exact le_max_left _ _

theorem within_union_right (a b : Box Rat) : Within b (a.union b) where
  left := by rw [x_union]; exact min_le_right _ _
  right := by rw [right_union]; exact le_max_right _ _
  top := by rw [y_union]; exact min_le_right _ _
  bottom := by rw [bottom_union]; exact le_max_right _ _

theorem within_foldl_union (bs : List (Box Rat)) (start : Box Rat) :
    Within start (bs.foldl union start) ∧ ∀ b ∈ bs, Within b (bs.foldl union start) := by
  induction bs generalizing start with
  | nil => exact ⟨.refl start, fun b member => absurd member List.not_mem_nil⟩
  | cons b bs ih =>
      obtain ⟨whole, others⟩ := ih (start.union b)
      exact ⟨(within_union_left start b).trans whole,
        List.forall_mem_cons.mpr ⟨(within_union_right start b).trans whole, others⟩⟩

/-- The point is neither to the left nor to the right of the box. -/
def Abreast (b : Box Rat) (p : Point Rat) : Prop := b.x ≤ p.x ∧ p.x ≤ b.right

theorem contains_iff {b : Box Rat} {p : Point Rat} : b.contains p = true ↔
    b.Abreast p ∧ b.y ≤ p.y ∧ p.y ≤ b.bottom := by
  simp only [contains, Abreast, Bool.and_eq_true, decide_eq_true_eq]
  tauto

theorem right_inflate (b : Box Rat) (amount : Rat) :
    (b.inflate amount).right = b.right + amount := by
  change b.x - amount + (b.width + 2 * amount) = b.x + b.width + amount
  ring

theorem bottom_inflate (b : Box Rat) (amount : Rat) :
    (b.inflate amount).bottom = b.bottom + amount := by
  change b.y - amount + (b.height + 2 * amount) = b.y + b.height + amount
  ring

end Box

namespace Diagram

variable {d : Diagram Rat} {bounds : Box Rat}

theorem within_bounds (found : d.bounds? = some bounds) {n : Node Rat} (member : n ∈ d.nodes) :
    n.box.Within bounds := by
  unfold bounds? at found
  split at found
  · cases found
  · next first others same =>
    obtain rfl := Option.some.inj found
    obtain ⟨whole, rest⟩ := Box.within_foldl_union (others.map (·.box)) first.box
    rw [same] at member
    rcases List.mem_cons.mp member with rfl | later
    · exact whole
    · exact rest n.box (List.mem_map_of_mem later)

end Diagram
end Flowchart
