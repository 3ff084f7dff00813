import Flowchart.Script.Registry
import Flowchart.Proofs.Text.Distance
import Mathlib.Data.List.Basic
/-! Suggestions. For a token that names no block they are the declared tokens that are one edit away
from it, and behind these the ones that are two edits away, in the order of their declaration. -/
namespace Flowchart.Script
open Flowchart.Text

namespace Registry

section Closer

theorem closer_iff {a b : Nat × Nat} :
    closer a b = true ↔ a.1 < b.1 ∨ a.1 = b.1 ∧ a.2 ≤ b.2 := by
  simp [closer]

theorem closer_trans (a b c : Nat × Nat) (first : closer a b = true) (second : closer b c = true) :
    closer a c = true := by
  rw [closer_iff] at first second ⊢
  omega

theorem closer_total (a b : Nat × Nat) : (closer a b || closer b a) = true := by
  rw [Bool.or_eq_true, closer_iff, closer_iff]
  omega

theorem closer_antisymm {a b : Nat × Nat} (first : closer a b = true)
    (second : closer b a = true) : a = b := by
  rw [closer_iff] at first second
  exact Prod.ext (by omega) (by omega)

end Closer

section Nearest
variable (far : Block → Nat) (entries : List (Block × Nat))

/-- Blocks that are so far away, with their places. -/
def away (d : Nat) : List (Block × Nat) := entries.filter fun entry => far entry.1 == d

/-- The nearer ones come first. -/
def nearest : List (Block × Nat) := away far entries 1 ++ away far entries 2

/-- What the order of suggestions looks at. -/
def rank (entry : Block × Nat) : Nat × Nat := (far entry.1, entry.2)

theorem candidates_perm :
    (entries.filterMap fun entry =>
        if 0 < far entry.1 && far entry.1 ≤ 2 then some (rank far entry) else none).Perm
      ((nearest far entries).map (rank far)) := by
  induction entries with
  | nil => exact .nil
  | cons entry entries ih =>
      rcases Nat.lt_trichotomy (far entry.1) 1 with same | one | more
      · have zero : far entry.1 = 0 := by omega
        simpa [nearest, away, zero] using ih
      · simpa [nearest, away, one] using ih
      · by_cases two : far entry.1 = 2
        · rw [nearest, List.map_append] at ih
          simpa [nearest, away, two] using (ih.cons (rank far entry)).trans List.perm_middle.symm
        · have apart : ¬ far entry.1 ≤ 2 := by omega
          have other : far entry.1 ≠ 1 := by omega
          simpa [nearest, away, two, apart, other] using ih

variable {entries} (order : entries.Pairwise (·.2 < ·.2))
include order

theorem nearest_closer : ((nearest far entries).map (rank far)).Pairwise (closer · ·) := by
  have distance {d : Nat} {entry : Block × Nat} (member : entry ∈ away far entries d) :
      far entry.1 = d := by
    simpa using (List.mem_filter.mp member).2
  have level (d : Nat) :
      (away far entries d).Pairwise fun a b => closer (rank far a) (rank far b) = true := by
    refine (order.filter _).imp_of_mem fun first second earlier => closer_iff.mpr (.inr ?_)
    exact ⟨(distance first).trans (distance second).symm, earlier.le⟩
  refine List.pairwise_map.mpr (List.pairwise_append.mpr ⟨level 1, level 2, ?_⟩)
  intro a first b second
  refine closer_iff.mpr (.inl ?_)
  rw [rank, rank, distance first, distance second]
  exact Nat.one_lt_two

/-- Sorting brings the nearer blocks to the front and leaves the others in order. -/
theorem mergeSort_candidates :
    (entries.filterMap fun entry =>
        if 0 < far entry.1 && far entry.1 ≤ 2 then some (rank far entry) else none).mergeSort
          closer =
      (nearest far entries).map (rank far) := by
  have sorted := List.pairwise_mergeSort closer_trans closer_total (entries.filterMap fun entry =>
    if 0 < far entry.1 && far entry.1 ≤ 2 then some (rank far entry) else none)
  have same := (List.mergeSort_perm _ closer).trans (candidates_perm far entries)
  exact same.eq_of_pairwise (fun _ _ _ _ => closer_antisymm) sorted (nearest_closer far order)

end Nearest

theorem zipIdx_ordered (blocks : Registry) : blocks.zipIdx.Pairwise (·.2 < ·.2) := by
  have places : (blocks.zipIdx.map (·.2)).Pairwise (· < ·) := by
    rw [List.zipIdx_map_snd]
    exact List.pairwise_lt_range'
  exact List.pairwise_map.mp places

theorem map_away (far : Block → Nat) (blocks : Registry) (d : Nat) :
    (away far blocks.zipIdx d).map (·.1) = blocks.filter fun b => far b == d := by
  have split : (away far blocks.zipIdx d).map (·.1) =
      (blocks.zipIdx.map (·.1)).filter fun b => far b == d := by
    rw [List.filter_map]
    rfl
  rw [split, List.zipIdx_map_fst]

/-- A place leads to the block that was found there. -/
theorem token_of_nearest {far : Block → Nat} {blocks : Registry} {entry : Block × Nat}
    (member : entry ∈ nearest far blocks.zipIdx) :
    blocks[entry.2]?.map (·.token) = some entry.1.token := by
  have inside : entry ∈ blocks.zipIdx := by
    rcases List.mem_append.mp member with first | second
    · exact (List.mem_filter.mp first).1
    · exact (List.mem_filter.mp second).1
  rw [List.mem_zipIdx_iff_getElem?.mp inside, Option.map_some]

/-- The distance of two texts is the least number of edits that turn one into the other. Suggested
for a token are the first three of the declared tokens that are one edit away from it, in the order
of their declaration, and behind them those that are two edits away. Blanks do not count. -/
theorem suggest_nearest (blocks : Registry) (token : List Char) :
    (∀ as bs, IsLeast {n | Edits n as bs} (distance as bs)) ∧
      let away (d : Nat) := blocks.filter fun b => distance (key b) (strip token) == d
      blocks.suggest token = ((away 1 ++ away 2).map (·.token)).take 3 := by
  refine ⟨distance_isLeast, ?_⟩
  intro away
  let far (b : Block) : Nat := distance (key b) (strip token)
  have first : (nearest far blocks.zipIdx).map (·.1) = away 1 ++ away 2 := by
    rw [nearest, List.map_append, map_away, map_away]
  calc blocks.suggest token
      = (((nearest far blocks.zipIdx).map (rank far)).take 3).filterMap
          fun place => blocks[place.2]?.map (·.token) := by
        rw [← mergeSort_candidates far blocks.zipIdx_ordered]
        rfl
    _ = ((nearest far blocks.zipIdx).take 3).filterMap
          fun entry => blocks[entry.2]?.map (·.token) := by
        rw [← List.map_take, List.filterMap_map]
        rfl
    _ = ((nearest far blocks.zipIdx).take 3).map (·.1.token) := by
        rw [← List.filterMap_eq_map]
        exact List.filterMap_congr fun entry member =>
          token_of_nearest (List.mem_of_mem_take member)
    _ = ((away 1 ++ away 2).map (·.token)).take 3 := by
        rw [← first, List.map_map, List.map_take]
        rfl

end Registry
end Flowchart.Script
