import Flowchart.Script.Registry
import Flowchart.Proofs.Lookup
/-! Naming declared blocks. A token resolves to a block with the same key, the longest prefix is the
longest key that a line starts with, and where keys are distinct both name exactly one block. -/
namespace Flowchart.Script
open Flowchart.Text

namespace Registry

theorem foldl_longer_some {entries : List (Nat × List Char)} {best : Option (Nat × List Char)}
    {found : Nat × List Char} (last : entries.foldl longer best = some found) :
    found ∈ best.toList ++ entries ∧
      ∀ entry ∈ best.toList ++ entries, entry.2.length ≤ found.2.length := by
  induction entries generalizing best with
  | nil =>
      rw [List.foldl_nil] at last
      subst last
      simp
  | cons entry entries ih =>
      rw [List.foldl_cons] at last
      obtain ⟨member, longest⟩ := ih last
      cases best with
      | none => exact ⟨member, longest⟩
      | some first =>
          by_cases shorter : entry.2.length ≤ first.2.length
          · simp only [longer, shorter, if_true, Option.toList_some, List.singleton_append,
              List.mem_cons, forall_eq_or_imp] at member longest ⊢
            exact ⟨member.imp_right .inr, longest.1, Nat.le_trans shorter longest.1, longest.2⟩
          · simp only [longer, shorter, if_false, Option.toList_some, List.singleton_append,
              List.mem_cons, forall_eq_or_imp] at member longest ⊢
            exact ⟨.inr member, Nat.le_trans (Nat.le_of_not_le shorter) longest.1, longest⟩

theorem foldl_longer_ne_none {entries : List (Nat × List Char)} {first : Nat × List Char} :
    entries.foldl longer (some first) ≠ none := by
  induction entries generalizing first with
  | nil => simp
  | cons entry entries ih =>
      rw [List.foldl_cons, longer]
      split
      · exact ih
      · exact ih

variable {blocks : Registry}

theorem resolve?_eq_none_iff {token : List Char} :
    blocks.resolve? token = none ↔ ∀ b ∈ blocks, key b ≠ strip token := by
  simp [resolve?]

theorem exists_of_resolve? {token : List Char} {i : Nat} (found : blocks.resolve? token = some i) :
    ∃ b, blocks[i]? = some b ∧ key b = strip token := by
  obtain ⟨inside, same, -⟩ := List.findIdx?_eq_some_iff_getElem.mp found
  exact ⟨blocks[i], List.getElem?_eq_getElem inside, by simpa using same⟩

theorem lt_of_resolve? {token : List Char} {i : Nat} (found : blocks.resolve? token = some i) :
    i < blocks.length := by
  obtain ⟨b, present, -⟩ := exists_of_resolve? found
  exact (List.getElem?_eq_some_iff.mp present).1

theorem index_unique (distinct : (blocks.map key).Nodup) {i j : Nat} {b c : Block}
    (left : blocks[i]? = some b) (right : blocks[j]? = some c) (same : key b = key c) : i = j := by
  have inside : i < (blocks.map key).length := by
    simpa using (List.getElem?_eq_some_iff.mp left).1
  refine (List.getElem?_inj inside distinct).mp ?_
  rw [List.getElem?_map, List.getElem?_map, left, right, Option.map_some, Option.map_some, same]

theorem resolve?_of_key (distinct : (blocks.map key).Nodup) {i : Nat} {b : Block}
    (present : blocks[i]? = some b) {token : List Char} (same : key b = strip token) :
    blocks.resolve? token = some i := by
  cases found : blocks.resolve? token with
  | none => exact absurd same (resolve?_eq_none_iff.mp found b (List.mem_of_getElem? present))
  | some j =>
      obtain ⟨c, other, equal⟩ := exists_of_resolve? found
      rw [index_unique distinct other present (equal.trans same.symm)]

/-- The keys that a line starts with, each behind the place of its block. -/
def candidates (blocks : Registry) (line : List Char) : List (Nat × List Char) :=
  blocks.zipIdx.filterMap fun (b, i) =>
    if !(key b).isEmpty && (key b).isPrefixOf (strip line) then some (i, key b) else none

theorem longestPrefix?_eq (blocks : Registry) (line : List Char) :
    blocks.longestPrefix? line = (blocks.candidates line).foldl longer none := rfl

theorem mem_candidates {line found : List Char} {i : Nat} :
    (i, found) ∈ blocks.candidates line ↔
      ∃ b, blocks[i]? = some b ∧ key b = found ∧ found ≠ [] ∧ found <+: strip line := by
  simp only [candidates, List.mem_filterMap, List.mem_zipIdx_iff_getElem?, Prod.exists,
    Option.ite_none_right_eq_some, Option.some.injEq, Prod.mk.injEq, Bool.and_eq_true,
    Bool.not_eq_true', List.isEmpty_eq_false_iff, List.isPrefixOf_iff_prefix]
  constructor
  · rintro ⟨b, j, present, ⟨solid, front⟩, rfl, rfl⟩
    exact ⟨b, present, rfl, solid, front⟩
  · rintro ⟨b, present, rfl, solid, front⟩
    exact ⟨b, i, present, ⟨solid, front⟩, rfl, rfl⟩

/-- What the longest prefix of a line is: a key the line starts with, and no such key is longer. -/
theorem exists_of_longestPrefix? {line found : List Char} {i : Nat}
    (longest : blocks.longestPrefix? line = some (i, found)) :
    (∃ b, blocks[i]? = some b ∧ key b = found ∧ found ≠ [] ∧ found <+: strip line) ∧
      ∀ c ∈ blocks, key c <+: strip line → (key c).length ≤ found.length := by
  obtain ⟨member, others⟩ := foldl_longer_some longest
  refine ⟨mem_candidates.mp member, ?_⟩
  intro c inside front
  obtain ⟨j, present⟩ := List.getElem?_of_mem inside
  by_cases solid : key c = []
  · simp [solid]
  · exact others (j, key c) (mem_candidates.mpr ⟨c, present, rfl, solid, front⟩)

theorem longestPrefix?_eq_none_iff {line : List Char} :
    blocks.longestPrefix? line = none ↔ ∀ b ∈ blocks, key b <+: strip line → key b = [] := by
  constructor
  · intro none b inside front
    by_contra solid
    obtain ⟨i, present⟩ := List.getElem?_of_mem inside
    have member : (i, key b) ∈ blocks.candidates line :=
      mem_candidates.mpr ⟨b, present, rfl, solid, front⟩
    rw [longestPrefix?_eq] at none
    cases all : blocks.candidates line with
    | nil => simp [all] at member
    | cons first others =>
        rw [all, List.foldl_cons] at none
        exact foldl_longer_ne_none none
  · intro apart
    cases found : blocks.longestPrefix? line with
    | none => rfl
    | some entry =>
        obtain ⟨⟨b, present, same, solid, front⟩, -⟩ := exists_of_longestPrefix? found
        exact absurd (same ▸ apart b (List.mem_of_getElem? present) (same ▸ front)) solid

theorem longestPrefix?_of_key (distinct : (blocks.map key).Nodup) {i : Nat} {b : Block}
    (present : blocks[i]? = some b) {line : List Char} (solid : key b ≠ [])
    (front : key b <+: strip line)
    (longest : ∀ c ∈ blocks, key c <+: strip line → (key c).length ≤ (key b).length) :
    blocks.longestPrefix? line = some (i, key b) := by
  cases found : blocks.longestPrefix? line with
  | none =>
      have empty := longestPrefix?_eq_none_iff.mp found b (List.mem_of_getElem? present) front
      exact absurd empty solid
  | some entry =>
      obtain ⟨j, text⟩ := entry
      obtain ⟨⟨c, other, rfl, -, before⟩, most⟩ := exists_of_longestPrefix? found
      have shorter := longest c (List.mem_of_getElem? other) before
      have longer := most b (List.mem_of_getElem? present) front
      have same : key c = key b :=
        (List.prefix_of_prefix_length_le before front shorter).eq_of_length
          (Nat.le_antisymm shorter longer)
      rw [index_unique distinct other present same, same]

theorem lt_of_longestPrefix? {line found : List Char} {i : Nat}
    (longest : blocks.longestPrefix? line = some (i, found)) : i < blocks.length := by
  obtain ⟨⟨b, present, -⟩, -⟩ := exists_of_longestPrefix? longest
  exact (List.getElem?_eq_some_iff.mp present).1

end Registry
end Flowchart.Script
