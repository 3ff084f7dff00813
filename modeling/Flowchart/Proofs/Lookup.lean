import Flowchart.Layout.Placement
import Mathlib.Data.List.Nodup
import Mathlib.Data.List.Pairwise
/-! Look-ups in tables. Where no key occurs twice, the first and the last entry for a key are the
same, and every entry is found. -/
namespace Flowchart

variable {β κ : Type}

theorem find?_of_nodup_map [BEq κ] [LawfulBEq κ] (key : β → κ) {xs : List β}
    (distinct : (xs.map key).Nodup) {x : β} (member : x ∈ xs) :
    xs.find? (fun y => key y == key x) = some x := by
  cases found : xs.find? (fun y => key y == key x) with
  | none => exact absurd (List.find?_eq_none.mp found x member) (by simp)
  | some y =>
      have same : key y = key x := by simpa only [beq_iff_eq] using List.find?_some found
      rw [List.inj_on_of_nodup_map distinct (List.mem_of_find?_eq_some found) member same]

theorem reverse_find?_of_nodup_map [BEq κ] [LawfulBEq κ] (key : β → κ) {xs : List β}
    (distinct : (xs.map key).Nodup) {x : β} (member : x ∈ xs) :
    xs.reverse.find? (fun y => key y == key x) = some x := by
  refine find?_of_nodup_map key ?_ (List.mem_reverse.mpr member)
  rw [List.map_reverse]
  exact List.nodup_reverse.mpr distinct

theorem lookup_of_nodup_map {pairs : List (Nat × β)} (distinct : (pairs.map (·.1)).Nodup)
    {key : Nat} {value : β} (member : (key, value) ∈ pairs) : pairs.lookup key = some value := by
  cases found : pairs.lookup key with
  | none => exact absurd (List.lookup_eq_none_iff.mp found _ member) (by simp)
  | some other =>
      obtain ⟨before, after, split, _⟩ := List.lookup_eq_some_iff.mp found
      have inside : (key, other) ∈ pairs := by simp [split]
      have same := List.inj_on_of_nodup_map distinct inside member rfl
      rw [(Prod.mk.inj same).2]

theorem eq_map_of_agree {pairs : List (Nat × β)} {f : Nat → β} (agree : ∀ p ∈ pairs, p.2 = f p.1) :
    pairs = (pairs.map (·.1)).map fun id => (id, f id) := by
  rw [List.map_map]
  refine (List.map_id pairs).symm.trans (List.map_congr_left ?_)
  intro p member
  exact Prod.ext rfl (agree p member)

theorem value_eq_of_mem {pairs : List (Nat × β)} (distinct : (pairs.map (·.1)).Nodup)
    {p q : Nat × β} (left : p ∈ pairs) (right : q ∈ pairs) (same : p.1 = q.1) : p.2 = q.2 :=
  congrArg Prod.snd (List.inj_on_of_nodup_map distinct left right same)

/-- In a table of several parts a key is looked up in the one part that may have it. -/
theorem lookup_flatMap {ι : Type} [DecidableEq ι] {parts : ι → List (Nat × β)} {key : Nat}
    {home : ι} {ids : List ι}
    (elsewhere : ∀ id ∈ ids, id ≠ home → (parts id).lookup key = none) :
    (ids.flatMap parts).lookup key = if home ∈ ids then (parts home).lookup key else none := by
  induction ids with
  | nil => rfl
  | cons id ids ih =>
      obtain ⟨first, others⟩ := List.forall_mem_cons.mp elsewhere
      rw [List.flatMap_cons, List.lookup_append, ih others]
      by_cases same : id = home
      · subst same
        rw [if_pos List.mem_cons_self]
        split <;> simp
      · rw [first same, Option.none_or]
        simp [List.mem_cons, Ne.symm same]

/-- Each key of a table has the value next to it. -/
theorem map_lookup_zip {keys : List Nat} {values : List β} (distinct : keys.Nodup)
    (paired : keys.length = values.length) (other : β) :
    keys.map (fun key => ((keys.zip values).lookup key).getD other) = values := by
  have fst : (keys.zip values).map (·.1) = keys := List.map_fst_zip (Nat.le_of_eq paired)
  refine List.ext_getElem (by rw [List.length_map, paired]) ?_
  intro i inside within
  rw [List.length_map] at inside
  have member : (keys[i], values[i]) ∈ keys.zip values :=
    List.mem_iff_getElem.mpr ⟨i, by rw [List.length_zip]; omega, List.getElem_zip⟩
  rw [List.getElem_map, lookup_of_nodup_map (fst.symm ▸ distinct) member, Option.getD_some]

theorem pairwise_zipIdx (xs : List β) : xs.zipIdx.Pairwise fun p q => p.2 < q.2 := by
  have places : (xs.zipIdx.map (·.2)).Pairwise (· < ·) := by
    rw [List.zipIdx_map_snd]
    exact List.pairwise_lt_range'
  exact List.pairwise_map.mp places

theorem pairwise_or {β : Type} {r : β → β → Prop} {xs : List β} (ordered : xs.Pairwise r) {a b : β}
    (left : a ∈ xs) (right : b ∈ xs) (different : a ≠ b) : r a b ∨ r b a := by
  have symmetric : Std.Symm fun a b => r a b ∨ r b a := ⟨fun _ _ either => either.symm⟩
  have either : xs.Pairwise fun a b => r a b ∨ r b a := ordered.imp Or.inl
  exact either.forall left right different

namespace Layout

theorem lastValue?_of_nodup_map {pairs : List (Nat × β)} (distinct : (pairs.map (·.1)).Nodup)
    {key : Nat} {value : β} (member : (key, value) ∈ pairs) :
    lastValue? pairs key = some value := by
  refine lookup_of_nodup_map ?_ (List.mem_reverse.mpr member)
  rw [List.map_reverse]
  exact List.nodup_reverse.mpr distinct

theorem lastValue?_isSome {pairs : List (Nat × β)} {key : Nat} :
    (lastValue? pairs key).isSome = true ↔ key ∈ pairs.map (·.1) := by
  simp [lastValue?]

theorem valueAt_of_nodup_map {α : Type} [Scalar α] {pairs : List (Nat × α)}
    (distinct : (pairs.map (·.1)).Nodup) {key : Nat} {value : α} (member : (key, value) ∈ pairs) :
    valueAt pairs key = value := by
  rw [valueAt, lastValue?_of_nodup_map distinct member, Option.getD_some]

end Layout
end Flowchart
