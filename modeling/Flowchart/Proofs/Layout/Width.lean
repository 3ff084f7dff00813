import Flowchart.Proofs.Layout.Forest
import Flowchart.Proofs.Lookup
/-! Widths of subtrees. Deeper blocks come first, so the widths of all children are known when their
parent is reached, and every block is as wide as itself or as its children together. -/
namespace Flowchart.Layout

variable {α : Type} [Scalar α]

section Widths
variable {gap : α} {own : Nat → α} {bs : List Branch}

theorem subtreeWidths_concat (gap : α) (own : Nat → α) (bs : List Branch) (order : List Nat)
    (id : Nat) :
    subtreeWidths gap own bs (order ++ [id]) = subtreeWidths gap own bs order ++
      [(id, greatest (own id + gap)
        (total ((childrenOf bs id).map (valueAt (subtreeWidths gap own bs order)))))] := by
  rw [subtreeWidths, List.foldl_append]
  rfl

theorem subtreeWidths_keys (gap : α) (own : Nat → α) (bs : List Branch) (order : List Nat) :
    (subtreeWidths gap own bs order).map (·.1) = order := by
  induction order using List.reverseRecOn with
  | nil => rfl
  | append_singleton order id ih =>
      rw [subtreeWidths_concat, List.map_append, ih]
      rfl

theorem subtreeWidths_extends (before after : List Nat) :
    subtreeWidths gap own bs before <+: subtreeWidths gap own bs (before ++ after) := by
  induction after using List.reverseRecOn with
  | nil => rw [List.append_nil]
  | append_singleton after id ih =>
      rw [← List.append_assoc, subtreeWidths_concat]
      exact ih.trans (List.prefix_append _ _)

theorem valueAt_subtreeWidths_append {before after : List Nat}
    (distinct : (before ++ after).Nodup) {id : Nat} (known : id ∈ before) :
    valueAt (subtreeWidths gap own bs before) id =
      valueAt (subtreeWidths gap own bs (before ++ after)) id := by
  rw [← subtreeWidths_keys gap own bs before] at known
  obtain ⟨⟨key, value⟩, member, rfl⟩ := List.mem_map.mp known
  have early : ((subtreeWidths gap own bs before).map (·.1)).Nodup := by
    rw [subtreeWidths_keys]
    exact distinct.of_append_left
  have late : ((subtreeWidths gap own bs (before ++ after)).map (·.1)).Nodup := by
    rw [subtreeWidths_keys]
    exact distinct
  rw [valueAt_of_nodup_map early member,
    valueAt_of_nodup_map late ((subtreeWidths_extends before after).subset member)]

/-- A block whose children come before it is as wide as itself or as they are together. -/
theorem valueAt_subtreeWidths {before after : List Nat} {id : Nat}
    (distinct : (before ++ id :: after).Nodup) (known : ∀ kid ∈ childrenOf bs id, kid ∈ before) :
    valueAt (subtreeWidths gap own bs (before ++ id :: after)) id =
      greatest (own id + gap) (total ((childrenOf bs id).map
        (valueAt (subtreeWidths gap own bs (before ++ id :: after))))) := by
  have split : before ++ id :: after = (before ++ [id]) ++ after := by simp
  have last : id ∈ before ++ [id] := List.mem_append_right _ (List.mem_singleton_self id)
  have kids : (childrenOf bs id).map (valueAt (subtreeWidths gap own bs (before ++ id :: after))) =
      (childrenOf bs id).map (valueAt (subtreeWidths gap own bs before)) := by
    refine List.map_congr_left ?_
    intro kid member
    exact (valueAt_subtreeWidths_append distinct (known kid member)).symm
  have early : ((subtreeWidths gap own bs (before ++ [id])).map (·.1)).Nodup := by
    rw [subtreeWidths_keys]
    exact (split ▸ distinct).of_append_left
  rw [kids]
  rw [split] at distinct ⊢
  rw [← valueAt_subtreeWidths_append distinct last]
  refine valueAt_of_nodup_map early ?_
  rw [subtreeWidths_concat]
  exact List.mem_append_right _ (List.mem_singleton_self _)

end Widths

theorem bottomUp_perm (levels : Levels) (ids : List Nat) : (bottomUp levels ids).Perm ids :=
  List.mergeSort_perm _ _

theorem bottomUp_sorted (levels : Levels) (ids : List Nat) :
    (bottomUp levels ids).Pairwise fun a b => levels.get b ≤ levels.get a := by
  refine (List.pairwise_mergeSort ?_ ?_ ids).imp of_decide_eq_true
  · intro a b c
    simp only [decide_eq_true_eq]
    omega
  · intro a b
    simp only [Bool.or_eq_true, decide_eq_true_eq]
    omega

theorem Forest.mem_before {ids : List Nat} {levels : Levels} {bs : List Branch}
    (forest : Forest ids levels.get bs) {before after : List Nat} {id kid : Nat}
    (split : bottomUp levels ids = before ++ id :: after) (member : kid ∈ childrenOf bs id) :
    kid ∈ before := by
  have branch := mem_childrenOf.mp member
  have rises : levels.get id < levels.get kid := forest.rises _ branch
  have sorted := bottomUp_sorted levels ids
  have inside : kid ∈ bottomUp levels ids :=
    (bottomUp_perm levels ids).mem_iff.mpr (forest.child_mem _ branch)
  rw [split, List.pairwise_append, List.pairwise_cons] at sorted
  rw [split, List.mem_append, List.mem_cons] at inside
  rcases inside with early | rfl | late
  · exact early
  · exact absurd rises (Nat.lt_irrefl _)
  · exact absurd rises (Nat.not_lt.mpr (sorted.2.1.1 kid late))

section Tree
variable (config : Config α) (levels : Levels) (edges : List Edge) (nodes : List (Node α))

def treeBranches : List Branch := branches (nodes.map (·.id)) edges

/-- Width of the subtree of a block. -/
def treeWidth : Nat → α := valueAt (treeWidths config levels (treeBranches edges nodes) nodes)

variable {config levels edges nodes}

theorem treeWidth_eq (distinct : (nodes.map (·.id)).Nodup)
    (forest : Forest (nodes.map (·.id)) levels.get (treeBranches edges nodes)) {n : Node α}
    (member : n ∈ nodes) :
    treeWidth config levels edges nodes n.id =
      greatest (n.box.width + config.horizontalGap)
        (total ((childrenOf (treeBranches edges nodes) n.id).map
          (treeWidth config levels edges nodes))) := by
  have inside := (bottomUp_perm levels (nodes.map (·.id))).mem_iff.mpr (List.mem_map_of_mem member)
  obtain ⟨before, after, split⟩ := List.append_of_mem inside
  have ordered := (bottomUp_perm levels (nodes.map (·.id))).nodup_iff.mpr distinct
  have wide : valueAt (nodes.map fun n => (n.id, n.box.width)) n.id = n.box.width := by
    refine valueAt_of_nodup_map ?_ (List.mem_map_of_mem member)
    rw [List.map_map]
    exact distinct
  rw [treeWidth, treeWidths, split]
  rw [split] at ordered
  rw [valueAt_subtreeWidths ordered fun kid below => forest.mem_before split below, wide]

end Tree
end Flowchart.Layout
