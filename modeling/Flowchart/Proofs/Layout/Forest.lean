import Flowchart.Proofs.Layout.LongestPath
/-! The tree of a chart. Every block hangs under the source of the first connection into it, levels
rise along branches, and the walk from the roots meets every block exactly once. -/
namespace Flowchart.Layout
open Relation (TransGen)

section Branches
variable {ids : List Nat}

/-- The connection is a branch unless its target has a parent already. -/
structure Grows (ids : List Nat) (e : Edge) : Prop where
  forward : e.back = false
  distinct : e.source ≠ e.target
  source_mem : e.source ∈ ids
  target_mem : e.target ∈ ids

/-- One more connection adds at most the branch from its source to its target. -/
theorem branches_concat (ids : List Nat) (edges : List Edge) (e : Edge) :
    Grows ids e ∧ e.target ∉ (branches ids edges).map (·.child) ∧
        branches ids (edges ++ [e]) = branches ids edges ++ [⟨e.source, e.target⟩] ∨
      (Grows ids e → e.target ∈ (branches ids edges).map (·.child)) ∧
        branches ids (edges ++ [e]) = branches ids edges := by
  have next : branches ids (edges ++ [e]) =
      if e.back || e.source == e.target || (branches ids edges).any (·.child == e.target)
          || !ids.contains e.source || !ids.contains e.target then branches ids edges
        else branches ids edges ++ [⟨e.source, e.target⟩] := by
    rw [branches, List.foldl_append]
    rfl
  rw [next]
  split
  case isTrue skipped =>
    refine Or.inr ⟨?_, rfl⟩
    intro grows
    simpa [grows.forward, grows.distinct, grows.source_mem, grows.target_mem] using skipped
  case isFalse taken =>
    have facts : e.back = false ∧ e.source ≠ e.target ∧
        e.target ∉ (branches ids edges).map (·.child) ∧ e.source ∈ ids ∧ e.target ∈ ids := by
      simpa [and_assoc] using taken
    obtain ⟨forward, distinct, new, source, target⟩ := facts
    exact Or.inl ⟨⟨forward, distinct, source, target⟩, new, rfl⟩

theorem branches_children_nodup (ids : List Nat) (edges : List Edge) :
    ((branches ids edges).map (·.child)).Nodup := by
  induction edges using List.reverseRecOn with
  | nil => exact List.nodup_nil
  | append_singleton edges e ih =>
      rcases branches_concat ids edges e with ⟨_, new, same⟩ | ⟨_, same⟩
      · rw [same, List.map_append, List.map_singleton, ← List.concat_eq_append]
        exact List.Nodup.concat new ih
      · rwa [same]

theorem branches_sublist (ids : List Nat) (edges : List Edge) :
    (branches ids edges).Sublist ((edges.filter (!·.back)).map fun e => ⟨e.source, e.target⟩) := by
  induction edges using List.reverseRecOn with
  | nil => exact List.Sublist.slnil
  | append_singleton edges e ih =>
      rw [List.filter_append, List.map_append]
      rcases branches_concat ids edges e with ⟨grows, _, same⟩ | ⟨_, same⟩
      · rw [same]
        refine ih.append ?_
        simp [grows.forward]
      · rw [same]
        exact ih.trans (List.sublist_append_left _ _)

theorem grows_of_mem_branches {edges : List Edge} {b : Branch} (member : b ∈ branches ids edges) :
    ∃ e ∈ edges, Grows ids e ∧ b = ⟨e.source, e.target⟩ := by
  induction edges using List.reverseRecOn with
  | nil => cases member
  | append_singleton edges e ih =>
      have earlier : b ∈ branches ids edges →
          ∃ f ∈ edges ++ [e], Grows ids f ∧ b = ⟨f.source, f.target⟩ := by
        intro inside
        obtain ⟨f, present, facts⟩ := ih inside
        exact ⟨f, List.mem_append_left _ present, facts⟩
      rcases branches_concat ids edges e with ⟨grows, _, same⟩ | ⟨_, same⟩
      · rw [same, List.mem_append, List.mem_singleton] at member
        rcases member with inside | rfl
        · exact earlier inside
        · exact ⟨e, List.mem_append_right _ (List.mem_singleton_self e), grows, rfl⟩
      · exact earlier (same ▸ member)

theorem mem_branches_of_first {before : List Edge} {e : Edge} (grows : Grows ids e)
    (first : ∀ f ∈ before, Grows ids f → f.target ≠ e.target) (after : List Edge) :
    ⟨e.source, e.target⟩ ∈ branches ids (before ++ e :: after) := by
  induction after using List.reverseRecOn with
  | nil =>
      rcases branches_concat ids before e with ⟨_, _, same⟩ | ⟨known, _⟩
      · rw [same]
        exact List.mem_append_right _ (List.mem_singleton_self _)
      · obtain ⟨b, member, child⟩ := List.mem_map.mp (known grows)
        obtain ⟨f, present, growsF, rfl⟩ := grows_of_mem_branches member
        exact absurd child (first f present growsF)
  | append_singleton after e' ih =>
      have split : before ++ e :: (after ++ [e']) = (before ++ e :: after) ++ [e'] := by simp
      rw [split]
      rcases branches_concat ids (before ++ e :: after) e' with ⟨_, _, same⟩ | ⟨_, same⟩
      · rw [same]
        exact List.mem_append_left _ ih
      · rwa [same]

end Branches

theorem mem_childrenOf {bs : List Branch} {id child : Nat} :
    child ∈ childrenOf bs id ↔ ⟨id, child⟩ ∈ bs := by
  simp only [childrenOf, List.mem_map, List.mem_filter, beq_iff_eq]
  constructor
  · rintro ⟨b, ⟨member, rfl⟩, rfl⟩
    exact member
  · intro member
    exact ⟨_, ⟨member, rfl⟩, rfl⟩

theorem prune_perm (bs : List Branch) (id : Nat) :
    (childrenOf bs id ++ (prune bs id).map (·.child)).Perm (bs.map (·.child)) := by
  rw [childrenOf, prune, ← List.map_append]
  exact (List.filter_append_perm _ bs).map _

theorem childrenOf_prune_self (bs : List Branch) (id : Nat) : childrenOf (prune bs id) id = [] := by
  rw [childrenOf, prune, List.filter_filter, List.map_eq_nil_iff, List.filter_eq_nil_iff]
  intro b _
  simp

theorem childrenOf_prune_of_ne (bs : List Branch) {id other : Nat} (different : other ≠ id) :
    childrenOf (prune bs id) other = childrenOf bs other := by
  rw [childrenOf, prune, List.filter_filter, childrenOf]
  congr 1
  refine List.filter_congr ?_
  intro b _
  by_cases same : b.parent = other <;> simp [same, different]

/-- Branches between blocks, at most one into each, along which levels rise. -/
structure Forest (ids : List Nat) (level : Nat → Nat) (bs : List Branch) : Prop where
  parent_mem : ∀ b ∈ bs, b.parent ∈ ids
  child_mem : ∀ b ∈ bs, b.child ∈ ids
  rises : ∀ b ∈ bs, level b.parent < level b.child
  single : (bs.map (·.child)).Nodup

theorem LongestPaths.forest {ids : List Nat} {edges : List Edge} {levels : Levels}
    (longest : LongestPaths ids edges levels) : Forest ids levels.get (branches ids edges) := by
  constructor
  case single => exact branches_children_nodup ids edges
  all_goals
    intro b member
    obtain ⟨e, present, grows, rfl⟩ := grows_of_mem_branches member
  case parent_mem => exact grows.source_mem
  case child_mem => exact grows.target_mem
  case rises => exact longest.rises e present grows.forward grows.source_mem grows.target_mem

namespace Forest
variable {ids : List Nat} {level : Nat → Nat} {bs : List Branch}

theorem acyclic (forest : Forest ids level bs) : Acyclic fun a b => ⟨a, b⟩ ∈ bs :=
  acyclic_of_lt level fun a b member => forest.rises ⟨a, b⟩ member

theorem parent_eq (forest : Forest ids level bs) {b c : Branch} (left : b ∈ bs) (right : c ∈ bs)
    (same : b.child = c.child) : b = c := List.inj_on_of_nodup_map forest.single left right same

theorem children_nodup (forest : Forest ids level bs) (id : Nat) : (childrenOf bs id).Nodup :=
  forest.single.sublist (List.filter_sublist.map _)

theorem exists_orphan (forest : Forest ids level bs) {id : Nat} (member : id ∈ ids) :
    ∃ root ∈ ids, ∀ b ∈ bs, b.child ≠ root := by
  induction high : level id using Nat.strongRecOn generalizing id with
  | ind n ih =>
      by_cases orphan : ∀ b ∈ bs, b.child ≠ id
      · exact ⟨id, member, orphan⟩
      · push Not at orphan
        obtain ⟨b, inside, rfl⟩ := orphan
        exact ih _ (high ▸ forest.rises b inside) (forest.parent_mem b inside) rfl

/-- The blocks without a parent are the roots, and there are some. -/
theorem roots_eq (forest : Forest ids level bs) :
    roots ids bs = ids.filter (fun id => !bs.any (·.child == id)) ∧
      (ids ≠ [] → roots ids bs ≠ []) := by
  cases found : ids.filter fun id => !bs.any (·.child == id) with
  | cons root others => simp [roots, found]
  | nil =>
      -- without roots every block could be climbed away from
      have empty : ids = [] := by
        refine List.eq_nil_iff_forall_not_mem.mpr ?_
        intro id member
        obtain ⟨root, inside, orphan⟩ := forest.exists_orphan member
        exact List.filter_eq_nil_iff.mp found root inside (by simpa using orphan)
      subst empty
      exact ⟨rfl, fun some => absurd rfl some⟩

theorem mem_roots (forest : Forest ids level bs) {id : Nat} :
    id ∈ roots ids bs ↔ id ∈ ids ∧ ∀ b ∈ bs, b.child ≠ id := by
  rw [forest.roots_eq.1]
  simp

theorem roots_nodup (forest : Forest ids level bs) (distinct : ids.Nodup) :
    (roots ids bs).Nodup := by
  rw [forest.roots_eq.1]
  exact distinct.filter _

theorem roots_perm (forest : Forest ids level bs) (distinct : ids.Nodup) :
    (roots ids bs ++ bs.map (·.child)).Perm ids := by
  have apart : (roots ids bs).Disjoint (bs.map (·.child)) := by
    intro id root inside
    obtain ⟨b, member, child⟩ := List.mem_map.mp inside
    exact (forest.mem_roots.mp root).2 b member child
  have once := (forest.roots_nodup distinct).append forest.single apart
  refine (List.perm_ext_iff_of_nodup once distinct).mpr ?_
  intro id
  rw [List.mem_append, forest.mem_roots]
  constructor
  · rintro (⟨member, _⟩ | inside)
    · exact member
    · obtain ⟨b, member, rfl⟩ := List.mem_map.mp inside
      exact forest.child_mem b member
  · intro member
    by_cases orphan : ∀ b ∈ bs, b.child ≠ id
    · exact Or.inl ⟨member, orphan⟩
    · push Not at orphan
      obtain ⟨b, inside, rfl⟩ := orphan
      exact Or.inr (List.mem_map_of_mem inside)

end Forest

section Walk
variable {α : Type} [Scalar α] {width : Nat → α}

theorem spreadOut_keys (width : Nat → α) (left : α) (ids : List Nat) :
    (spreadOut width left ids).map (·.1) = ids := by
  induction ids generalizing left with
  | nil => rfl
  | cons id ids ih => rw [spreadOut, List.map_cons, ih]

theorem spreadChildren_keys (width : Nat → α) (bs : List Branch) (id : Nat) (center : α) :
    (spreadChildren width bs id center).map (·.1) = childrenOf bs id := spreadOut_keys _ _ _

/-- What the walk has met, together with the children below blocks it did not meet, is what it
started with. -/
theorem walk_visits (width : Nat → α) (bs : List Branch) (stack : List (Nat × α)) :
    ∃ left, left ⊆ bs ∧ (∀ b ∈ left, b.parent ∉ (walk width bs stack).map (·.1)) ∧
      ((walk width bs stack).map (·.1) ++ left.map (·.child)).Perm
        (stack.map (·.1) ++ bs.map (·.child)) := by
  -- a block gives way to its children, and its branches are used up
  induction bs, stack using walk.induct width with
  | case1 bs =>
      refine ⟨bs, List.Subset.refl bs, ?_, ?_⟩
      · simp [walk]
      · rw [walk]
  | case2 bs id center stack ih =>
      obtain ⟨left, inside, unmet, same⟩ := ih
      rw [walk, List.map_cons]
      refine ⟨left, List.Subset.trans inside (List.filter_subset_self _), ?_, ?_⟩
      · intro b member
        have other : b.parent ≠ id := by
          simpa using (List.mem_filter.mp (inside member)).2
        rw [List.mem_cons, not_or]
        exact ⟨other, unmet b member⟩
      · rw [List.map_append, List.map_reverse, spreadChildren_keys] at same
        rw [List.cons_append, List.map_cons, List.cons_append]
        refine List.Perm.cons id (same.trans ?_)
        have kids : ((childrenOf bs id).reverse ++ stack.map (·.1)).Perm
            (stack.map (·.1) ++ childrenOf bs id) :=
          ((List.reverse_perm _).append_right _).trans List.perm_append_comm
        refine (kids.append_right _).trans ?_
        rw [List.append_assoc]
        exact (prune_perm bs id).append_left _

theorem mem_walk {bs : List Branch} {stack : List (Nat × α)} {p : Nat × α}
    (met : p ∈ walk width bs stack) :
    p ∈ stack ∨ ∃ q ∈ walk width bs stack, p ∈ spreadChildren width bs q.1 q.2 := by
  induction bs, stack using walk.induct width with
  | case1 bs =>
      rw [walk] at met
      exact Or.inl met
  | case2 bs id center stack ih =>
      rw [walk] at met ⊢
      rcases List.mem_cons.mp met with rfl | later
      · exact Or.inl List.mem_cons_self
      · rcases ih later with onStack | ⟨q, earlier, below⟩
        · rcases List.mem_append.mp onStack with kid | waiting
          · exact Or.inr ⟨(id, center), List.mem_cons_self, List.mem_reverse.mp kid⟩
          · exact Or.inl (List.mem_cons_of_mem _ waiting)
        · refine Or.inr ⟨q, List.mem_cons_of_mem _ earlier, ?_⟩
          by_cases same : q.1 = id
          · rw [spreadChildren, same, childrenOf_prune_self] at below
            cases below
          · rwa [spreadChildren, childrenOf_prune_of_ne bs same] at below

/-- The walk from the roots meets every block once. -/
theorem Forest.walk_perm {ids : List Nat} {level : Nat → Nat} {bs : List Branch}
    (forest : Forest ids level bs) (distinct : ids.Nodup) {stack : List (Nat × α)}
    (start : (stack.map (·.1)).Perm (roots ids bs)) :
    ((walk width bs stack).map (·.1)).Perm ids := by
  obtain ⟨left, inside, unmet, same⟩ := walk_visits width bs stack
  have all : ((walk width bs stack).map (·.1) ++ left.map (·.child)).Perm ids :=
    same.trans ((start.append_right _).trans (forest.roots_perm distinct))
  -- a branch that was left hangs below another one that was left, on a lower level
  have used : ∀ b ∈ left, False := by
    intro b member
    induction high : level b.parent using Nat.strongRecOn generalizing b with
    | ind n ih =>
        have parent := all.mem_iff.mpr (forest.parent_mem b (inside member))
        rcases List.mem_append.mp parent with met | below
        · exact unmet b member met
        · obtain ⟨c, memberC, same⟩ := List.mem_map.mp below
          have lower := forest.rises c (inside memberC)
          rw [same, high] at lower
          exact ih _ lower c memberC rfl
  have none : left = [] := List.eq_nil_iff_forall_not_mem.mpr used
  rw [none, List.map_nil, List.append_nil] at all
  exact all

end Walk
end Flowchart.Layout
