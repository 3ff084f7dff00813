import Flowchart.Proofs.Layout.Demotion
/-! Levels are lengths of longest paths. The connections that stay forward have no cycle, each of
them leads to a higher level, and the level of a block is the number of connections on the longest
path into it. -/
namespace Flowchart.Layout

theorem length_le_of_lt {β : Type} {r : β → β → Prop} (rank : β → Nat)
    (grows : ∀ x y, r x y → rank x < rank y) {path : List β} {goal : β}
    (chain : (path ++ [goal]).IsChain r) : path.length ≤ rank goal := by
  induction path using List.reverseRecOn generalizing goal with
  | nil => exact Nat.zero_le _
  | append_singleton path last ih =>
      rw [List.append_assoc, List.singleton_append] at chain
      obtain ⟨before, step⟩ := List.isChain_append_cons_cons.mp chain
      have shorter := ih before
      have higher := grows last goal step.1
      rw [List.length_append, List.length_singleton]
      omega

/-- Levels of blocks under the forward connections among `edges`. A path is written as the blocks
before its last one, so it has as many connections as that list has members. -/
structure LongestPaths (ids : List Nat) (edges : List Edge) (levels : Levels) : Prop where
  acyclic : Acyclic (Forward ids edges)
  attained : ∀ id ∈ ids, ∃ path, (path ++ [id]).IsChain (Forward ids edges) ∧
    (path ++ [id]).Nodup ∧ path.length = levels.get id
  longest : ∀ id ∈ ids, ∀ path, (path ++ [id]).IsChain (Forward ids edges) →
    path.length ≤ levels.get id
  rises : ∀ e ∈ edges, e.back = false → e.source ∈ ids → e.target ∈ ids →
    levels.get e.source + 1 ≤ levels.get e.target
  bounded : ∀ id ∈ ids, levels.get id < ids.length

theorem Settled.longestPaths {ids : List Nat} {edges : List Edge}
    {values : Vector Nat ids.length} (settled : Settled (links ids edges) values) {levels : Levels}
    (level : ∀ i : Fin ids.length, levels.get (ids.get i) = values.get i) :
    LongestPaths ids edges levels := by
  have grows : ∀ a b, Forward ids edges a b → levels.get a < levels.get b := by
    intro a b forward
    obtain ⟨i, j, rfl, rfl, step⟩ := step_of_forward forward
    rw [level, level]
    exact settled.lt_of_step step
  have acyclic := acyclic_of_lt levels.get grows
  constructor
  case acyclic => exact acyclic
  case attained =>
    intro id member
    obtain ⟨k, rfl⟩ := List.mem_iff_get.mp member
    obtain ⟨path, chain, long⟩ := (settled.attained k).2
    have lifted : (path.map ids.get ++ [ids.get k]).IsChain (Forward ids edges) := by
      have mapped := List.isChain_map_of_isChain ids.get
        (fun _ _ step => forward_of_step step) chain
      rw [List.map_append, List.map_singleton] at mapped
      exact mapped
    refine ⟨_, lifted, acyclic.nodup lifted, ?_⟩
    rw [List.length_map, long]
    exact (level k).symm
  case longest =>
    intro id _ path chain
    exact length_le_of_lt levels.get grows chain
  case rises =>
    intro e member back source target
    exact grows _ _ ⟨e, member, back, rfl, rfl, source, target⟩
  case bounded =>
    intro id member
    obtain ⟨k, rfl⟩ := List.mem_iff_get.mp member
    rw [level]
    exact settled.level_lt k

theorem Demotes.longestPaths {ids : List Nat} {edges : List Edge} {demoted : List Nat}
    {left : List (Link ids.length)} {values : Vector Nat ids.length} (distinct : ids.Nodup)
    (run : Demotes (links ids edges) demoted left) (settled : Settled left values) :
    LongestPaths ids (Levels.mark ⟨ids.zip values.toList, demoted⟩ edges)
      ⟨ids.zip values.toList, demoted⟩ := by
  refine Settled.longestPaths ?_ (Levels.get_zip distinct values demoted)
  rw [Levels.links_mark, ← run.left_eq]
  exact settled

/-- The level of every block is the length of the longest path into it along the connections that
stay forward, and these have no cycle. -/
theorem levelsOf_longestPaths {ids : List Nat} (distinct : ids.Nodup) (edges : List Edge) :
    ∃ levels, levelsOf ids edges = .ok levels ∧ LongestPaths ids (levels.mark edges) levels := by
  obtain ⟨values, demoted, left, found, run, settled⟩ := levelsOf_ends distinct edges
  exact ⟨_, found, run.longestPaths distinct settled⟩

/-- Two cycles that share a block, a connection to a block that does not exist and a block apart. -/
theorem levelsOf_longestPaths_two_cycles :
    [4, 0, 2, 7].Nodup ∧ ∃ levels, levelsOf [4, 0, 2, 7]
      [⟨4, 0, none, false⟩, ⟨0, 4, none, false⟩, ⟨0, 2, none, false⟩, ⟨2, 0, some "no", false⟩,
        ⟨2, 9, none, false⟩] = .ok levels ∧
      LongestPaths [4, 0, 2, 7] (levels.mark
        [⟨4, 0, none, false⟩, ⟨0, 4, none, false⟩, ⟨0, 2, none, false⟩, ⟨2, 0, some "no", false⟩,
          ⟨2, 9, none, false⟩]) levels :=
  ⟨by decide, levelsOf_longestPaths (by decide) _⟩

end Flowchart.Layout
