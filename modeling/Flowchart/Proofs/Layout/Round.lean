import Flowchart.Proofs.Layout.Reach
/-! One round of pushing targets below their sources. Every level is the length of some path, so a
level as high as the number of places shows a cycle, and a round that comes to rest without finding
one has none left. -/
namespace Flowchart.Layout
open Relation (ReflTransGen TransGen)

variable {n : Nat}

/-- Each level is the length of a path into its place, and none is above the number of places. -/
def Attained (ls : List (Link n)) (levels : Vector Nat n) : Prop :=
  ∀ i : Fin n, levels.get i ≤ n ∧
    ∃ path, (path ++ [i]).IsChain (Step ls) ∧ path.length = levels.get i

theorem Attained.zero (ls : List (Link n)) : Attained ls (Vector.replicate n 0) := by
  intro i
  have level : (Vector.replicate n 0).get i = 0 := Vector.getElem_replicate i.isLt
  rw [level]
  exact ⟨Nat.zero_le n, [], List.isChain_singleton i, rfl⟩

theorem Attained.push {ls : List (Link n)} {levels : Vector Nat n} {source target : Fin n}
    (attained : Attained ls levels) (step : Step ls source target)
    (below : levels.get source < n) :
    Attained ls (levels.set target (levels.get source + 1) target.isLt) := by
  intro i
  by_cases same : i = target
  · subst same
    have level : (levels.set i (levels.get source + 1) i.isLt).get i = levels.get source + 1 :=
      Vector.getElem_set_self i.isLt
    obtain ⟨path, chain, long⟩ := (attained source).2
    rw [level]
    refine ⟨below, path ++ [source], ?_, by rw [List.length_append, long]; rfl⟩
    refine chain.append (List.isChain_singleton i) ?_
    intro x last y first
    rw [List.getLast?_concat, Option.mem_some_iff] at last
    rw [List.head?_singleton, Option.mem_some_iff] at first
    subst last first
    exact step
  · have other : target.val ≠ i.val := fun equal => same (Fin.ext equal.symm)
    have level : (levels.set target (levels.get source + 1) target.isLt).get i = levels.get i :=
      Vector.getElem_set_ne target.isLt i.isLt other
    rw [level]
    exact attained i

/-- Pushing the link changes nothing: its target lies below its source, or its source has reached
the cap without the link lying on a cycle. -/
def AtRest (all : List (Link n)) (levels : Vector Nat n) (l : Link n) : Prop :=
  levels.get l.source + 1 ≤ levels.get l.target ∨ n ≤ levels.get l.source ∧ ¬ Returns all l

/-- How a sweep over `ls` can end. -/
inductive SweepEnd (all ls : List (Link n)) (levels : Vector Nat n) : Bool → Sweep n → Prop
  | raised {changed after} : Attained all after →
      SweepEnd all ls levels changed (.levels after true)
  | quiet : (∀ l ∈ ls, AtRest all levels l) → SweepEnd all ls levels false (.levels levels false)
  | cycle {changed l} : l ∈ ls → Returns all l → SweepEnd all ls levels changed (.cycle l)

theorem SweepEnd.after_rest {all ls : List (Link n)} {levels : Vector Nat n} {changed : Bool}
    {result : Sweep n} {l : Link n} (later : SweepEnd all ls levels changed result)
    (rest : AtRest all levels l) : SweepEnd all (l :: ls) levels changed result := by
  cases later with
  | raised attained => exact .raised attained
  | quiet others => exact .quiet (List.forall_mem_cons.mpr ⟨rest, others⟩)
  | cycle member back => exact .cycle (List.mem_cons_of_mem l member) back

theorem SweepEnd.after_push {all ls : List (Link n)} {levels pushed : Vector Nat n} {changed : Bool}
    {result : Sweep n} {l : Link n} (later : SweepEnd all ls pushed true result) :
    SweepEnd all (l :: ls) levels changed result := by
  cases later with
  | raised attained => exact .raised attained
  | cycle member back => exact .cycle (List.mem_cons_of_mem l member) back

theorem sweep_ends {all ls : List (Link n)} {levels : Vector Nat n} (sub : ls ⊆ all)
    (attained : Attained all levels) (changed : Bool) :
    ∃ result, sweep n all ls levels changed = .ok result ∧
      SweepEnd all ls levels changed result := by
  induction ls generalizing levels changed with
  | nil =>
      refine ⟨.levels levels changed, rfl, ?_⟩
      cases changed with
      | false => exact .quiet (by simp)
      | true => exact .raised attained
  | cons l ls ih =>
      have member : l ∈ all := sub List.mem_cons_self
      have others : ls ⊆ all := fun m inside => sub (List.mem_cons_of_mem l inside)
      rw [sweep, closesCycle_eq]
      by_cases below : levels[l.source] + 1 ≤ levels[l.target]
      · obtain ⟨result, same, later⟩ := ih others attained changed
        exact ⟨result, by simp only [below, if_true, same], later.after_rest (.inl below)⟩
      -- at the cap the search decides, so a push that is skipped belongs to a link on no cycle
      · by_cases capped : n < levels[l.source] + 1
        · by_cases back : Returns all l
          · refine ⟨.cycle l, ?_, .cycle List.mem_cons_self back⟩
            simp only [below, capped, back, if_false, if_true, decide_true]
          · obtain ⟨result, same, later⟩ := ih others attained changed
            refine ⟨result, ?_, later.after_rest (.inr ⟨Nat.le_of_lt_succ capped, back⟩)⟩
            simp only [below, capped, back, if_false, if_true, decide_false, same]
        · have pushed : Attained all (levels.set l.target (levels[l.source] + 1)) :=
            attained.push (Step.of_mem member) (Nat.not_lt.mp capped)
          obtain ⟨result, same, later⟩ := ih others pushed true
          exact ⟨result, by simp only [below, capped, if_false, same], later.after_push⟩

/-- Levels that no push changes any more. -/
structure Settled (ls : List (Link n)) (levels : Vector Nat n) : Prop where
  attained : Attained ls levels
  rest : ∀ l ∈ ls, AtRest ls levels l

theorem settle_ends {ls : List (Link n)} {levels : Vector Nat n} (attained : Attained ls levels) :
    (∃ after, settle n ls levels = .ok (.levels after false) ∧ Settled ls after) ∨
      ∃ l ∈ ls, settle n ls levels = .ok (.cycle l) ∧ Returns ls l := by
  obtain ⟨result, same, sweepEnd⟩ := sweep_ends (List.Subset.refl ls) attained false
  induction levels using settle.induct n ls generalizing result with
  | case1 levels after swept ih =>
      rw [settle, swept]
      cases swept.symm.trans same
      cases sweepEnd with
      | raised higher =>
          obtain ⟨result, again, next⟩ := sweep_ends (List.Subset.refl ls) higher false
          exact ih higher result again next
  | case2 levels after swept =>
      rw [settle, swept]
      cases swept.symm.trans same
      cases sweepEnd with
      | quiet rest => exact .inl ⟨levels, rfl, attained, rest⟩
  | case3 levels l swept =>
      rw [settle, swept]
      cases swept.symm.trans same
      cases sweepEnd with
      | cycle member back => exact .inr ⟨l, member, rfl, back⟩
  | case4 levels fault swept => cases swept.symm.trans same

namespace Settled

variable {ls : List (Link n)} {levels : Vector Nat n}

theorem lt_of_returns (settled : Settled ls levels) {i j : Fin n} (step : Step ls i j)
    (back : ReflTransGen (Step ls) j i) : levels.get i < levels.get j := by
  obtain ⟨l, member, rfl, rfl⟩ := step
  exact (settled.rest l member).resolve_right fun passed => passed.2 back

theorem acyclic (settled : Settled ls levels) : Acyclic (Step ls) := by
  -- no link of a cycle rests at the cap, so levels would rise all around it
  have climbs : ∀ i j, TransGen (Step ls) i j → ReflTransGen (Step ls) j i →
      levels.get i < levels.get j := by
    intro i j path
    induction path with
    | single step => exact settled.lt_of_returns step
    | tail path step ih =>
        intro back
        have first := ih (ReflTransGen.head step back)
        exact first.trans (settled.lt_of_returns step (back.trans path.to_reflTransGen))
  exact fun i cycle => Nat.lt_irrefl _ (climbs i i cycle ReflTransGen.refl)

theorem level_lt (settled : Settled ls levels) (i : Fin n) : levels.get i < n := by
  obtain ⟨path, chain, long⟩ := (settled.attained i).2
  exact long ▸ settled.acyclic.length_lt chain

theorem lt_of_step (settled : Settled ls levels) {i j : Fin n} (step : Step ls i j) :
    levels.get i < levels.get j := by
  obtain ⟨l, member, rfl, rfl⟩ := step
  rcases settled.rest l member with below | passed
  · exact below
  · exact absurd (settled.level_lt l.source) (Nat.not_lt.mpr passed.1)

end Settled
end Flowchart.Layout
