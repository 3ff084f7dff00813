import Flowchart.Proofs.Layout.Work
/-! The table of a search. It is read at places and has one entry for each number, so it is too
short where blocks share a number. With a table of any size a search gives the answer it has with an
entry for each place, or it meets a place beyond the table. No search starts before a level has
reached the number of places, so the place it meets lies behind a cycle. -/
namespace Flowchart.Layout
open Relation (ReflTransGen TransGen)

variable {n : Nat}

section Search
variable {ls : List (Link n)} {goal : Fin n} {seen stack expanded : List (Fin n)} {found : Bool}

/-- The first place to be expanded that is beyond the table stops the search. -/
theorem Explores.search_table (explores : Explores ls goal seen stack expanded found) {size : Nat}
    (recorded : ∀ i ∈ seen, i.val < size) :
    search size ls goal seen stack =
      match expanded.find? fun i => decide (size ≤ i.val) with
      | some p => .error (.outsideTable p size)
      | none => .ok found := by
  induction explores with
  | exhausted => rw [search]; rfl
  | reached => rw [search, if_pos rfl]; rfl
  | @skip _ _ _ _ i other member _ ih =>
    rw [search, if_neg other, if_neg (Nat.not_le.mpr (recorded i member)), dif_pos member,
      ih recorded]
  | @expand _ _ _ _ i other fresh _ ih =>
    rw [search, if_neg other]
    by_cases beyond : size ≤ i.val
    · rw [if_pos beyond, List.find?_cons_of_pos (by simpa using beyond)]
    · rw [if_neg beyond, dif_neg fresh, List.find?_cons_of_neg (by simpa using beyond)]
      exact ih (List.forall_mem_cons.mpr ⟨Nat.not_le.mp beyond, recorded⟩)

theorem Explores.reaches (explores : Explores ls goal seen stack expanded found) {p : Fin n}
    (member : p ∈ expanded) : ∃ i ∈ stack, ReflTransGen (Step ls) i p := by
  induction explores with
  | exhausted => cases member
  | reached => cases member
  | skip _ _ _ ih =>
    obtain ⟨i, waiting, path⟩ := ih member
    exact ⟨i, List.mem_cons_of_mem _ waiting, path⟩
  | @expand _ _ _ _ top _ _ _ ih =>
    rcases List.mem_cons.mp member with rfl | later
    · exact ⟨p, List.mem_cons_self, .refl⟩
    · obtain ⟨i, waiting, path⟩ := ih later
      rcases List.mem_append.mp waiting with next | below
      · have step := mem_successors.mp (List.mem_reverse.mp next)
        exact ⟨top, List.mem_cons_self, .head step path⟩
      · exact ⟨i, List.mem_cons_of_mem _ below, path⟩

end Search

section Behind
variable {ls ms : List (Link n)} {p q : Fin n}

/-- A path leads from a cycle to the place. -/
def Behind (ls : List (Link n)) (p : Fin n) : Prop :=
  ∃ i, TransGen (Step ls) i i ∧ ReflTransGen (Step ls) i p

theorem Behind.mono (sub : ls ⊆ ms) (behind : Behind ls p) : Behind ms p := by
  obtain ⟨i, cycle, path⟩ := behind
  have steps : ∀ a b, Step ls a b → Step ms a b := fun _ _ step => step.mono sub
  exact ⟨i, TransGen.mono steps _ _ cycle, ReflTransGen.mono steps _ _ path⟩

theorem Behind.trans (behind : Behind ls p) (path : ReflTransGen (Step ls) p q) : Behind ls q := by
  obtain ⟨i, cycle, first⟩ := behind
  exact ⟨i, cycle, first.trans path⟩

theorem Behind.exists_link (behind : Behind ls p) : ∃ l ∈ ls, l.target = p := by
  obtain ⟨i, cycle, path⟩ := behind
  obtain ⟨_, -, l, member, -, target⟩ := TransGen.tail'_iff.mp (cycle.trans_left path)
  exact ⟨l, member, target⟩

/-- A level as high as the number of places is the length of a path that runs through a cycle. -/
theorem Attained.behind {levels : Vector Nat n} (attained : Attained ls levels)
    (high : n ≤ levels.get p) : Behind ls p := by
  obtain ⟨path, chain, long⟩ := (attained p).2
  -- the steps that lead on to the place
  let Toward (x y : Fin n) : Prop := Step ls x y ∧ ReflTransGen (Step ls) y p
  have leads : ∀ x ∈ path ++ [p], ReflTransGen (Step ls) x p := by
    refine List.IsChain.backwards_induction _ _ chain (fun _ _ step rest => .head step rest) ?_
    intro _
    rw [List.getLast_append_singleton]
  have toward : (path ++ [p]).IsChain Toward :=
    chain.imp_of_mem_imp fun x y _ inside step => ⟨step, leads y inside⟩
  have cyclic : ¬ Acyclic Toward := fun acyclic =>
    absurd (acyclic.length_lt toward) (Nat.not_lt.mpr (long ▸ high))
  obtain ⟨x, cycle⟩ := not_forall_not.mp cyclic
  obtain ⟨_, -, -, path⟩ := TransGen.tail'_iff.mp cycle
  exact ⟨x, TransGen.mono (fun _ _ step => step.1) _ _ cycle, path⟩

end Behind

section Within
variable {size : Nat} {all ls : List (Link n)} {levels : Vector Nat n}

/-- With a short table the result is the same as with a full one, unless a place behind a cycle lies
beyond the table. -/
def Within {β : Type} (size : Nat) (ls : List (Link n)) (short full : Except Fault β) : Prop :=
  short = full ∨ ∃ p : Fin n, short = .error (.outsideTable p size) ∧ size ≤ p.val ∧ Behind ls p

theorem closesCycle_within (size : Nat) {l : Link n} (member : l ∈ ls)
    (behind : Behind ls l.source) :
    Within size ls (closesCycle size ls l) (closesCycle n ls l) := by
  obtain ⟨expanded, found, explores⟩ := exists_explores ls l.source [] [l.target]
  have none : ∀ i ∈ ([] : List (Fin n)), i.val < size := List.forall_mem_nil _
  have short := explores.search_table none
  rw [Within, closesCycle, closesCycle, explores.search_eq, short]
  cases first : expanded.find? fun i => decide (size ≤ i.val) with
  | none => exact .inl rfl
  | some p =>
    obtain ⟨i, waiting, path⟩ := explores.reaches (List.mem_of_find?_eq_some first)
    obtain rfl := List.mem_singleton.mp waiting
    have beyond : size ≤ p.val := by simpa using List.find?_some first
    exact .inr ⟨p, rfl, beyond, behind.trans (.head (Step.of_mem member) path)⟩

theorem sweep_within (size : Nat) (sub : ls ⊆ all) (attained : Attained all levels)
    (changed : Bool) :
    Within size all (sweep size all ls levels changed) (sweep n all ls levels changed) := by
  induction ls generalizing levels changed with
  | nil => exact .inl rfl
  | cons l ls ih =>
    obtain ⟨member, others⟩ := List.cons_subset.mp sub
    rw [sweep, sweep]
    by_cases below : levels[l.source] + 1 ≤ levels[l.target]
    · simp only [below, if_true]
      exact ih others attained changed
    by_cases capped : n < levels[l.source] + 1
    · simp only [below, capped, if_true, if_false]
      have behind := attained.behind (Nat.le_of_lt_succ capped)
      rcases closesCycle_within size member behind with same | ⟨p, short, beyond⟩
      · rw [same]
        split
        · exact .inl rfl
        · exact ih others attained changed
        · exact .inl rfl
      · rw [short]
        exact .inr ⟨p, rfl, beyond⟩
    · simp only [below, capped, if_false]
      exact ih others (attained.push (Step.of_mem member) (Nat.not_lt.mp capped)) true

theorem settle_within (size : Nat) (attained : Attained ls levels) :
    Within size ls (settle size ls levels) (settle n ls levels) := by
  have within := sweep_within size (List.Subset.refl ls) attained false
  induction levels using settle.induct n ls with
  | case1 levels after swept ih =>
    rw [settle, settle, swept]
    rcases within with same | ⟨p, short, beyond⟩
    · have higher := attained.sweep (List.Subset.refl ls) swept
      rw [same, swept]
      exact ih higher (sweep_within size (List.Subset.refl ls) higher false)
    · rw [short]
      exact .inr ⟨p, rfl, beyond⟩
  | case2 levels after swept | case3 levels l swept | case4 levels fault swept =>
    rw [settle, settle, swept]
    rcases within with same | ⟨p, short, beyond⟩
    · rw [same, swept]
      exact .inl rfl
    · rw [short]
      exact .inr ⟨p, rfl, beyond⟩

theorem resolve_within (size : Nat) (ls : List (Link n)) :
    Within size ls (resolve size ls) (resolve n ls) := by
  induction ls using resolve.induct n with
  | case1 ls values changed settled | case4 ls fault settled =>
    rw [resolve, resolve, settled]
    rcases settle_within size (Attained.zero ls) with same | ⟨p, short, beyond⟩
    · rw [same, settled]
      exact .inl rfl
    · rw [short]
      exact .inr ⟨p, rfl, beyond⟩
  | case2 ls l settled values demoted rest ih | case3 ls l settled fault rest ih =>
    rw [resolve, resolve, settled]
    rcases settle_within size (Attained.zero ls) with same | ⟨p, short, beyond⟩
    · rw [same, settled]
      simp only [rest]
      rcases ih with again | ⟨p, short, beyond, behind⟩
      · rw [again, rest]
        exact .inl rfl
      · rw [short]
        exact .inr ⟨p, rfl, beyond, behind.mono (List.filter_subset_self _)⟩
    · rw [short]
      exact .inr ⟨p, rfl, beyond⟩

end Within

section Numbers
variable {ids : List Nat} {edges : List Edge}

/-- Some blocks share a number, the block at `p` lies beyond the table and is the last one with its
number, and forward connections lead to it from a cycle. -/
structure Strays (ids : List Nat) (edges : List Edge) (p : Fin ids.length) : Prop where
  repeated : ¬ ids.Nodup
  beyond : tableSize ids ≤ p.val
  last : place? (ids.get p) ids = some p
  behind : ∃ c, TransGen (Forward ids edges) c c ∧ ReflTransGen (Forward ids edges) c (ids.get p)

theorem strays_of_behind {p : Fin ids.length} (beyond : tableSize ids ≤ p.val)
    (behind : Behind (links ids edges) p) : Strays ids edges p := by
  obtain ⟨l, member, rfl⟩ := behind.exists_link
  obtain ⟨e, -, -, -, target⟩ := mem_links.mp member
  obtain ⟨c, cycle, path⟩ := behind
  constructor
  case repeated =>
    intro distinct
    rw [tableSize_of_nodup distinct] at beyond
    exact absurd l.target.isLt (Nat.not_lt.mpr beyond)
  case beyond => exact beyond
  case last => exact getElem_of_place? target ▸ target
  case behind =>
    refine ⟨ids.get c, ?_, reach_of_steps path⟩
    exact TransGen.lift ids.get (fun _ _ step => forward_of_step step) _ _ cycle

/-- Levels are found as with an entry for each place, unless a block strays. -/
theorem levelsOf_table (ids : List Nat) (edges : List Edge) :
    (∃ values demoted left, resolve ids.length (links ids edges) = .ok (values, demoted) ∧
      Demotes (links ids edges) demoted left ∧
      levelsOf ids edges = .ok ⟨ids.zip values.toList, demoted⟩) ∨
    ∃ p : Fin ids.length, levelsOf ids edges = .error (.outsideTable p (tableSize ids)) ∧
      Strays ids edges p := by
  obtain ⟨values, demoted, left, full, run, -⟩ := resolve_ends (links ids edges)
  rcases resolve_within (tableSize ids) (links ids edges) with same | ⟨p, short, beyond, behind⟩
  · exact .inl ⟨values, demoted, left, full, run, by rw [levelsOf, same, full]⟩
  · exact .inr ⟨p, by rw [levelsOf, short], strays_of_behind beyond behind⟩

end Numbers
end Flowchart.Layout
