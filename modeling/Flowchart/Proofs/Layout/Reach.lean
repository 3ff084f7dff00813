import Flowchart.Layout.Level
import Mathlib.Data.Fintype.Card
import Mathlib.Data.List.Chain
import Mathlib.Logic.Relation
/-! Paths over links and the search for them. With one table entry for each place the search always
answers, and its answer is yes exactly when a path leads from its stack to the goal. -/
namespace Flowchart.Layout
open Relation (ReflTransGen TransGen)

/-- No path of one step or more comes back to its start. -/
def Acyclic {β : Type} (r : β → β → Prop) : Prop := ∀ x, ¬ TransGen r x x

theorem acyclic_of_lt {β : Type} {r : β → β → Prop} (rank : β → Nat)
    (grows : ∀ x y, r x y → rank x < rank y) : Acyclic r := by
  have longer : ∀ x y, TransGen r x y → rank x < rank y := by
    intro x y path
    induction path with
    | single step => exact grows _ _ step
    | tail _ step ih => exact ih.trans (grows _ _ step)
  exact fun x cycle => Nat.lt_irrefl _ (longer x x cycle)

theorem Acyclic.nodup {β : Type} {r : β → β → Prop} (acyclic : Acyclic r) {path : List β}
    (chain : path.IsChain r) : path.Nodup := by
  have connected : path.Pairwise (TransGen r) :=
    List.isChain_iff_pairwise.mp (chain.imp fun _ _ step => TransGen.single step)
  refine connected.imp ?_
  intro x y later same
  exact acyclic x (same ▸ later)

/-- Without cycles a path into one of `n` places has fewer than `n` steps. -/
theorem Acyclic.length_lt {n : Nat} {r : Fin n → Fin n → Prop} (acyclic : Acyclic r)
    {path : List (Fin n)} {i : Fin n} (chain : (path ++ [i]).IsChain r) : path.length < n := by
  have short := (acyclic.nodup chain).length_le_card
  rw [List.length_append, List.length_singleton, Fintype.card_fin] at short
  exact short

variable {n : Nat}

def Step (ls : List (Link n)) (i j : Fin n) : Prop := ∃ l ∈ ls, l.source = i ∧ l.target = j

theorem Step.of_mem {ls : List (Link n)} {l : Link n} (member : l ∈ ls) :
    Step ls l.source l.target := ⟨l, member, rfl, rfl⟩

theorem Step.mono {ls ms : List (Link n)} (sub : ls ⊆ ms) {i j : Fin n} (step : Step ls i j) :
    Step ms i j := by
  obtain ⟨l, member, source, target⟩ := step
  exact ⟨l, sub member, source, target⟩

theorem mem_successors {ls : List (Link n)} {i j : Fin n} :
    j ∈ successors ls i ↔ Step ls i j := by
  simp only [successors, Step, List.mem_map, List.mem_filter, beq_iff_eq, and_assoc]

/-- The target of a link leads back to its source. -/
def Returns (ls : List (Link n)) (l : Link n) : Prop := ReflTransGen (Step ls) l.target l.source

theorem Returns.mono {ls ms : List (Link n)} (sub : ls ⊆ ms) {l : Link n} (back : Returns ls l) :
    Returns ms l := ReflTransGen.mono (fun _ _ step => Step.mono sub step) _ _ back

/-- What a search has expanded is not the goal, and its successors are not forgotten. -/
def Expanded (ls : List (Link n)) (goal : Fin n) (seen stack : List (Fin n)) : Prop :=
  ∀ i ∈ seen, i ≠ goal ∧ ∀ j, Step ls i j → j ∈ seen ∨ j ∈ stack

theorem Expanded.exists_stack {ls : List (Link n)} {goal : Fin n} {seen stack : List (Fin n)}
    (expanded : Expanded ls goal seen stack) {i : Fin n} (member : i ∈ seen)
    (path : ReflTransGen (Step ls) i goal) : ∃ j ∈ stack, ReflTransGen (Step ls) j goal := by
  induction path using ReflTransGen.head_induction_on with
  | refl => exact absurd rfl (expanded goal member).1
  | head step rest ih =>
      rcases (expanded _ member).2 _ step with inside | onStack
      · exact ih inside
      · exact ⟨_, onStack, rest⟩

theorem Expanded.skip {ls : List (Link n)} {goal i : Fin n} {seen stack : List (Fin n)}
    (expanded : Expanded ls goal seen (i :: stack)) (member : i ∈ seen) :
    Expanded ls goal seen stack := by
  intro k visited
  refine ⟨(expanded k visited).1, ?_⟩
  intro j step
  rcases (expanded k visited).2 j step with inside | onStack
  · exact .inl inside
  · rcases List.mem_cons.mp onStack with rfl | later
    · exact .inl member
    · exact .inr later

theorem Expanded.expand {ls : List (Link n)} {goal i : Fin n} {seen stack : List (Fin n)}
    (expanded : Expanded ls goal seen (i :: stack)) (other : i ≠ goal) :
    Expanded ls goal (i :: seen) ((successors ls i).reverse ++ stack) := by
  intro k visited
  rcases List.mem_cons.mp visited with rfl | earlier
  · refine ⟨other, fun j step => .inr ?_⟩
    exact List.mem_append_left _ (List.mem_reverse.mpr (mem_successors.mpr step))
  · refine ⟨(expanded k earlier).1, ?_⟩
    intro j step
    rcases (expanded k earlier).2 j step with inside | onStack
    · exact .inl (List.mem_cons_of_mem _ inside)
    · rcases List.mem_cons.mp onStack with rfl | later
      · exact .inl List.mem_cons_self
      · exact .inr (List.mem_append_right _ later)

/-- The search answers, and it answers whether the goal can be reached from the stack. -/
theorem search_spec (ls : List (Link n)) (goal : Fin n) (seen stack : List (Fin n))
    (expanded : Expanded ls goal seen stack) :
    ∃ found, search n ls goal seen stack = .ok found ∧
      (found = true ↔ ∃ i ∈ stack, ReflTransGen (Step ls) i goal) := by
  induction seen, stack using search.induct n ls goal with
  | case1 seen => exact ⟨false, by rw [search], by simp⟩
  | case2 seen stack =>
      exact ⟨true, by rw [search, if_pos rfl], by simp [ReflTransGen.refl]⟩
  -- the table has an entry for every place
  | case3 seen i stack other outside => exact absurd i.isLt (Nat.not_lt.mpr outside)
  | case4 seen i stack other inside member ih =>
      obtain ⟨found, same, answer⟩ := ih (expanded.skip member)
      refine ⟨found, by rw [search, if_neg other, if_neg inside, dif_pos member, same], ?_⟩
      rw [answer, List.exists_mem_cons_iff]
      -- a path from a place seen before goes on through the stack
      exact ⟨.inr, fun either => either.elim (expanded.skip member |>.exists_stack member) id⟩
  | case5 seen i stack other inside fresh ih =>
      obtain ⟨found, same, answer⟩ := ih (expanded.expand other)
      refine ⟨found, by rw [search, if_neg other, if_neg inside, dif_neg fresh, same], ?_⟩
      rw [answer, List.exists_mem_cons_iff, ReflTransGen.cases_head_iff]
      constructor
      · rintro ⟨j, member, path⟩
        rcases List.mem_append.mp member with next | later
        · exact .inl (.inr ⟨j, mem_successors.mp (List.mem_reverse.mp next), path⟩)
        · exact .inr ⟨j, later, path⟩
      · rintro ((same | ⟨j, step, path⟩) | ⟨j, later, path⟩)
        · exact absurd same other
        · exact ⟨j, List.mem_append_left _ (List.mem_reverse.mpr (mem_successors.mpr step)), path⟩
        · exact ⟨j, List.mem_append_right _ later, path⟩

open Classical in
theorem closesCycle_eq (ls : List (Link n)) (l : Link n) :
    closesCycle n ls l = .ok (decide (Returns ls l)) := by
  obtain ⟨found, same, answer⟩ := search_spec ls l.source [] [l.target] (by simp [Expanded])
  rw [closesCycle, same]
  congr 1
  rw [Bool.eq_iff_iff, answer, decide_eq_true_iff]
  simp [Returns]

end Flowchart.Layout
