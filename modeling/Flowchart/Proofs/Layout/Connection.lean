import Flowchart.Proofs.Layout.Reach
import Flowchart.Proofs.Lookup
/-! The connections that links stand for. A step along a link is a forward connection between two
blocks that exist, and marking demoted connections takes exactly their links away. -/
namespace Flowchart.Layout
open Relation (ReflTransGen)

/-- A forward connection leads from `a` to `b`, and both are numbers of blocks. -/
def Forward (ids : List Nat) (edges : List Edge) (a b : Nat) : Prop :=
  ∃ e ∈ edges, e.back = false ∧ e.source = a ∧ e.target = b ∧ a ∈ ids ∧ b ∈ ids

theorem getElem_of_place? {id : Nat} {ids : List Nat} {i : Fin ids.length}
    (found : place? id ids = some i) : ids.get i = id := by
  induction ids with
  | nil => simp [place?] at found
  | cons x xs ih =>
      cases later : place? id xs with
      | some j =>
          simp only [place?, later, Option.some.injEq] at found
          subst found
          exact ih later
      | none =>
          simp only [place?, later, Option.ite_none_right_eq_some, Option.some.injEq,
            beq_iff_eq] at found
          obtain ⟨same, rfl⟩ := found
          exact same

theorem exists_place? {id : Nat} {ids : List Nat} (member : id ∈ ids) :
    ∃ i, place? id ids = some i := by
  induction ids with
  | nil => simp at member
  | cons x xs ih =>
      cases later : place? id xs with
      | some j => exact ⟨j.succ, by simp only [place?, later]⟩
      | none =>
          rcases List.mem_cons.mp member with rfl | inside
          · exact ⟨⟨0, by simp⟩, by simp [place?, later]⟩
          · obtain ⟨j, found⟩ := ih inside
            simp [later] at found

theorem mem_links {ids : List Nat} {edges : List Edge} {l : Link ids.length} :
    l ∈ links ids edges ↔ ∃ e, edges[l.edge]? = some e ∧ e.back = false ∧
      place? e.source ids = some l.source ∧ place? e.target ids = some l.target := by
  simp only [links, List.mem_filterMap, List.mem_zipIdx_iff_getElem?, Prod.exists]
  constructor
  · rintro ⟨e, i, present, made⟩
    cases back : e.back with
    | true => simp [back] at made
    | false =>
        cases source : place? e.source ids <;> cases target : place? e.target ids <;>
          simp only [back, source, target, Bool.false_eq_true, if_false, reduceCtorEq,
            Option.some.injEq] at made
        subst made
        exact ⟨e, present, back, source, target⟩
  · rintro ⟨e, present, back, source, target⟩
    exact ⟨e, l.edge, present, by simp only [back, source, target, Bool.false_eq_true, if_false]⟩

theorem forward_of_step {ids : List Nat} {edges : List Edge} {i j : Fin ids.length}
    (step : Step (links ids edges) i j) : Forward ids edges (ids.get i) (ids.get j) := by
  obtain ⟨l, member, rfl, rfl⟩ := step
  obtain ⟨e, present, back, source, target⟩ := mem_links.mp member
  exact ⟨e, List.mem_of_getElem? present, back, (getElem_of_place? source).symm,
    (getElem_of_place? target).symm, List.getElem_mem _, List.getElem_mem _⟩

theorem step_of_forward {ids : List Nat} {edges : List Edge} {a b : Nat}
    (forward : Forward ids edges a b) :
    ∃ i j : Fin ids.length, ids.get i = a ∧ ids.get j = b ∧ Step (links ids edges) i j := by
  obtain ⟨e, member, back, rfl, rfl, sourceMem, targetMem⟩ := forward
  obtain ⟨k, present⟩ := List.getElem?_of_mem member
  obtain ⟨i, source⟩ := exists_place? sourceMem
  obtain ⟨j, target⟩ := exists_place? targetMem
  refine ⟨i, j, getElem_of_place? source, getElem_of_place? target, ⟨k, i, j⟩, ?_, rfl, rfl⟩
  exact mem_links.mpr ⟨e, present, back, source, target⟩

theorem reach_of_steps {ids : List Nat} {edges : List Edge} {i j : Fin ids.length}
    (path : ReflTransGen (Step (links ids edges)) i j) :
    ReflTransGen (Forward ids edges) (ids.get i) (ids.get j) :=
  ReflTransGen.lift ids.get (fun _ _ step => forward_of_step step) _ _
    path

namespace Levels

theorem getElem?_mark (levels : Levels) (edges : List Edge) (i : Nat) :
    (levels.mark edges)[i]? = edges[i]?.map fun e =>
      if i ∈ levels.demoted then { e with back := true } else e := by
  simp only [mark, List.getElem?_map, List.getElem?_zipIdx, Option.map_map, Nat.zero_add,
    List.contains_iff_mem]
  rfl

/-- Marking takes the links of the demoted connections away and leaves the others in order. -/
theorem links_mark (levels : Levels) (ids : List Nat) (edges : List Edge) :
    links ids (levels.mark edges) =
      (links ids edges).filter fun l => !levels.demoted.contains l.edge := by
  have indexed : ∀ k, ((edges.zipIdx k).map fun p =>
      if levels.demoted.contains p.2 then { p.1 with back := true } else p.1).zipIdx k =
      (edges.zipIdx k).map fun p =>
        (if levels.demoted.contains p.2 then { p.1 with back := true } else p.1, p.2) := by
    intro k
    induction edges generalizing k with
    | nil => rfl
    | cons e edges ih => simp only [List.zipIdx_cons, List.map_cons, ih]
  simp only [links, mark, indexed, List.filterMap_map, List.filter_filterMap]
  refine List.filterMap_congr ?_
  rintro ⟨e, i⟩ _
  by_cases demoted : i ∈ levels.demoted <;> cases back : e.back <;>
    cases source : place? e.source ids <;> cases target : place? e.target ids <;>
    simp [Option.filter, demoted, back, source, target]

theorem get_zip {ids : List Nat} (distinct : ids.Nodup) (values : Vector Nat ids.length)
    (demoted : List Nat) (i : Fin ids.length) :
    (Levels.mk (ids.zip values.toList) demoted).get (ids.get i) = values.get i := by
  have keys : (ids.zip values.toList).map (·.1) = ids := List.map_fst_zip (by simp)
  have member : (ids.get i, values.get i) ∈ ids.zip values.toList := by
    refine List.mem_iff_getElem.mpr ⟨i, by simp, ?_⟩
    simp [Vector.get]
  have found := reverse_find?_of_nodup_map (·.1) (keys.symm ▸ distinct) member
  simp only [get]
  rw [found, Option.map_some, Option.getD_some]

end Levels
end Flowchart.Layout
