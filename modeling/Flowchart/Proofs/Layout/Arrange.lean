import Flowchart.Layout
import Flowchart.Proofs.Layout.LongestPath
import Flowchart.Proofs.Layout.Row
/-! Arranging a diagram. It succeeds for distinct blocks, where they stood before does not matter,
and doing it again changes nothing. -/
namespace Flowchart.Layout

section Levels
variable {n : Nat}

/-- Without the links that were demoted, nothing is demoted and the levels are the same. -/
theorem resolve_again {size : Nat} {ls : List (Link n)} {values : Vector Nat n} {demoted : List Nat}
    (found : resolve size ls = .ok (values, demoted)) :
    resolve size (ls.filter fun l => !demoted.contains l.edge) = .ok (values, []) := by
  induction ls using resolve.induct size generalizing demoted with
  | case1 ls values changed settled =>
      rw [resolve, settled] at found
      cases found
      have all : (ls.filter fun l => !([] : List Nat).contains l.edge) = ls := by simp
      rw [all, resolve, settled]
  | case2 ls l settled values later rest ih =>
      rw [resolve, settled] at found
      simp only [rest] at found
      cases found
      rw [filter_cons_contains]
      exact ih rest
  | case3 ls l settled fault rest ih =>
      rw [resolve, settled] at found
      simp only [rest] at found
      cases found
  | case4 ls fault settled =>
      rw [resolve, settled] at found
      cases found

theorem levelsOf_mark {ids : List Nat} {edges : List Edge} {levels : Levels}
    (found : levelsOf ids edges = .ok levels) :
    levelsOf ids (levels.mark edges) = .ok { levels with demoted := [] } := by
  unfold levelsOf at found
  split at found
  · next values demoted resolved =>
    cases found
    rw [levelsOf, Levels.links_mark, resolve_again resolved]
  · cases found

end Levels

variable {α : Type} [Scalar α]

/-- The levels of distinct blocks exist, and blocks are placed by them. -/
theorem arrange_ends (config : Config α) {d : Diagram α} (distinct : (d.nodes.map (·.id)).Nodup) :
    ∃ levels, levelsOf (d.nodes.map (·.id)) d.edges = .ok levels ∧
      arrange config d =
        .ok ⟨⟨place config levels (levels.mark d.edges) d.nodes, levels.mark d.edges⟩, levels⟩ ∧
      LongestPaths (d.nodes.map (·.id)) (levels.mark d.edges) levels := by
  obtain ⟨values, demoted, left, found, run, settled⟩ := levelsOf_ends distinct d.edges
  refine ⟨_, found, ?_, run.longestPaths distinct settled⟩
  obtain ⟨nodes, edges⟩ := d
  cases nodes with
  | cons n nodes =>
      rw [arrange, found]
      rfl
  | nil =>
      -- without blocks there is nothing to demote, and the levels are the empty ones
      have none : demoted = [] := by
        refine List.eq_nil_iff_forall_not_mem.mpr ?_
        intro i member
        obtain ⟨e, _, cycle⟩ := run.onCycle member
        exact List.not_mem_nil cycle.source_mem
      subst none
      change Except.ok _ = Except.ok (Arrangement.mk ⟨[], Levels.mark ⟨[], []⟩ edges⟩ ⟨[], []⟩)
      rw [Levels.mark_nil]

section Places
variable (config : Config α) (levels : Levels) (edges : List Edge) (nodes : List (Node α))

/-- The block at the top left corner of the plane. -/
def unplaced (n : Node α) : Node α := n.moveTo 0 0

def unplacedRow (row : List (Nat × Node α)) : List (Nat × Node α) :=
  row.map fun p => (p.1, unplaced p.2)

theorem mergeSort_unplaced (center : Nat → α) (row : List (Nat × Node α)) :
    (unplacedRow row).mergeSort (fun (_, a) (_, b) => Scalar.precedes (center a.id) (center b.id)) =
      unplacedRow (row.mergeSort fun (_, a) (_, b) =>
        Scalar.precedes (center a.id) (center b.id)) := by
  refine (List.map_mergeSort ?_).symm
  intro p _ q _
  rfl

theorem rowAt_unplaced (center : Nat → α) (level : Nat) :
    rowAt levels center (nodes.map unplaced) level =
      unplacedRow (rowAt levels center nodes level) := by
  rw [rowAt, rowAt, ← mergeSort_unplaced, unplacedRow, List.zipIdx_map, List.map_map,
    List.filter_map, List.filter_map, List.map_map]
  rfl

theorem rows_unplaced (center : Nat → α) :
    rows levels center (nodes.map unplaced) = (rows levels center nodes).map unplacedRow := by
  have same : rowAt levels center (nodes.map unplaced) =
      unplacedRow ∘ rowAt levels center nodes := funext (rowAt_unplaced levels nodes center)
  rw [rows, rows, same, ← List.map_map, List.filter_map]
  congr 2
  funext row
  simp [unplacedRow]

theorem packRow_unplaced (gap : α) (center : Nat → α) (previous : Option (α × α))
    (row : List (Nat × Node α)) :
    packRow gap center previous (unplacedRow row) = packRow gap center previous row := by
  induction row generalizing previous with
  | nil => rfl
  | cons p row ih => exact congrArg (_ :: ·) (ih _)

theorem tallest_unplaced (row : List (Nat × Node α)) : tallest (unplacedRow row) = tallest row := by
  rw [tallest, unplacedRow, List.foldl_map]
  rfl

theorem stackRows_unplaced (center : Nat → α) (top : α) (rs : List (List (Nat × Node α))) :
    stackRows config center top (rs.map unplacedRow) = stackRows config center top rs := by
  induction rs generalizing top with
  | nil => rfl
  | cons row rs ih =>
      rw [List.map_cons, stackRows, stackRows, packRow_unplaced, tallest_unplaced, ih]

theorem treeCenter_unplaced :
    treeCenter config levels edges (nodes.map unplaced) = treeCenter config levels edges nodes := by
  simp only [treeCenter, treeCenters, treeWidths, List.map_map]
  rfl

theorem exists_corner (center : Nat → α) (top : α) {i : Nat} {n : Node α}
    (found : nodes[i]? = some n) :
    ∃ corner, (stackRows config center top (rows levels center nodes)).lookup i = some corner := by
  obtain ⟨row, member, inside⟩ := exists_row levels center found
  have known : i ∈ (stackRows config center top (rows levels center nodes)).map (·.1) := by
    rw [stackRows_keys]
    exact List.mem_map_of_mem (List.mem_flatten.mpr ⟨row, member, inside⟩)
  refine Option.ne_none_iff_exists'.mp fun absent => ?_
  obtain ⟨p, other, same⟩ := List.mem_map.mp known
  exact absurd (List.lookup_eq_none_iff.mp absent p other) (by simp [same])

/-- Where blocks stand does not matter for where they are placed. -/
theorem place_unplaced :
    place config levels edges (nodes.map unplaced) = place config levels edges nodes := by
  rw [place_eq, place_eq, treeRows, treeRows, treeCenter_unplaced, rows_unplaced,
    stackRows_unplaced, List.zipIdx_map, List.map_map]
  refine List.map_congr_left ?_
  rintro ⟨n, i⟩ member
  obtain ⟨corner, found⟩ := exists_corner config levels nodes (treeCenter config levels edges nodes)
    config.topMargin (List.mem_zipIdx_iff_getElem?.mp member)
  simp only [Function.comp_apply, Prod.map_apply, id, found]
  rfl

theorem map_unplaced_place :
    (place config levels edges nodes).map unplaced = nodes.map unplaced := by
  refine map_place config levels edges nodes ?_
  intro i k n row x placed landed
  rw [landed.moved]
  rfl

theorem place_again :
    place config levels edges (place config levels edges nodes) =
      place config levels edges nodes := by
  rw [← place_unplaced, map_unplaced_place, place_unplaced]

end Places

/-- Arranging moves blocks and marks connections, and changes nothing else. -/
theorem arrange_moves {config : Config α} {d : Diagram α} {a : Arrangement α}
    (arranged : arrange config d = .ok a) :
    a.diagram.nodes.map unplaced = d.nodes.map unplaced ∧
      a.diagram.edges = a.levels.mark d.edges := by
  unfold arrange at arranged
  split at arranged
  · cases arranged
    exact ⟨rfl, (Levels.mark_nil _ _).symm⟩
  · split at arranged
    · cases arranged
      exact ⟨map_unplaced_place .., rfl⟩
    · cases arranged

/-- Blocks that differ in their places alone. -/
theorem forall₂_moveTo {before after : List (Node α)}
    (same : after.map unplaced = before.map unplaced) :
    List.Forall₂ (fun m n => n = m.moveTo n.box.x n.box.y) before after := by
  have alike := List.forall₂_map_left_iff.mp
    (List.forall₂_map_right_iff.mp (List.forall₂_eq_eq_eq ▸ same.symm))
  refine alike.imp ?_
  intro m n same
  -- back from the corner of the plane, where both are the same block
  exact congrArg (fun k => k.moveTo n.box.x n.box.y) same.symm

theorem arrange_ids {config : Config α} {d : Diagram α} {a : Arrangement α}
    (arranged : arrange config d = .ok a) :
    a.diagram.nodes.map (·.id) = d.nodes.map (·.id) := by
  have same := congrArg (List.map (·.id)) (arrange_moves arranged).1
  rwa [List.map_map, List.map_map] at same

/-- Arranged blocks have no cycle of forward connections. -/
theorem arrange_acyclic {config : Config α} {d : Diagram α} {a : Arrangement α}
    (distinct : (d.nodes.map (·.id)).Nodup) (arranged : arrange config d = .ok a) :
    Acyclic (Forward (d.nodes.map (·.id)) a.diagram.edges) := by
  obtain ⟨levels, -, placed, paths⟩ := arrange_ends config distinct
  cases placed.symm.trans arranged
  exact paths.acyclic

/-- Where no cycle is to be broken the connections stay as they are. -/
theorem arrange_edges_of_acyclic {config : Config α} {d : Diagram α} {a : Arrangement α}
    (distinct : (d.nodes.map (·.id)).Nodup)
    (acyclic : Acyclic (Forward (d.nodes.map (·.id)) d.edges))
    (arranged : arrange config d = .ok a) : a.diagram.edges = d.edges := by
  obtain ⟨values, demoted, left, found, run, -⟩ := levelsOf_ends distinct d.edges
  obtain rfl := run.eq_nil acyclic
  obtain ⟨levels, other, placed, -⟩ := arrange_ends config distinct
  cases placed.symm.trans arranged
  cases found.symm.trans other
  exact Levels.mark_nil d.edges _

/-- Arranging again changes nothing, and nothing is left to demote. -/
theorem arrange_again {config : Config α} {d : Diagram α} {a : Arrangement α}
    (arranged : arrange config d = .ok a) :
    arrange config a.diagram = .ok { a with levels := { a.levels with demoted := [] } } := by
  unfold arrange at arranged
  split at arranged
  · next empty =>
    cases arranged
    rw [arrange, if_pos empty]
  · next some =>
    split at arranged
    · next levels found =>
      cases arranged
      have kept : ¬ (place config levels (levels.mark d.edges) d.nodes).isEmpty = true := by
        rw [List.isEmpty_iff_length_eq_zero, length_place, ← List.isEmpty_iff_length_eq_zero]
        exact some
      rw [arrange, if_neg kept, place_ids, levelsOf_mark found]
      simp only [Levels.mark_nil]
      rw [show place config { levels with demoted := [] } = place config levels from rfl,
        place_again]
    · cases arranged

end Flowchart.Layout
