import Flowchart.Scene
import Flowchart.Proofs.Script.Declaration
import Flowchart.Proofs.Script.Walk
/-! Diagrams that come from scripts. Whatever the text, the blocks are numbered in order and read
from tokens of their own, every connection leads from block to block, and a scene of the diagram
leaves nothing out. -/
namespace Flowchart
open Script (CleanLabel readBlock?)
open Text (strip)

namespace Edge

theorem sameConnection_eq_false {e f : Edge} : e.sameConnection f = false ↔
    (e.source, e.target, e.label) ≠ (f.source, f.target, f.label) := by
  simp [sameConnection]

end Edge

namespace Scene

variable {α : Type}

theorem foldl_addEdge {nodes : List (Node α)} {kept later : List Edge}
    (ends : ∀ e ∈ later, ∃ m n : Node α, nodes.find? (·.id == e.source) = some m ∧
      nodes.find? (·.id == e.target) = some n)
    (distinct : (kept ++ later).Pairwise fun e f => e.sameConnection f = false) :
    later.foldl (fun d e => (d.addEdge? e).getD d) (⟨nodes, kept⟩ : Diagram α) =
      ⟨nodes, kept ++ later⟩ := by
  induction later generalizing kept with
  | nil => rw [List.foldl_nil, List.append_nil]
  | cons e later ih =>
      obtain ⟨m, n, source, target⟩ := ends e List.mem_cons_self
      have fresh := Script.any_sameConnection_eq_false distinct
      have added : (⟨nodes, kept⟩ : Diagram α).addEdge? e = some ⟨nodes, kept ++ [e]⟩ := by
        simp only [Diagram.addEdge?, Diagram.node?, source, target, fresh, Option.isNone_some,
          Bool.or_false, Bool.false_eq_true, if_false]
      rw [List.foldl_cons, added, Option.getD_some, ih, List.append_assoc, List.singleton_append]
      · exact fun f member => ends f (List.mem_cons_of_mem e member)
      · rwa [List.append_assoc, List.singleton_append]

/-- Where both ends of every connection exist and no two connections are the same, a scene keeps
the diagram as it is. -/
theorem ofDiagram_eq {d : Diagram α}
    (ends : ∀ e ∈ d.edges, ∃ m n, d.node? e.source = some m ∧ d.node? e.target = some n)
    (distinct : d.edges.Pairwise fun e f => e.sameConnection f = false) :
    ofDiagram d = { diagram := d } := by
  have all := @foldl_addEdge α d.nodes [] d.edges ends distinct
  rw [ofDiagram, all, List.nil_append]

end Scene

namespace Diagram

variable {α : Type}

/-- Blocks are numbered by their places, and each is what its token says; no two tokens are equal
when blanks do not count. Connections lead from block to block and differ from each other, and
their labels are trimmed and never empty. -/
structure WellFormed (d : Diagram α) : Prop where
  ids : d.nodes.map (·.id) = List.range d.nodes.length
  tokens_distinct : d.nodes.Pairwise fun m n => strip m.token.toList ≠ strip n.token.toList
  blocks_read : ∀ n ∈ d.nodes, readBlock? n.token.toList = some n.toBlock
  ends_lt : ∀ e ∈ d.edges, e.source < d.nodes.length ∧ e.target < d.nodes.length
  edges_distinct : d.edges.Pairwise fun e f =>
    (e.source, e.target, e.label) ≠ (f.source, f.target, f.label)
  labels_clean : ∀ e ∈ d.edges, CleanLabel e.label

theorem WellFormed.exists_node {d : Diagram α} (formed : d.WellFormed) {id : Nat}
    (inside : id < d.nodes.length) : ∃ n, d.node? id = some n := by
  have member : id ∈ d.nodes.map (·.id) := formed.ids ▸ List.mem_range.mpr inside
  obtain ⟨n, present, rfl⟩ := List.mem_map.mp member
  refine Option.isSome_iff_exists.mp (List.find?_isSome.mpr ⟨n, present, ?_⟩)
  exact beq_self_eq_true n.id

theorem WellFormed.ofDiagram_eq {d : Diagram α} (formed : d.WellFormed) :
    Scene.ofDiagram d = { diagram := d } := by
  refine Scene.ofDiagram_eq ?_ (formed.edges_distinct.imp Edge.sameConnection_eq_false.mpr)
  intro e member
  obtain ⟨m, source⟩ := formed.exists_node (formed.ends_lt e member).1
  obtain ⟨n, target⟩ := formed.exists_node (formed.ends_lt e member).2
  exact ⟨m, n, source, target⟩

end Diagram

namespace Script

variable {α : Type} [Scalar α]

namespace Chart

theorem ids_nodes (c : Chart) :
    (c.nodes : List (Node α)).map (·.id) = List.range c.blocks.length := by
  rw [nodes, List.map_map, List.range_eq_range', ← List.zipIdx_map_snd 0 c.blocks]
  rfl

theorem blocks_nodes (c : Chart) : (c.nodes : List (Node α)).map (·.toBlock) = c.blocks := by
  rw [nodes, List.map_map]
  exact List.zipIdx_map_fst 0 c.blocks

theorem length_nodes (c : Chart) : (c.nodes : List (Node α)).length = c.blocks.length := by
  rw [nodes, List.length_map, List.length_zipIdx]

end Chart

theorem edges_parse_valid (source : String) :
    ∃ w : Walk, w.Valid (parse source).blocks.length ∧ w.edges = (parse source).edges :=
  ⟨_, Walk.Valid.start.run _, rfl⟩

theorem diagram_wellFormed (source : String) :
    ((parse source).diagram : Diagram α).WellFormed := by
  have sound : (parse source).blocks.Sound := declaredBlocks_sound _
  obtain ⟨w, valid, same⟩ := edges_parse_valid source
  have blocks := (parse source).blocks_nodes (α := α)
  constructor
  case ids =>
    rw [Chart.diagram, Chart.ids_nodes, Chart.length_nodes]
  case tokens_distinct =>
    have distinct := sound.distinct
    rw [← blocks, List.map_map] at distinct
    exact List.pairwise_map.mp distinct
  case blocks_read =>
    intro n member
    refine sound.read n.toBlock ?_
    rw [← blocks]
    exact List.mem_map_of_mem member
  case ends_lt =>
    intro e member
    rw [Chart.diagram, Chart.length_nodes]
    exact valid.ends_lt e (same ▸ member)
  case edges_distinct =>
    exact (same ▸ valid.distinct).imp Edge.sameConnection_eq_false.mp
  case labels_clean =>
    intro e member
    exact valid.labels_clean e (same ▸ member)

/-- Whatever a script says, its diagram is well-formed, and a scene of it has exactly its blocks and
connections, in order. -/
theorem parse_wellFormed (source : String) :
    ((parse source).diagram : Diagram α).WellFormed ∧
      Scene.ofDiagram ((parse source).diagram : Diagram α) =
        { diagram := (parse source).diagram } :=
  ⟨diagram_wellFormed source, (diagram_wellFormed source).ofDiagram_eq⟩

end Script
end Flowchart
