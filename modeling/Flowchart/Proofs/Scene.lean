import Flowchart.Proofs.Editor.Operation
/-! Sound diagrams, and that scenes keep them so: the blocks have different numbers and both ends of
every connection exist. Making a scene of a diagram leaves out what would break this, and taking a
block out takes its connections along. -/
namespace Flowchart

theorem Edge.touches_eq_false {e : Edge} {id : Nat} :
    e.touches id = false ↔ e.source ≠ id ∧ e.target ≠ id := by
  simp [touches]

namespace Diagram

variable {α : Type}

/-- No two blocks share a number, and every connection leads from block to block. -/
structure Sound (d : Diagram α) : Prop where
  distinct : d.Distinct
  ends : ∀ e ∈ d.edges, e.source ∈ d.nodes.map (·.id) ∧ e.target ∈ d.nodes.map (·.id)

theorem sound_empty : ({} : Diagram α).Sound where
  distinct := List.nodup_nil
  ends := fun _ absent => absurd absent List.not_mem_nil

/-- Soundness is a matter of the numbers of the blocks and the ends of the connections. -/
theorem Sound.of_ends {d after : Diagram α} (sound : d.Sound)
    (ids : after.nodes.map (·.id) = d.nodes.map (·.id))
    (ends : ∀ e ∈ after.edges, ∃ f ∈ d.edges, e.source = f.source ∧ e.target = f.target) :
    after.Sound where
  distinct := (congrArg List.Nodup ids).mpr sound.distinct
  ends e member := by
    obtain ⟨f, inside, source, target⟩ := ends e member
    rw [ids, source, target]
    exact sound.ends f inside

@[simp] theorem edges_updateNode (d : Diagram α) (id : Nat) (change : Node α → Node α) :
    (d.updateNode id change).edges = d.edges := by
  unfold updateNode
  split <;> rfl

theorem exists_of_addEdge? {d after : Diagram α} {e : Edge} (added : d.addEdge? e = some after) :
    (∃ n, d.node? e.source = some n) ∧ (∃ n, d.node? e.target = some n) ∧
      d.edges.any e.sameConnection = false ∧ after = { d with edges := d.edges ++ [e] } := by
  unfold addEdge? at added
  split at added
  · cases added
  · next free =>
    simp only [Bool.or_eq_true, not_or, Option.isNone_iff_eq_none, Bool.not_eq_true] at free
    obtain ⟨⟨source, target⟩, fresh⟩ := free
    exact ⟨Option.ne_none_iff_exists'.mp source, Option.ne_none_iff_exists'.mp target, fresh,
      (Option.some.inj added).symm⟩

theorem mem_ids_of_node? {d : Diagram α} {id : Nat} {n : Node α} (found : d.node? id = some n) :
    id ∈ d.nodes.map (·.id) := by
  have named : n.id = id := by simpa using List.find?_some found
  exact named ▸ List.mem_map_of_mem (List.mem_of_find?_eq_some found)

end Diagram

namespace Scene

variable {α : Type}

/-- What holds of the blocks alone and outlasts every added connection holds of the scene of a
diagram. -/
theorem ofDiagram_induction {P : Diagram α → Prop} {d : Diagram α} (start : P ⟨d.nodes, []⟩)
    (add : ∀ kept after e, kept.addEdge? e = some after → P kept → P after) :
    P (ofDiagram d).diagram := by
  have all : ∀ (edges : List Edge) (kept : Diagram α), P kept →
      P (edges.foldl (fun kept e => (kept.addEdge? e).getD kept) kept) := by
    intro edges
    induction edges with
    | nil => exact fun kept holds => holds
    | cons e edges ih =>
        intro kept holds
        refine ih ((kept.addEdge? e).getD kept) ?_
        cases added : kept.addEdge? e with
        | none => exact holds
        | some after => exact add kept after e added holds
  exact all d.edges _ start

theorem nodes_ofDiagram (d : Diagram α) : (ofDiagram d).diagram.nodes = d.nodes := by
  refine ofDiagram_induction (P := fun kept => kept.nodes = d.nodes) rfl ?_
  intro kept after e added same
  obtain ⟨-, -, -, rfl⟩ := Diagram.exists_of_addEdge? added
  exact same

theorem sound_ofDiagram {d : Diagram α} (distinct : d.Distinct) : (ofDiagram d).diagram.Sound := by
  refine ofDiagram_induction ⟨distinct, fun _ absent => absurd absent List.not_mem_nil⟩ ?_
  intro kept after e added sound
  obtain ⟨⟨m, source⟩, ⟨n, target⟩, -, rfl⟩ := Diagram.exists_of_addEdge? added
  refine ⟨sound.distinct, ?_⟩
  intro f member
  rcases List.mem_append.mp member with earlier | last
  · exact sound.ends f earlier
  · obtain rfl := List.mem_singleton.mp last
    exact ⟨Diagram.mem_ids_of_node? source, Diagram.mem_ids_of_node? target⟩

/-- A changed label leaves a connection where it is. -/
theorem ends_updateEdge (s : Scene α) (index : Nat) (label : Option String) :
    (s.updateEdge index fun edge => { edge with label }).diagram.edges.map
      (fun e => (e.source, e.target, e.back)) =
    s.diagram.edges.map fun e => (e.source, e.target, e.back) := by
  refine List.ext_getElem? ?_
  intro i
  rw [updateEdge, List.getElem?_map, List.getElem?_map, List.getElem?_modify]
  cases s.diagram.edges[i]? with
  | none => rfl
  | some e => by_cases here : index = i <;> simp [here]

theorem mem_updateEdge {s : Scene α} {index : Nat} {label : Option String} {e : Edge}
    (member : e ∈ (s.updateEdge index fun edge => { edge with label }).diagram.edges) :
    ∃ f ∈ s.diagram.edges, e.source = f.source ∧ e.target = f.target ∧ e.back = f.back := by
  have present := List.mem_map_of_mem (f := fun e : Edge => (e.source, e.target, e.back)) member
  rw [ends_updateEdge] at present
  obtain ⟨f, inside, same⟩ := List.mem_map.mp present
  obtain ⟨source, rest⟩ := Prod.mk.inj same
  obtain ⟨target, back⟩ := Prod.mk.inj rest
  exact ⟨f, inside, source.symm, target.symm, back.symm⟩

theorem exists_of_deleteNode? {s after : Scene α} {id : Nat} {n : Node α}
    (deleted : s.deleteNode? id = some (n, after)) :
    after = { diagram := ⟨s.diagram.nodes.eraseP (·.id == id),
      s.diagram.edges.filter (!·.touches id)⟩ } := by
  obtain ⟨m, -, made⟩ := Option.map_eq_some_iff.mp deleted
  exact (Prod.mk.inj made).2.symm

theorem exists_of_deleteEdge? {s after : Scene α} {index : Nat} {edge : Edge}
    (deleted : s.deleteEdge? index = some (edge, after)) :
    after = { s with
      diagram := { s.diagram with edges := s.diagram.edges.eraseIdx index }
      selection := none } := by
  obtain ⟨f, -, made⟩ := Option.map_eq_some_iff.mp deleted
  exact (Prod.mk.inj made).2.symm

theorem mem_ids_deleteNode {nodes : List (Node α)} {id other : Nat} (different : other ≠ id)
    (member : other ∈ nodes.map (·.id)) : other ∈ (nodes.eraseP (·.id == id)).map (·.id) := by
  obtain ⟨n, inside, rfl⟩ := List.mem_map.mp member
  refine List.mem_map_of_mem ((List.mem_eraseP_of_neg ?_).mpr inside)
  simpa using different

end Scene
end Flowchart
