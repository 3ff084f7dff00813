import Flowchart.Proofs.Layout.Renaming
import Flowchart.Route
import Flowchart.Scalar.Float
/-! Numbers of blocks are names only. Whatever one-to-one names the blocks of a diagram are given,
with gaps or in another order, they are arranged in the same places, the same connections are
demoted, and all routes are the same. -/
namespace Flowchart

section Routes
variable {α : Type} {f : Nat → Nat} (injective : Function.Injective f)
include injective

theorem find?_rename_nodes (nodes : List (Node α)) (key : Nat) :
    (nodes.map (·.rename f)).find? (·.id == f key) =
      (nodes.find? (·.id == key)).map (·.rename f) := by
  simp only [List.find?_map, Function.comp_def, Node.rename, injective.beq_eq]

theorem eraseDups_rename (keys : List Nat) : (keys.map f).eraseDups = keys.eraseDups.map f := by
  induction size : keys.length using Nat.strong_induction_on generalizing keys with
  | _ length ih =>
    cases keys with
    | nil => rfl
    | cons key keys =>
        have shorter : (keys.filter fun other => !other == key).length < length := by
          rw [← size]
          exact Nat.lt_succ_of_le (List.length_filter_le _ _)
        rw [List.map_cons, List.eraseDups_cons, List.eraseDups_cons, List.map_cons, List.filter_map,
          ← ih _ shorter _ rfl]
        simp only [Function.comp_def, injective.beq_eq]

namespace Fan
variable (d : Diagram α)

theorem present_rename :
    present (d.rename f) = (present d).map (Prod.map id (Edge.rename f)) := by
  simp only [present, Diagram.rename, List.zipIdx_map, List.map_map, List.filter_map,
    Diagram.node?, Function.comp_def, Prod.map, Edge.rename, find?_rename_nodes injective,
    Option.isSome_map]

omit injective in
theorem near_rename (side : Side) (e : Edge) : side.near (e.rename f) = f (side.near e) := by
  cases side <;> rfl

omit injective in
theorem far_rename (side : Side) (e : Edge) : side.far (e.rename f) = f (side.far e) := by
  cases side <;> rfl

variable [Scalar α]

theorem lastCenter?_rename (key : Nat) : (d.rename f).lastCenter? (f key) = d.lastCenter? key := by
  rw [Diagram.lastCenter?, Diagram.lastCenter?, Diagram.rename, ← List.map_reverse,
    find?_rename_nodes injective, Option.map_map]
  rfl

omit injective in
theorem groupOffsets_rename {center renamed : Nat → α} (same : ∀ key, renamed (f key) = center key)
    (spread : α) (side : Side) (group : List (Nat × Edge)) :
    groupOffsets spread renamed side (group.map (Prod.map id (Edge.rename f))) =
      groupOffsets spread center side group := by
  have order : arranged renamed side (group.map (Prod.map id (Edge.rename f))) =
      (arranged center side group).map (Prod.map id (Edge.rename f)) := by
    refine (List.map_mergeSort ?_).symm
    rintro ⟨i, e⟩ _ ⟨j, g⟩ _
    simp only [Prod.map, before, far_rename, same]
    rfl
  rw [groupOffsets, groupOffsets, order, List.length_map, List.map_map]
  rfl

theorem sideOffsets_rename (spread : α) (side : Side) :
    sideOffsets (d.rename f) spread side = sideOffsets d spread side := by
  have keys : ((present d).map (Prod.map id (Edge.rename f))).map (fun p => side.near p.2) =
      ((present d).map fun p => side.near p.2).map f := by
    simp only [List.map_map, Function.comp_def, Prod.map, near_rename]
  rw [sideOffsets, sideOffsets, present_rename injective, keys, eraseDups_rename injective,
    List.flatMap_map]
  refine List.flatMap_congr ?_
  intro key _
  rw [List.filter_map]
  simp only [Function.comp_def, Prod.map, near_rename, injective.beq_eq]
  exact groupOffsets_rename (fun key => by rw [lastCenter?_rename injective]) spread side _

end Fan

theorem Route.all_rename [Scalar α] (d : Diagram α) (spread : α) :
    Route.all (d.rename f) spread = Route.all d spread := by
  have fan : Fan.ofDiagram (d.rename f) spread = Fan.ofDiagram d spread := by
    rw [Fan.ofDiagram, Fan.ofDiagram, Fan.sideOffsets_rename injective,
      Fan.sideOffsets_rename injective]
  have passed (edge : Nat) (start finish : Point α) :
      detour (d.nodes.map (·.rename f)) edge start finish = detour d.nodes edge start finish := by
    simp only [detour, detourLeft, List.filter_map, List.map_map]
    rfl
  rw [Route.all, Route.all, fan]
  simp only [Diagram.rename, ← List.map_reverse, List.zipIdx_map, List.filterMap_map]
  refine List.filterMap_congr ?_
  rintro ⟨e, i⟩ -
  simp only [Function.comp_apply, Prod.map_apply, Edge.rename, find?_rename_nodes injective, passed]
  cases d.nodes.reverse.find? (·.id == e.source) <;>
    cases d.nodes.reverse.find? (·.id == e.target) <;> rfl

end Routes

section Names
variable {α : Type}

/-- The numbers that stand in a diagram, of blocks and at the ends of connections. -/
def Diagram.numbers (d : Diagram α) : List Nat :=
  d.nodes.map (·.id) ++ d.edges.flatMap fun e => [e.source, e.target]

theorem Diagram.rename_congr {d : Diagram α} {f g : Nat → Nat}
    (same : ∀ id ∈ d.numbers, f id = g id) : d.rename f = d.rename g := by
  have nodes : d.nodes.map (·.rename f) = d.nodes.map (·.rename g) := by
    refine List.map_congr_left ?_
    intro n member
    rw [Node.rename, Node.rename, same n.id (List.mem_append_left _ (List.mem_map_of_mem member))]
  have edges : d.edges.map (·.rename f) = d.edges.map (·.rename g) := by
    refine List.map_congr_left ?_
    intro e member
    have ends (id : Nat) (isEnd : id ∈ [e.source, e.target]) : f id = g id :=
      same id (List.mem_append_right _ (List.mem_flatMap_of_mem member isEnd))
    rw [Edge.rename, Edge.rename, ends e.source (by simp), ends e.target (by simp)]
  rw [Diagram.rename, Diagram.rename, nodes, edges]

/-- A one-to-one change of some numbers is part of a one-to-one change of all: the others go beyond
its values. -/
theorem exists_injective (keys : List Nat) {f : Nat → Nat}
    (oneToOne : ∀ a ∈ keys, ∀ b ∈ keys, f a = f b → a = b) :
    ∃ g, Function.Injective g ∧ ∀ key ∈ keys, f key = g key := by
  have below (key : Nat) (member : key ∈ keys) : f key ≤ (keys.map f).max?.getD 0 :=
    List.le_max?_getD_of_mem (List.mem_map_of_mem member)
  generalize (keys.map f).max?.getD 0 = bound at below
  refine ⟨fun key => if key ∈ keys then f key else bound + 1 + key, ?_, ?_⟩
  · intro a b same
    by_cases left : a ∈ keys <;> by_cases right : b ∈ keys <;>
      simp only [left, right, if_true, if_false] at same
    · exact oneToOne a left b right same
    · have := below a left
      omega
    · have := below b right
      omega
    · omega
  · intro key member
    exact (if_pos member).symm

variable [Scalar α]

namespace Layout
variable {config : Config α} {d : Diagram α} {a : Arrangement α}

theorem numbers_arrange (arranged : arrange config d = .ok a) : a.diagram.numbers = d.numbers := by
  have ends := congrArg (List.flatMap fun p : Nat × Nat × Option String => [p.1, p.2.1])
    (Levels.ends_mark a.levels d.edges)
  rw [List.flatMap_map, List.flatMap_map] at ends
  rw [Diagram.numbers, arrange_ids arranged, (arrange_moves arranged).2]
  exact congrArg (d.nodes.map (·.id) ++ ·) ends

/-- Distinct blocks can be arranged under any other numbers, one-to-one with those they have. They
come to the same places on the same levels, the same connections are demoted and become
back-references, and the routes are the same, before and after. -/
theorem arrange_named (config : Config α) {d : Diagram α}
    (distinct : (d.nodes.map (·.id)).Nodup) {f : Nat → Nat}
    (oneToOne : ∀ a ∈ d.numbers, ∀ b ∈ d.numbers, f a = f b → a = b) (spread : α) :
    ∃ found renamed, arrange config d = .ok found ∧ arrange config (d.rename f) = .ok renamed ∧
      renamed.diagram = found.diagram.rename f ∧
      (∀ n ∈ d.nodes, renamed.levels.get (f n.id) = found.levels.get n.id) ∧
      renamed.levels.demoted = found.levels.demoted ∧
      Route.all renamed.diagram spread = Route.all found.diagram spread ∧
      Route.all (d.rename f) spread = Route.all d spread := by
  obtain ⟨g, injective, same⟩ := exists_injective d.numbers oneToOne
  obtain ⟨levels, -, arranged, -⟩ := arrange_ends config distinct
  have renamed := arrange_rename injective config distinct
  rw [arranged, ← Diagram.rename_congr same] at renamed
  refine ⟨_, _, arranged, renamed, ?_, ?_, rfl, Route.all_rename injective _ spread, ?_⟩
  · exact (Diagram.rename_congr ((numbers_arrange arranged).symm ▸ same)).symm
  · intro n member
    rw [same n.id (List.mem_append_left _ (List.mem_map_of_mem member))]
    exact Levels.get_rename injective levels n.id
  · rw [Diagram.rename_congr same, Route.all_rename injective]

/-- A loop beside a connection without a target, under numbers in another order and with gaps. -/
theorem arrange_named_loop :
    let block : Block := ⟨.process, "step", "[step]", none⟩
    let d : Diagram Float :=
      ⟨[⟨block, 0, ⟨0, 0, 140, 60⟩, none, none⟩, ⟨block, 1, ⟨0, 0, 60, 60⟩, none, none⟩,
        ⟨block, 5, ⟨0, 0, 300, 90⟩, none, none⟩],
        [⟨0, 1, none, false⟩, ⟨1, 0, some "again", false⟩, ⟨0, 5, none, false⟩,
          ⟨5, 7, none, false⟩]⟩
    let f : Nat → Nat := fun id => [12, 3, 9, 9, 9, 0, 9, 40].getD id 9
    (d.nodes.map (·.id)).Nodup ∧ (∀ a ∈ d.numbers, ∀ b ∈ d.numbers, f a = f b → a = b) ∧
      ∃ found renamed, arrange .standard d = .ok found ∧
        arrange .standard (d.rename f) = .ok renamed ∧
        renamed.diagram = found.diagram.rename f ∧
        (∀ n ∈ d.nodes, renamed.levels.get (f n.id) = found.levels.get n.id) ∧
        renamed.levels.demoted = found.levels.demoted ∧
        Route.all renamed.diagram 24 = Route.all found.diagram 24 ∧
        Route.all (d.rename f) 24 = Route.all d 24 := by
  intro block d f
  have distinct : (d.nodes.map (·.id)).Nodup := by decide
  have oneToOne : ∀ a ∈ d.numbers, ∀ b ∈ d.numbers, f a = f b → a = b := by decide
  exact ⟨distinct, oneToOne, arrange_named .standard distinct oneToOne 24⟩

end Layout
end Names
end Flowchart
