import Flowchart.Proofs.Editor.Run
import Flowchart.Proofs.Editor.Undo
import Flowchart.Proofs.Scene
/-! An editor stays consistent. In every state the data and those in the history are sound, and what
is selected or held exists. Each change keeps this by itself: whatever shifts or removes what could
be pointed at also lets go of it. -/
namespace Flowchart
open Layout (Config Arrangement)

namespace Diagram

variable {α : Type} [Scalar α] {config : Config α} {d : Diagram α} {a : Arrangement α}

theorem Sound.arrange (sound : d.Sound) (arranged : Layout.arrange config d = .ok a) :
    a.diagram.Sound := by
  refine sound.of_ends (Layout.arrange_ids arranged) ?_
  intro e member
  rw [(Layout.arrange_moves arranged).2] at member
  have present := List.mem_map_of_mem (f := fun e : Edge => (e.source, e.target, e.label)) member
  rw [Layout.Levels.ends_mark] at present
  obtain ⟨f, inside, same⟩ := List.mem_map.mp present
  obtain ⟨source, rest⟩ := Prod.mk.inj same
  exact ⟨f, inside, source.symm, (Prod.mk.inj rest).1.symm⟩

theorem ids_measureAll : (Layout.measureAll config d).nodes.map (·.id) = d.nodes.map (·.id) :=
  List.map_map

theorem Sound.layout (sound : d.Sound) (laid : Layout.layout config d = .ok a) :
    a.diagram.Sound := by
  refine Sound.arrange (sound.of_ends ids_measureAll ?_) laid
  exact fun e member => ⟨e, member, rfl, rfl⟩

end Diagram

namespace Scene

variable {α : Type}

/-- What would be selected is there. -/
def Shows (s : Scene α) : Selection → Prop
  | .node id => id ∈ s.diagram.nodes.map (·.id)
  | .edge index => index < s.diagram.edges.length

/-- What is selected is there, and so is the block that is held. -/
structure Pointed (s : Scene α) : Prop where
  selected : ∀ selection, s.selection = some selection → s.Shows selection
  dragged : ∀ drag, s.drag = some drag → drag.node ∈ s.diagram.nodes.map (·.id)

section Pointed
variable {s after : Scene α}

theorem pointed_free (d : Diagram α) : Pointed { diagram := d } :=
  ⟨nofun, nofun⟩

theorem shows_of_isValid {selection : Selection} (valid : s.isValid selection = true) :
    s.Shows selection := by
  cases selection with
  | node id =>
      obtain ⟨n, found⟩ := Option.isSome_iff_exists.mp valid
      exact Diagram.mem_ids_of_node? found
  | edge index =>
      rw [isValid, decide_eq_true_iff] at valid
      exact valid

theorem Pointed.select (pointed : s.Pointed) (selection : Option Selection) :
    (s.select selection).Pointed where
  selected chosen same := by
    obtain ⟨-, valid⟩ := Option.filter_eq_some_iff.mp same
    have shown := shows_of_isValid valid
    cases chosen <;> exact shown
  dragged := pointed.dragged

theorem Pointed.endDrag (pointed : s.Pointed) : s.endDrag.Pointed where
  selected chosen same := by
    have shown := pointed.selected chosen same
    cases chosen <;> exact shown
  dragged := nofun

/-- Changes that keep numbers of blocks and the count of connections leave nothing pointing
astray. -/
theorem Pointed.congr (pointed : s.Pointed)
    (ids : after.diagram.nodes.map (·.id) = s.diagram.nodes.map (·.id))
    (size : after.diagram.edges.length = s.diagram.edges.length)
    (selection : after.selection = s.selection)
    (held : ∀ drag, after.drag = some drag → ∃ old, s.drag = some old ∧ drag.node = old.node) :
    after.Pointed where
  selected chosen same := by
    have shown := pointed.selected chosen (selection ▸ same)
    cases chosen with
    | node id =>
        rw [Shows, ids]
        exact shown
    | edge index =>
        rw [Shows, size]
        exact shown
  dragged drag same := by
    obtain ⟨old, earlier, named⟩ := held drag same
    rw [ids, named]
    exact pointed.dragged old earlier

end Pointed
end Scene

namespace Editor

variable {α : Type}

section Edit
variable [Scalar α] {config : Config α} {operation : Operation α} {s after : Scene α}

theorem Edit.sound (edit : Edit config operation s after) (sound : s.diagram.Sound) :
    after.diagram.Sound := by
  cases edit with
  | node keeps =>
      refine sound.of_ends (Diagram.ids_updateNode _ keeps) ?_
      intro e member
      rw [Scene.updateNode, Diagram.edges_updateNode] at member
      exact ⟨e, member, rfl, rfl⟩
  | label asked =>
      refine sound.of_ends rfl ?_
      intro e member
      obtain ⟨f, inside, source, target, -⟩ := Scene.mem_updateEdge member
      exact ⟨f, inside, source, target⟩
  | @deleteNode id n after deleted =>
      obtain rfl := Scene.exists_of_deleteNode? deleted
      constructor
      case distinct => exact sound.distinct.sublist (List.eraseP_sublist.map _)
      case ends =>
        intro e member
        obtain ⟨inside, apart⟩ := List.mem_filter.mp member
        obtain ⟨source, target⟩ := Edge.touches_eq_false.mp (by simpa using apart)
        obtain ⟨sourceMem, targetMem⟩ := sound.ends e inside
        exact ⟨Scene.mem_ids_deleteNode source sourceMem,
          Scene.mem_ids_deleteNode target targetMem⟩
  | deleteEdge deleted =>
      obtain rfl := Scene.exists_of_deleteEdge? deleted
      refine sound.of_ends rfl ?_
      exact fun e member => ⟨e, List.mem_of_mem_eraseIdx member, rfl, rfl⟩
  | arrange arranged => exact sound.arrange arranged

theorem pointed_arrange {a : Arrangement α} (arranged : Layout.arrange config s.diagram = .ok a)
    (pointed : s.Pointed) : Scene.Pointed { s with diagram := a.diagram } := by
  refine pointed.congr (Layout.arrange_ids arranged) ?_ rfl fun drag same => ⟨drag, same, rfl⟩
  rw [(Layout.arrange_moves arranged).2]
  have same := congrArg List.length (Layout.Levels.ends_mark a.levels s.diagram.edges)
  rwa [List.length_map, List.length_map] at same

theorem Edit.pointed (edit : Edit config operation s after) (pointed : s.Pointed) :
    after.Pointed := by
  cases edit with
  | node keeps =>
      refine pointed.congr (Diagram.ids_updateNode _ keeps) ?_ rfl ?_
      · rw [Scene.updateNode, Diagram.edges_updateNode]
      · exact fun drag same => ⟨drag, same, rfl⟩
  | label asked =>
      refine pointed.congr rfl ?_ rfl fun drag same => ⟨drag, same, rfl⟩
      exact List.length_modify ..
  | deleteNode deleted =>
      obtain rfl := Scene.exists_of_deleteNode? deleted
      exact Scene.pointed_free _
  | deleteEdge deleted =>
      -- the indices behind the connection shift, and nothing is selected any more
      obtain rfl := Scene.exists_of_deleteEdge? deleted
      refine ⟨?_, pointed.dragged⟩
      intro selection selected
      cases selected
  | arrange arranged => exact pointed_arrange arranged pointed

end Edit

/-- The data shown and those in the history are sound, and what is selected or held is there. -/
structure Consistent (e : Editor α) : Prop where
  sound : e.Throughout Diagram.Sound
  pointed : e.scene.Pointed

theorem pointed_undo {e : Editor α} (pointed : e.scene.Pointed) : e.undo.editor.scene.Pointed := by
  unfold undo
  split
  · exact Scene.pointed_free _
  · exact pointed

theorem pointed_redo {e : Editor α} (pointed : e.scene.Pointed) : e.redo.editor.scene.Pointed := by
  unfold redo
  split
  · exact Scene.pointed_free _
  · exact pointed

theorem New.consistent {e : Editor α} (new : New e) : e.Consistent where
  sound := new.throughout Diagram.sound_empty
  pointed := by rw [new.scene]; exact Scene.pointed_free _

theorem load_consistent [Scalar α] {e : Editor α} {d : Diagram α} {o : Outcome α Unit}
    (distinct : d.Distinct) (loaded : e.load d = .ok o) : o.editor.Consistent where
  sound := throughout_load loaded fun _ laid => (Scene.sound_ofDiagram distinct).layout laid
  pointed := by
    obtain ⟨a, -, scene, -, -⟩ := exists_of_load loaded
    rw [scene]
    exact Scene.pointed_free _

theorem Starting.consistent [Scalar α] {e : Editor α} (starting : Starting e) : e.Consistent := by
  cases starting with
  | new new => exact new.consistent
  | loaded distinct loaded => exact load_consistent distinct loaded

section Step
variable [Metric α] {e : Editor α} {operation : Operation α} {o : Outcome α Unit}

theorem Step.pointed (step : Step e operation o) (pointed : e.scene.Pointed) :
    o.editor.scene.Pointed := by
  cases step with
  | alter _ alters =>
      cases alters with
      | rest _ _ _ scene =>
          rcases scene with same | ⟨selection, selected⟩
          · exact same ▸ pointed
          · exact selected ▸ pointed.select selection
      | edit _ _ _ edit => exact edit.pointed pointed
      | settle _ _ _ arranged _ scene => exact scene ▸ pointed_arrange arranged pointed
  | press _ press =>
      cases press with
      | grab found _ _ _ _ scene =>
          rw [scene]
          refine ⟨pointed.selected, ?_⟩
          intro drag same
          obtain rfl := Option.some.inj same
          exact Diagram.mem_ids_of_node? found
      | pan _ _ scene => exact scene ▸ pointed
  | move motion =>
      cases motion with
      | rest _ scene _ => exact scene ▸ pointed
      | @follow start place drag _ held _ _ scene =>
          rw [scene, follow]
          refine pointed.congr (Diagram.ids_updateNode _ fun _ named => named) ?_ rfl ?_
          · rw [Scene.updateNode, Diagram.edges_updateNode]
          · intro moved same
            obtain rfl := Option.some.inj same
            exact ⟨drag, held, rfl⟩
  | release _ release =>
      cases release with
      | @rest s _ _ kept scene =>
          have kept : s.Pointed := by
            rcases kept with ⟨rfl, -⟩ | ⟨rfl, -⟩
            · exact pointed
            · exact pointed.endDrag
          rcases scene with same | ⟨selection, selected⟩
          · exact same ▸ kept
          · exact selected ▸ kept.select selection
      | back _ _ _ _ scene => exact scene ▸ pointed.endDrag
      | moved _ _ _ scene => exact scene ▸ pointed.endDrag
  | undo made => exact made ▸ pointed_undo pointed
  | redo _ made => exact made ▸ pointed_redo pointed
  | load _ made =>
      obtain ⟨a, -, scene, -, -⟩ := exists_of_load made
      rw [scene]
      exact Scene.pointed_free _

theorem Step.consistent (step : Step e operation o) (proper : operation.Proper)
    (consistent : e.Consistent) : o.editor.Consistent where
  sound := by
    refine step.throughout consistent.sound ?_ ?_
    · exact fun edit => edit.sound consistent.sound.shown
    · exact fun loads laid => (Scene.sound_ofDiagram (proper.distinct loads)).layout laid
  pointed := step.pointed consistent.pointed

end Step

section Run
variable [Metric α] {permits : Editor α → Operation α → Outcome α Unit → Prop}
  {first now : Editor α}

theorem Run.consistent (run : Run permits first now)
    (proper : ∀ e operation o, permits e operation o → operation.Proper)
    (consistent : first.Consistent) : now.Consistent := by
  induction run with
  | start => exact consistent
  | step _ permitted performed ih =>
      exact (step_of_perform performed).consistent (proper _ _ _ permitted) ih

/-- With distinct blocks there is nothing that an editor cannot do. -/
theorem exists_of_proper {e : Editor α} {operation : Operation α} (proper : operation.Proper)
    (distinct : e.data.Distinct) : ∃ o, operation.perform e = .ok o := by
  cases operation with
  | load d =>
      have shown : (Scene.ofDiagram d).diagram.Distinct := by
        rw [Diagram.Distinct, Scene.nodes_ofDiagram]
        exact proper
      obtain ⟨o, loaded, -⟩ := load_fresh e shown
      exact ⟨o, loaded⟩
  | loadSource source =>
      obtain ⟨o, loaded, -⟩ := loadSource_fresh e source
      exact ⟨o.unit, congrArg (Except.map Outcome.unit) loaded⟩
  | autoLayout => exact exists_autoLayout distinct
  | _ => exact ⟨_, rfl⟩

/-- Whatever is done to an editor, as long as it loads distinct blocks only, it stays consistent and
can go on. -/
theorem run_consistent (starting : Starting first)
    (run : Run (fun _ operation _ => operation.Proper) first now) :
    now.Consistent ∧
      ∀ operation : Operation α, operation.Proper → ∃ o, operation.perform now = .ok o := by
  have consistent := run.consistent (fun _ _ _ proper => proper) starting.consistent
  exact ⟨consistent, fun _ proper => exists_of_proper proper consistent.sound.shown.distinct⟩

/-- A block is selected, pressed on and deleted while it is held, and comes back by undo. -/
theorem run_consistent_held_deletion :
    Starting (ofViewport .standard : Editor Float) ∧
      ∃ now, Run (fun _ operation _ => operation.Proper) (ofViewport .standard : Editor Float) now ∧
        now.Consistent ∧
        ∀ operation : Operation Float, operation.Proper → ∃ o, operation.perform now = .ok o := by
  have starting : Starting (ofViewport .standard : Editor Float) := .new (new_ofViewport _)
  obtain ⟨o, loaded, -⟩ := loadSource_fresh (ofViewport .standard : Editor Float) "ts()"
  let selected := (o.editor.select (some (.node 0))).editor
  let pressed := selected.pointerDown ⟨600, 400⟩
  let deleted := (pressed.deleteNode 0).editor
  have run : Run (fun _ operation _ => operation.Proper) (ofViewport .standard : Editor Float)
      deleted.undo.editor := by
    refine @Run.step Float _ _ _ _ .undo deleted.undo.unit ?_ trivial rfl
    refine @Run.step Float _ _ _ _ (.deleteNode 0) (pressed.deleteNode 0).unit ?_ trivial rfl
    refine @Run.step Float _ _ _ _ (.pointerDown ⟨600, 400⟩) (.silent pressed) ?_ trivial rfl
    refine @Run.step Float _ _ _ _ (.select (some (.node 0))) _ ?_ trivial rfl
    exact run_loadSource loaded trivial
  exact ⟨starting, _, run, run_consistent starting run⟩

end Run

end Editor
end Flowchart
