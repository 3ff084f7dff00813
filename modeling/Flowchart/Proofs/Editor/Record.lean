import Flowchart.Proofs.Editor.Step
import Flowchart.Proofs.Scene
/-! What operations record. An operation that tells of a changed history has recorded the data it
found; any other leaves the history alone, and the data too, unless it lays them out again. -/
namespace Flowchart.Editor

variable {α β γ : Type}

/-- No block is held. -/
def Released (e : Editor α) : Prop := ∀ start, e.gesture ≠ some (.block start)

/-- The outcome of an operation that neither changes the data nor records them. -/
structure Quiet (e : Editor α) (o : Outcome α β) : Prop where
  unrecorded : o.recorded = false
  history : o.editor.history = e.history
  data : o.editor.data = e.data
  settings : o.editor.settings = e.settings
  released : e.Released → o.editor.Released

theorem Quiet.silent (e : Editor α) {after : Editor α} (history : after.history = e.history)
    (data : after.data = e.data) (settings : after.settings = e.settings)
    (released : e.Released → after.Released) : Quiet e (.silent after) :=
  ⟨rfl, history, data, settings, released⟩

theorem Quiet.refl (e : Editor α) (result : β) : Quiet e ⟨result, e, []⟩ :=
  ⟨rfl, rfl, rfl, rfl, id⟩

theorem Quiet.trans {e : Editor α} {o : Outcome α β} {later : Outcome α γ} (first : Quiet e o)
    (second : Quiet o.editor later) : Quiet e later where
  unrecorded := second.unrecorded
  history := second.history.trans first.history
  data := second.data.trans first.data
  settings := second.settings.trans first.settings
  released released := second.released (first.released released)

theorem quiet_select (e : Editor α) (selection : Option Selection) :
    Quiet e (e.select selection) := by
  unfold select
  simp only
  split
  · exact .refl e ()
  · exact ⟨rfl, rfl, rfl, rfl, id⟩

theorem Still.quiet {e : Editor α} {o : Outcome α β} (still : Still e o) : Quiet e o where
  unrecorded := still.unrecorded
  history := still.history
  data := congrArg Scene.diagram still.scene
  settings := still.settings
  released released start := still.gesture ▸ released start

theorem quiet_zoomed (e : Editor α) (view : Option (Viewport α)) : Quiet e (e.zoomed view) :=
  (still_zoomed e view).quiet

/-- The outcome of an operation that records the data it finds or else leaves the history alone.
Without a record the data are as they were, or laid out again. -/
structure Tracks (e : Editor α) [Scalar α] (o : Outcome α β) : Prop where
  history : o.editor.history = if o.recorded then e.history.record e.data else e.history
  data : o.recorded = false → o.editor.data = e.data ∨
    ∃ a, Layout.arrange e.settings.layout e.data = .ok a ∧ o.editor.data = a.diagram
  settings : o.editor.settings = e.settings
  released : e.Released → o.editor.Released
  distinct : e.data.Distinct → o.editor.data.Distinct

section Tracks
variable [Scalar α] {e : Editor α} {o : Outcome α β}

theorem Quiet.tracks (quiet : Quiet e o) : Tracks e o where
  history := by rw [quiet.history, quiet.unrecorded, if_neg Bool.false_ne_true]
  data _ := .inl quiet.data
  settings := quiet.settings
  released := quiet.released
  distinct distinct := quiet.data ▸ distinct

/-- The blocks keep their numbers, or some go. -/
theorem Edit.ids_sublist {config : Layout.Config α} {operation : Operation α} {s after : Scene α}
    (edit : Edit config operation s after) :
    (after.diagram.nodes.map (·.id)).Sublist (s.diagram.nodes.map (·.id)) := by
  cases edit with
  | node keeps =>
      rw [Scene.updateNode, Diagram.ids_updateNode _ keeps]
  | label asked => exact .refl _
  | deleteNode deleted =>
      obtain rfl := Scene.exists_of_deleteNode? deleted
      exact List.eraseP_sublist.map _
  | deleteEdge deleted =>
      obtain rfl := Scene.exists_of_deleteEdge? deleted
      exact .refl _
  | arrange arranged => rw [Layout.arrange_ids arranged]

theorem Alters.tracks {operation : Operation α} (alters : Alters e operation o) : Tracks e o := by
  cases alters with
  | rest unrecorded history gesture scene settings =>
      refine Quiet.tracks ⟨unrecorded, history, (kept_of_selected scene).1, settings, ?_⟩
      exact fun released start => gesture ▸ released start
  | edit recorded history gesture edit settings =>
      constructor
      case history => rw [recorded, if_pos rfl, history]
      case data => exact fun unrecorded => absurd (recorded.symm.trans unrecorded) nofun
      case settings => exact settings
      case released => exact fun released start => gesture ▸ released start
      case distinct => exact fun distinct => distinct.sublist edit.ids_sublist
  | settle unrecorded history gesture arranged _ scene settings =>
      have shown := congrArg Scene.diagram scene
      constructor
      case history => rw [unrecorded, if_neg Bool.false_ne_true, history]
      case data => exact fun _ => .inr ⟨_, arranged, shown⟩
      case settings => exact settings
      case released => exact fun released start => gesture ▸ released start
      case distinct =>
        intro distinct
        rw [data, scene, Diagram.Distinct, Layout.arrange_ids arranged]
        exact distinct

theorem exists_autoLayout (distinct : e.data.Distinct) : ∃ o, e.autoLayout = .ok o := by
  unfold autoLayout
  split
  · exact ⟨_, rfl⟩
  · obtain ⟨a, arranged, -⟩ := distinct.arrange e.settings.layout
    simp only [arranged]
    exact ⟨_, rfl⟩

end Tracks

section Pointer
variable [Metric α] {e : Editor α} {position : Point α}

theorem quiet_pointerDown (missed : e.scene.nodeAt? (e.viewport.toLogical position) = none) :
    Quiet e (.silent (e.pointerDown position)) := by
  unfold pointerDown
  simp only [missed]
  refine .silent e rfl rfl rfl ?_
  rintro - start ⟨⟩

theorem quiet_pointerMove (released : e.Released) :
    Quiet e (.silent (e.pointerMove position)) := by
  unfold pointerMove
  split
  · next start held => exact absurd held (released start)
  · refine .silent e rfl rfl rfl ?_
    rintro - start ⟨⟩
  · exact .silent e rfl rfl rfl id

theorem quiet_pointerUp (released : e.Released) : Quiet e (e.pointerUp position) := by
  have let_go : Quiet e (.silent { e with gesture := none }) := by
    refine .silent e rfl rfl rfl ?_
    rintro - start ⟨⟩
  unfold pointerUp
  simp only
  split
  · next start held => exact absurd held (released start)
  · split
    · exact let_go.trans (quiet_select _ _)
    · exact let_go
  · exact let_go

end Pointer

/-- Neither loads a chart nor steps through the history, and does not press the pointer on a
block. -/
def Permits [Scalar α] (e : Editor α) : Operation α → Prop
  | .load _ => False
  | .loadSource _ => False
  | .undo => False
  | .redo => False
  | .pointerDown position => e.scene.nodeAt? (e.viewport.toLogical position) = none
  | _ => True

/-- What an editor permits, it can do, whatever it is asked for. -/
theorem perform_permitted [Metric α] {e : Editor α} {operation : Operation α}
    (permitted : e.Permits operation) (released : e.Released) (distinct : e.data.Distinct) :
    ∃ o, operation.perform e = .ok o ∧ Tracks e o := by
  have tracks : operation.Plain → ∀ o, operation.perform e = .ok o → Tracks e o :=
    fun plain o performed => (alters_of_perform plain performed).tracks
  cases operation with
  | load d => exact permitted.elim
  | loadSource source => exact permitted.elim
  | undo => exact permitted.elim
  | redo => exact permitted.elim
  | pointerDown position => exact ⟨_, rfl, (quiet_pointerDown permitted).tracks⟩
  | pointerMove position => exact ⟨_, rfl, (quiet_pointerMove released).tracks⟩
  | pointerUp position => exact ⟨_, rfl, (quiet_pointerUp released).tracks⟩
  | autoLayout =>
      obtain ⟨o, performed⟩ := exists_autoLayout distinct
      exact ⟨o, performed, tracks trivial o performed⟩
  | _ => exact ⟨_, rfl, tracks trivial _ rfl⟩

end Flowchart.Editor
