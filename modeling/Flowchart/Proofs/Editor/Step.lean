import Flowchart.Proofs.Editor.Operation
import Flowchart.Proofs.Editor.Pointer
import Flowchart.Proofs.Script.Chart
/-! What one operation can do to an editor, said once. Most operations leave data and history alone
or record one change of the scene; the pointer, the history and loading have cases of their own.
Invariants are proved from these cases. -/
namespace Flowchart

namespace Operation

variable {α : Type} [Scalar α]

/-- The operation shows a diagram in place of the one before. -/
def Loads : Operation α → Diagram α → Prop
  | .load d, shown => shown = d
  | .loadSource source, shown => shown = (Script.parse source).diagram
  | _, _ => False

/-- A diagram that is loaded has distinct blocks. -/
def Proper : Operation α → Prop
  | .load d => d.Distinct
  | _ => True

/-- The chart of a script has distinct blocks anyway. -/
theorem Proper.distinct {operation : Operation α} {d : Diagram α} (proper : operation.Proper)
    (loads : operation.Loads d) : d.Distinct := by
  cases operation with
  | load shown =>
      obtain rfl : d = shown := loads
      exact proper
  | loadSource source =>
      obtain rfl : d = (Script.parse source).diagram := loads
      have ids : ((Script.parse source).diagram : Diagram α).nodes.map (·.id) = _ :=
        Script.Chart.ids_nodes _
      exact (congrArg List.Nodup ids).mpr List.nodup_range
  | _ => exact loads.elim

end Operation

namespace Editor

variable {α β γ : Type}

/-- A change of a scene that can be recorded. Only the one operation that labels connections changes
a label. -/
inductive Edit [Scalar α] (config : Layout.Config α) (operation : Operation α) (s : Scene α) :
    Scene α → Prop where
  | node {id : Nat} {change : Node α → Node α}
      (keeps : ∀ n : Node α, n.id = id → (change n).id = id) :
      Edit config operation s (s.updateNode id change)
  | label {index : Nat} {label : Option String} (asked : operation = .setEdgeLabel index label) :
      Edit config operation s
        (s.updateEdge index fun edge => { edge with label := cleanLabel label })
  | deleteNode {id : Nat} {n : Node α} {after : Scene α}
      (deleted : s.deleteNode? id = some (n, after)) : Edit config operation s after
  | deleteEdge {index : Nat} {edge : Edge} {after : Scene α}
      (deleted : s.deleteEdge? index = some (edge, after)) : Edit config operation s after
  | arrange {a : Layout.Arrangement α} (arranged : Layout.arrange config s.diagram = .ok a) :
      Edit config operation s { s with diagram := a.diagram }

/-- The outcome of an operation that leaves scene, gesture, history and settings as they are. -/
structure Still (e : Editor α) (o : Outcome α β) : Prop where
  unrecorded : o.recorded = false
  history : o.editor.history = e.history
  gesture : o.editor.gesture = e.gesture
  scene : o.editor.scene = e.scene
  settings : o.editor.settings = e.settings

theorem Still.refl (e : Editor α) (result : β) : Still e ⟨result, e, []⟩ :=
  ⟨rfl, rfl, rfl, rfl, rfl⟩

theorem still_zoomed (e : Editor α) (view : Option (Viewport α)) : Still e (e.zoomed view) := by
  cases view with
  | none => exact .refl e ()
  | some viewport => exact ⟨rfl, rfl, rfl, rfl, rfl⟩

theorem still_openText (e : Editor α) (id : Nat) : Still e (e.openText id) := by
  unfold openText
  split
  · exact .refl e false
  · split
    · exact ⟨rfl, rfl, rfl, rfl, rfl⟩
    · exact .refl e false

/-- What an operation does that neither moves the pointer nor steps through the history nor
loads. -/
inductive Alters [Scalar α] (e : Editor α) (operation : Operation α) (o : Outcome α β) : Prop where
  /-- At most something is selected. -/
  | rest (unrecorded : o.recorded = false) (history : o.editor.history = e.history)
      (gesture : o.editor.gesture = e.gesture)
      (scene : o.editor.scene = e.scene ∨
        ∃ selection, o.editor.scene = e.scene.select selection)
      (settings : o.editor.settings = e.settings)
  | edit (recorded : o.recorded = true) (history : o.editor.history = e.history.record e.data)
      (gesture : o.editor.gesture = e.gesture)
      (edit : Edit e.settings.layout operation e.scene o.editor.scene)
      (settings : o.editor.settings = e.settings)
  /-- Arranged again, every block is found where it was. -/
  | settle {a : Layout.Arrangement α} (unrecorded : o.recorded = false)
      (history : o.editor.history = e.history) (gesture : o.editor.gesture = e.gesture)
      (arranged : Layout.arrange e.settings.layout e.data = .ok a)
      (same : (a.diagram == e.data) = true)
      (scene : o.editor.scene = { e.scene with diagram := a.diagram })
      (settings : o.editor.settings = e.settings)

theorem kept_of_selected {s t : Scene α}
    (selected : t = s ∨ ∃ selection, t = s.select selection) :
    t.diagram = s.diagram ∧ t.drag = s.drag := by
  rcases selected with rfl | ⟨selection, rfl⟩
  · exact ⟨rfl, rfl⟩
  · exact ⟨rfl, rfl⟩

section Alters
variable [Scalar α] {e : Editor α} {operation : Operation α} {o : Outcome α β}

theorem Still.alters (still : Still e o) : Alters e operation o :=
  .rest still.unrecorded still.history still.gesture (.inl still.scene) still.settings

/-- Another outcome with the same editor, told of the history alike, alters the same. -/
theorem Alters.congr {other : Outcome α γ} (alters : Alters e operation o)
    (editor : other.editor = o.editor) (told : other.recorded = o.recorded) :
    Alters e operation other := by
  cases alters with
  | rest unrecorded history gesture scene settings =>
      rw [← told] at unrecorded
      rw [← editor] at history gesture scene settings
      exact .rest unrecorded history gesture scene settings
  | edit recorded history gesture edit settings =>
      rw [← told] at recorded
      rw [← editor] at history gesture edit settings
      exact .edit recorded history gesture edit settings
  | settle unrecorded history gesture arranged same scene settings =>
      rw [← told] at unrecorded
      rw [← editor] at history gesture scene settings
      exact .settle unrecorded history gesture arranged same scene settings

theorem Alters.map (alters : Alters e operation o) (f : β → γ) : Alters e operation (o.map f) :=
  alters.congr rfl rfl

theorem Alters.andThen (alters : Alters e operation o) {next : Editor α → Outcome α γ}
    (still : Still o.editor (next o.editor)) : Alters e operation (o.andThen next) := by
  have told : (o.andThen next).recorded = o.recorded := by
    have later := still.unrecorded
    unfold Outcome.recorded at later ⊢
    rw [Outcome.andThen, List.any_append, later, Bool.or_false]
  cases alters with
  | rest unrecorded history gesture scene settings =>
      rw [← told] at unrecorded
      rw [← still.scene] at scene
      exact .rest unrecorded (still.history.trans history) (still.gesture.trans gesture) scene
        (still.settings.trans settings)
  | edit recorded history gesture edit settings =>
      rw [← told] at recorded
      rw [← still.scene] at edit
      exact .edit recorded (still.history.trans history) (still.gesture.trans gesture) edit
        (still.settings.trans settings)
  | settle unrecorded history gesture arranged same scene settings =>
      rw [← told] at unrecorded
      exact .settle unrecorded (still.history.trans history) (still.gesture.trans gesture) arranged
        same (still.scene.trans scene) (still.settings.trans settings)

theorem alters_select (selection : Option Selection) :
    Alters e operation (e.select selection) := by
  unfold select
  simp only
  split
  · exact (Still.refl e ()).alters
  · exact .rest rfl rfl rfl (.inr ⟨selection, rfl⟩) rfl

theorem alters_mutate {change : Scene α → Option (Scene α)}
    (edits : ∀ s, change e.scene = some s → Edit e.settings.layout operation e.scene s) :
    Alters e operation (e.mutate change) := by
  unfold mutate
  cases changed : change e.scene with
  | none => exact (Still.refl e false).alters
  | some s => exact .edit rfl rfl rfl (edits s changed) rfl

theorem alters_mutateNode (id : Nat) {change : Node α → Option (Node α)}
    (keeps : ∀ n changed, change n = some changed → changed.id = n.id) :
    Alters e operation (e.mutateNode id change) := by
  refine alters_mutate ?_
  intro s made
  obtain ⟨n, found, made⟩ := Option.bind_eq_some_iff.mp made
  obtain ⟨changed, same, made⟩ := Option.bind_eq_some_iff.mp made
  obtain rfl := Option.some.inj made
  have named : n.id = id := by simpa using List.find?_some found
  exact .node fun _ _ => (keeps n changed same).trans named

theorem alters_commitText (e : Editor α) : Alters e operation e.commitText := by
  unfold commitText
  split
  · exact (Still.refl e none).alters
  · next edit opened =>
    have closed : Still e (⟨none, { e with textEdit := none }, []⟩ :
        Outcome α (Option Script.LabelEdit)) := ⟨rfl, rfl, rfl, rfl, rfl⟩
    simp only
    split
    · exact closed.alters
    · split
      · exact closed.alters
      · exact .edit rfl rfl rfl (.node fun m named => named) rfl

theorem alters_beginText (e : Editor α) (id : Nat) : Alters e operation (e.beginText id) :=
  (alters_commitText e).andThen (still_openText _ id)

theorem alters_key (e : Editor α) (k : EditKey) : Alters e operation (e.key k) := by
  unfold key
  split
  · exact (Still.refl e false).alters
  · split
    · exact (Still.refl e false).alters
    · exact (alters_commitText e).map _
    · exact Still.alters ⟨rfl, rfl, rfl, rfl, rfl⟩

theorem alters_setEdgeLabel (e : Editor α) (index : Nat) (label : Option String) :
    Alters e (.setEdgeLabel index label) (e.setEdgeLabel index label) := by
  unfold setEdgeLabel
  refine alters_mutate ?_
  intro s changed
  split at changed
  · cases changed
  · split at changed
    · cases changed
    · cases changed
      exact .label rfl

theorem alters_moveNode (e : Editor α) (id : Nat) (x y : α) :
    Alters e operation (e.moveNode id x y) := by
  refine alters_mutateNode id ?_
  intro n changed moved
  split at moved <;> cases moved
  rfl

theorem alters_resizeNode (e : Editor α) (id : Nat) (width height : α) :
    Alters e operation (e.resizeNode id width height) := by
  refine alters_mutateNode id ?_
  intro n changed resized
  split at resized <;> cases resized
  rfl

theorem alters_setShape (e : Editor α) (id : Nat) (shape : Option BlockKind) :
    Alters e operation (e.setShape id shape) := by
  refine alters_mutateNode id ?_
  intro n changed shaped
  split at shaped <;> cases shaped
  rfl

theorem alters_setStyle (e : Editor α) (id : Nat) (style : Option Palette) :
    Alters e operation (e.setStyle id style) := by
  refine alters_mutateNode id ?_
  intro n changed styled
  split at styled <;> cases styled
  rfl

theorem alters_deleteNode (e : Editor α) (id : Nat) : Alters e operation (e.deleteNode id) := by
  refine Alters.congr (alters_mutate ?_) rfl (Outcome.recorded_cleared _ _)
  intro s deleted
  obtain ⟨⟨n, rest⟩, found, rfl⟩ := Option.map_eq_some_iff.mp deleted
  exact .deleteNode found

theorem alters_deleteEdge (e : Editor α) (index : Nat) :
    Alters e operation (e.deleteEdge index) := by
  refine Alters.congr (alters_mutate ?_) rfl (Outcome.recorded_cleared _ _)
  intro s deleted
  obtain ⟨⟨edge, rest⟩, found, rfl⟩ := Option.map_eq_some_iff.mp deleted
  exact .deleteEdge found

theorem alters_deleteSelection (e : Editor α) : Alters e operation e.deleteSelection := by
  unfold deleteSelection
  split
  · exact alters_deleteNode e _
  · exact alters_deleteEdge e _
  · exact (Still.refl e false).alters

theorem alters_autoLayout {o : Outcome α Unit} (performed : e.autoLayout = .ok o) :
    Alters e operation o := by
  unfold autoLayout at performed
  split at performed
  · cases performed
    exact (Still.refl e ()).alters
  · split at performed
    · cases performed
    · next a arranged =>
      cases performed
      refine Alters.andThen ?_ (still_zoomed _ _)
      split
      · next same => exact .settle rfl rfl rfl arranged same rfl rfl
      · exact .edit rfl rfl rfl (.arrange arranged) rfl

end Alters

theorem alters_doubleClick [Metric α] {e : Editor α} {operation : Operation α}
    (position : Point α) : Alters e operation (e.doubleClick position) := by
  unfold doubleClick
  split
  · exact (alters_beginText e _).map _
  · exact Still.alters ⟨rfl, rfl, rfl, rfl, rfl⟩
  · exact (Still.refl e _).alters

theorem exists_of_map_eq_ok {ε : Type} {x : Except ε β} {f : β → γ} {c : γ}
    (mapped : x.map f = .ok c) : ∃ b, x = .ok b ∧ f b = c := by
  cases x with
  | error fault => cases mapped
  | ok b => exact ⟨b, rfl, Except.ok.inj mapped⟩

/-- A script is loaded by loading the diagram of its chart. -/
theorem load_of_loadSource [Scalar α] {e : Editor α} {source : String}
    {o : Outcome α (List Script.Diagnostic)} (made : e.loadSource source = .ok o) :
    e.load (Script.parse source).diagram = .ok o.unit := by
  obtain ⟨loaded, shown, rfl⟩ := exists_of_map_eq_ok made
  exact shown

/-- What an operation does, as far as scene, gesture and history go. -/
inductive Step [Metric α] (e : Editor α) (operation : Operation α) (o : Outcome α Unit) : Prop where
  | alter (holding : ∀ position, operation ≠ .pointerUp position) (alters : Alters e operation o)
  | press {position : Point α} (asked : operation = .pointerDown position)
      (press : Press e o.editor)
  | move (motion : Motion e o.editor)
  | release {position : Point α} (asked : operation = .pointerUp position) (release : Release e o)
  | undo (made : o = e.undo.unit)
  | redo (asked : operation = .redo) (made : o = e.redo.unit)
  | load {d : Diagram α} (asked : operation.Loads d) (made : e.load d = .ok o)

section Step
variable [Metric α] {e : Editor α} {operation : Operation α} {o : Outcome α Unit}

theorem alters_of_perform (plain : operation.Plain) (performed : operation.perform e = .ok o) :
    Alters e operation o := by
  cases operation with
  | load d => exact plain.elim
  | loadSource source => exact plain.elim
  | pointerDown position => exact plain.elim
  | pointerMove position => exact plain.elim
  | pointerUp position => exact plain.elim
  | undo => exact plain.elim
  | redo => exact plain.elim
  | autoLayout => exact alters_autoLayout performed
  | doubleClick position => cases performed; exact (alters_doubleClick position).map _
  | select selection => cases performed; exact alters_select selection
  | wheel delta pointer => cases performed; exact (still_zoomed e _).alters
  | zoomIn => cases performed; exact (still_zoomed e _).alters
  | zoomOut => cases performed; exact (still_zoomed e _).alters
  | fit => cases performed; exact (still_zoomed e _).alters
  | resizeView width height => cases performed; exact Still.alters ⟨rfl, rfl, rfl, rfl, rfl⟩
  | beginText id => cases performed; exact (alters_beginText e id).map _
  | typeText buffer => cases performed; exact Still.alters ⟨rfl, rfl, rfl, rfl, rfl⟩
  | key k => cases performed; exact (alters_key e k).map _
  | commitText => cases performed; exact (alters_commitText e).map _
  | cancelText => cases performed; exact Still.alters ⟨rfl, rfl, rfl, rfl, rfl⟩
  | setEdgeLabel index label => cases performed; exact (alters_setEdgeLabel e index label).map _
  | moveNode id x y => cases performed; exact (alters_moveNode e id x y).map _
  | resizeNode id width height => cases performed; exact (alters_resizeNode e id width height).map _
  | setShape id shape => cases performed; exact (alters_setShape e id shape).map _
  | setStyle id style => cases performed; exact (alters_setStyle e id style).map _
  | deleteNode id => cases performed; exact (alters_deleteNode e id).map _
  | deleteEdge index => cases performed; exact (alters_deleteEdge e index).map _
  | deleteSelection => cases performed; exact (alters_deleteSelection e).map _
  | listen kind => cases performed; exact Still.alters ⟨rfl, rfl, rfl, rfl, rfl⟩
  | unlisten listener => cases performed; exact Still.alters ⟨rfl, rfl, rfl, rfl, rfl⟩

theorem step_of_perform (performed : operation.perform e = .ok o) : Step e operation o := by
  cases operation with
  | load d => exact .load rfl performed
  | loadSource source =>
      obtain ⟨loaded, made, rfl⟩ := exists_of_map_eq_ok performed
      exact .load rfl (load_of_loadSource made)
  | pointerDown position => cases performed; exact .press rfl (press_pointerDown e _)
  | pointerMove position => cases performed; exact .move (motion_pointerMove e _)
  | pointerUp position => cases performed; exact .release rfl (release_pointerUp e _)
  | undo => cases performed; exact .undo rfl
  | redo => cases performed; exact .redo rfl rfl
  | _ => exact .alter nofun (alters_of_perform trivial performed)

end Step

end Editor
end Flowchart
