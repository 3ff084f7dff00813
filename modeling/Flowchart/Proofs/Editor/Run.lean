import Flowchart.Proofs.Editor.Step
/-! Runs of operations, and properties of all the data an editor keeps: the data shown and those its
history holds. A step keeps such a property if the change it records does and if what it loads has
it, because undo and redo only bring back data that are kept already. -/
namespace Flowchart

namespace History

variable {σ : Type} {h later : History σ} {before current previous next d : σ}

theorem mem_undo_record (member : d ∈ (h.record before).undo) : d = before ∨ d ∈ h.undo := by
  rcases List.mem_cons.mp member with first | rest
  · exact .inl first
  · split at rest
    · exact .inr (List.mem_of_mem_dropLast rest)
    · exact .inr rest

theorem undo?_eq_some_iff : h.undo? current = some (previous, later) ↔
    ∃ rest, h.undo = previous :: rest ∧
      later = { h with undo := rest, redo := current :: h.redo } := by
  unfold undo?
  cases past : h.undo with
  | nil => simp
  | cons first rest => simp [eq_comm]

theorem redo?_eq_some_iff : h.redo? current = some (next, later) ↔
    ∃ rest, h.redo = next :: rest ∧
      later = { h with undo := current :: h.undo, redo := rest } := by
  unfold redo?
  cases future : h.redo with
  | nil => simp
  | cons first rest => simp [eq_comm]

end History

namespace Editor

variable {α : Type}

/-- The property holds of the data shown and of all data in the history. -/
structure Throughout (P : Diagram α → Prop) (e : Editor α) : Prop where
  shown : P e.data
  past : ∀ d ∈ e.history.undo, P d
  future : ∀ d ∈ e.history.redo, P d

section Throughout
variable {P : Diagram α → Prop} {e : Editor α} {o : Outcome α Unit}

theorem Throughout.congr {after : Editor α} {s : Scene α} (throughout : e.Throughout P)
    (history : after.history = e.history) (scene : after.scene = s) (shown : P s.diagram) :
    after.Throughout P where
  shown := by rw [data, scene]; exact shown
  past := history ▸ throughout.past
  future := history ▸ throughout.future

theorem Throughout.record {after : Editor α} {s : Scene α} {before : Diagram α}
    (throughout : e.Throughout P) (history : after.history = e.history.record before)
    (scene : after.scene = s) (shown : P s.diagram) (found : P before) : after.Throughout P where
  shown := by rw [data, scene]; exact shown
  past d member := by
    rw [history] at member
    rcases History.mem_undo_record member with rfl | earlier
    · exact found
    · exact throughout.past d earlier
  future d member := by
    rw [history] at member
    exact absurd member List.not_mem_nil

theorem Throughout.undo (throughout : e.Throughout P) : e.undo.editor.Throughout P := by
  unfold Editor.undo
  split
  · next previous later found =>
    obtain ⟨rest, past, rfl⟩ := History.undo?_eq_some_iff.mp found
    have kept := throughout.past
    rw [past] at kept
    exact
      { shown := kept previous List.mem_cons_self
        past := fun d member => kept d (List.mem_cons_of_mem previous member)
        future := List.forall_mem_cons.mpr ⟨throughout.shown, throughout.future⟩ }
  · exact throughout

theorem Throughout.redo (throughout : e.Throughout P) : e.redo.editor.Throughout P := by
  unfold Editor.redo
  split
  · next next later found =>
    obtain ⟨rest, future, rfl⟩ := History.redo?_eq_some_iff.mp found
    have kept := throughout.future
    rw [future] at kept
    exact
      { shown := kept next List.mem_cons_self
        past := List.forall_mem_cons.mpr ⟨throughout.shown, throughout.past⟩
        future := fun d member => kept d (List.mem_cons_of_mem next member) }
  · exact throughout

end Throughout

section Load
variable [Scalar α] {e : Editor α} {d : Diagram α} {o : Outcome α Unit}

/-- A load shows the diagram laid out and forgets all else. -/
theorem exists_of_load (loaded : e.load d = .ok o) :
    ∃ a, Layout.layout e.settings.layout (Scene.ofDiagram d).diagram = .ok a ∧
      o.editor.scene = { diagram := a.diagram } ∧ o.editor.history = e.history.clear ∧
      o.editor.gesture = none := by
  unfold load at loaded
  simp only at loaded
  split at loaded
  · cases loaded
  · next a placed =>
    cases loaded
    have still := still_zoomed { e with
      scene := { Scene.ofDiagram d with diagram := a.diagram }
      history := e.history.clear
      gesture := none
      textEdit := none } (a.diagram.bounds?.map e.viewport.fit)
    exact ⟨a, placed, still.scene, still.history, still.gesture⟩

theorem throughout_load {P : Diagram α → Prop} (loaded : e.load d = .ok o)
    (shown : ∀ a, Layout.layout e.settings.layout (Scene.ofDiagram d).diagram = .ok a →
      P a.diagram) : o.editor.Throughout P := by
  obtain ⟨a, laid, scene, history, -⟩ := exists_of_load loaded
  constructor
  case shown => rw [data, scene]; exact shown a laid
  case past => rw [history]; exact fun d member => absurd member List.not_mem_nil
  case future => rw [history]; exact fun d member => absurd member List.not_mem_nil

end Load

section Cases
variable {P : Diagram α → Prop} {e after : Editor α} {operation : Operation α}
  {o : Outcome α Unit}

theorem Alters.throughout [Scalar α] (alters : Alters e operation o)
    (throughout : e.Throughout P) (shown : P o.editor.data) : o.editor.Throughout P := by
  cases alters with
  | rest _ history => exact throughout.congr history rfl shown
  | edit _ history => exact throughout.record history rfl shown throughout.shown
  | settle _ history => exact throughout.congr history rfl shown

theorem Press.throughout (press : Press e after) (throughout : e.Throughout P) :
    after.Throughout P := by
  have shown : P e.scene.diagram := throughout.shown
  cases press with
  | grab _ _ _ history _ scene => exact throughout.congr history scene shown
  | pan history _ scene => exact throughout.congr history scene shown

theorem Motion.throughout [Scalar α] (motion : Motion e after) (throughout : e.Throughout P)
    (placed : ∀ id x y, P (e.scene.updateNode id fun n => n.moveTo x y).diagram) :
    after.Throughout P := by
  have shown : P e.scene.diagram := throughout.shown
  cases motion with
  | rest history scene _ => exact throughout.congr history scene shown
  | follow _ _ history _ scene => exact throughout.congr history scene (placed _ _ _)

theorem Release.throughout [Scalar α] (release : Release e o) (throughout : e.Throughout P)
    (placed : ∀ id x y, P (e.scene.updateNode id fun n => n.moveTo x y).diagram) :
    o.editor.Throughout P := by
  have shown : P e.scene.diagram := throughout.shown
  cases release with
  | @rest s history _ kept scene =>
      have unmoved : P s.diagram := by
        rcases kept with ⟨rfl, -⟩ | ⟨rfl, -⟩
        · exact shown
        · exact shown
      rcases scene with same | ⟨selection, selected⟩
      · exact throughout.congr history same unmoved
      · exact throughout.congr history selected unmoved
  | back _ history _ _ scene => exact throughout.congr history scene shown
  | moved _ _ history scene => exact throughout.record history scene shown (placed _ _ _)

end Cases

section Step
variable [Metric α] {P : Diagram α → Prop} {e : Editor α} {operation : Operation α}
  {o : Outcome α Unit}

/-- The steps keep a property of data if the changes they record do and what they load has it. -/
theorem Step.throughout (step : Step e operation o) (throughout : e.Throughout P)
    (edited : ∀ {s}, Edit e.settings.layout operation e.scene s → P s.diagram)
    (loaded : ∀ {d a}, operation.Loads d →
      Layout.layout e.settings.layout (Scene.ofDiagram d).diagram = .ok a → P a.diagram) :
    o.editor.Throughout P := by
  have placed : ∀ id x y, P (e.scene.updateNode id fun n => n.moveTo x y).diagram :=
    fun id x y => edited (.node fun _ named => named)
  cases step with
  | alter _ alters =>
      refine alters.throughout throughout ?_
      cases alters with
      | rest _ _ _ scene => exact (congrArg P (kept_of_selected scene).1).mpr throughout.shown
      | edit _ _ _ edit => exact edited edit
      | settle _ _ _ arranged _ scene =>
          exact (congrArg (P ·.diagram) scene).mpr (edited (.arrange arranged))
  | press _ press => exact press.throughout throughout
  | move motion => exact motion.throughout throughout placed
  | release _ release => exact release.throughout throughout placed
  | undo made => exact made ▸ throughout.undo
  | redo _ made => exact made ▸ throughout.redo
  | load asked made => exact throughout_load made fun a laid => loaded asked laid

/-- What a plain operation makes of the data is all that is to be shown, where a block may be placed
anywhere and what is loaded has the property. -/
theorem throughout_of_perform (performed : operation.perform e = .ok o)
    (throughout : e.Throughout P) (altered : operation.Plain → P o.editor.data)
    (placed : ∀ id x y, P (e.scene.updateNode id fun n => n.moveTo x y).diagram)
    (loaded : ∀ {d a}, operation.Loads d →
      Layout.layout e.settings.layout (Scene.ofDiagram d).diagram = .ok a → P a.diagram) :
    o.editor.Throughout P := by
  have alters : operation.Plain → Alters e operation o :=
    fun plain => alters_of_perform plain performed
  cases operation with
  | load d => exact throughout_load performed fun a laid => loaded rfl laid
  | loadSource source =>
      obtain ⟨o, made, rfl⟩ := exists_of_map_eq_ok performed
      exact throughout_load (load_of_loadSource made) fun a laid => loaded rfl laid
  | pointerDown position =>
      cases performed
      exact (press_pointerDown e position).throughout throughout
  | pointerMove position =>
      cases performed
      exact (motion_pointerMove e position).throughout throughout placed
  | pointerUp position =>
      cases performed
      exact (release_pointerUp e position).throughout throughout placed
  | undo => cases performed; exact throughout.undo
  | redo => cases performed; exact throughout.redo
  | _ => exact (alters trivial).throughout throughout (altered trivial)

end Step

/-- An editor as it is made, whatever its view, its settings and the limit of its history. -/
structure New (e : Editor α) : Prop where
  scene : e.scene = {}
  past : e.history.undo = []
  future : e.history.redo = []
  gesture : e.gesture = none
  textEdit : e.textEdit = none

theorem new_ofViewport [Scalar α] (viewport : Viewport α) : New (ofViewport viewport) :=
  ⟨rfl, rfl, rfl, rfl, rfl⟩

theorem New.throughout {P : Diagram α → Prop} {e : Editor α} (new : New e) (blank : P {}) :
    e.Throughout P where
  shown := by rw [data, new.scene]; exact blank
  past := by rw [new.past]; exact fun d member => absurd member List.not_mem_nil
  future := by rw [new.future]; exact fun d member => absurd member List.not_mem_nil

/-- An editor without use so far: a new one, or one that has just loaded distinct blocks. -/
inductive Starting [Scalar α] : Editor α → Prop where
  | new {e : Editor α} (new : New e) : Starting e
  | loaded {e : Editor α} {d : Diagram α} {o : Outcome α Unit} (distinct : d.Distinct)
      (loaded : e.load d = .ok o) : Starting o.editor

/-- A run of permitted operations from one editor to another. -/
inductive Run [Metric α] (permits : Editor α → Operation α → Outcome α Unit → Prop)
    (first : Editor α) : Editor α → Prop where
  | start : Run permits first first
  | step {e : Editor α} {operation : Operation α} {o : Outcome α Unit}
      (earlier : Run permits first e) (permitted : permits e operation o)
      (performed : operation.perform e = .ok o) : Run permits first o.editor

/-- A run can begin by loading a script. -/
theorem run_loadSource [Metric α] {permits : Editor α → Operation α → Outcome α Unit → Prop}
    {e : Editor α} {source : String} {o : Outcome α (List Script.Diagnostic)}
    (loaded : e.loadSource source = .ok o) (permitted : permits e (.loadSource source) o.unit) :
    Run permits e o.editor :=
  @Run.step α _ permits e e (.loadSource source) o.unit .start permitted
    (congrArg (Except.map Outcome.unit) loaded)

end Editor
end Flowchart
