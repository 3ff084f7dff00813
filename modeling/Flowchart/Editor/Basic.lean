import Flowchart.Editor.History
import Flowchart.Editor.Listeners
import Flowchart.Settings
import Flowchart.Viewport
/-! The state of an editor, and what an action on it leads to. -/
namespace Flowchart

/-- A press of the pointer that goes on. -/
inductive Gesture (α : Type) where
  | block (start : Point α)
  | pan (start last : Point α)
  deriving BEq, DecidableEq

structure TextEdit where
  node : Nat
  before : String
  buffer : String
  deriving DecidableEq, Repr

structure Editor (α : Type) where
  viewport : Viewport α
  settings : Settings α
  scene : Scene α := {}
  history : History (Diagram α) := {}
  listeners : Listeners := {}
  gesture : Option (Gesture α) := none
  textEdit : Option TextEdit := none

/-- The answer to an action, the editor after it, and the events on the way, in order. -/
structure Outcome (α β : Type) where
  result : β
  editor : Editor α
  events : List (Event α) := []

namespace Outcome

variable {α β γ : Type}

def andThen (o : Outcome α β) (next : Editor α → Outcome α γ) : Outcome α γ :=
  let later := next o.editor
  ⟨later.result, later.editor, o.events ++ later.events⟩

def map (o : Outcome α β) (f : β → γ) : Outcome α γ := ⟨f o.result, o.editor, o.events⟩

end Outcome

namespace Editor

variable {α : Type}

def ofViewport [Scalar α] (viewport : Viewport α) : Editor α :=
  { viewport, settings := .standard }

def data (e : Editor α) : Diagram α := e.scene.diagram

def selection (e : Editor α) : Option Selection := e.scene.selection

def historyChanged (e : Editor α) : Event α :=
  .historyChanged e.history.canUndo e.history.canRedo

def dataChanged (e : Editor α) : Event α := .dataChanged e.data

def zoomChanged (e : Editor α) : Event α := .zoomChanged e.viewport.scale

/-- Put a changed scene in and remember the data before. -/
def commit (e : Editor α) (s : Scene α) : Editor α :=
  { e with scene := s, history := e.history.record e.data }

/-- A change that can be undone, or a refusal. -/
def mutate (e : Editor α) (change : Scene α → Option (Scene α)) : Outcome α Bool :=
  match change e.scene with
  | none => ⟨false, e, []⟩
  | some s =>
    let after := e.commit s
    ⟨true, after, [after.historyChanged, after.dataChanged]⟩

/-- Change one block that exists, unless the change is none. -/
def mutateNode (e : Editor α) (id : Nat) (change : Node α → Option (Node α)) : Outcome α Bool :=
  e.mutate fun s => do
    let changed ← change (← s.diagram.node? id)
    some (s.updateNode id fun _ => changed)

def select (e : Editor α) (selection : Option Selection) : Outcome α Unit :=
  let s := e.scene.select selection
  if s.selection = e.scene.selection then ⟨(), e, []⟩
  else ⟨(), { e with scene := s }, [.selectionChanged s.selection]⟩

def cleared (had : Bool) : List (Event α) := if had then [.selectionChanged none] else []

end Editor
end Flowchart
