import Flowchart.Editor.View
import Flowchart.Layout
import Flowchart.Text.Blank
/-! Changes that can be undone, and undoing them. -/
namespace Flowchart.Editor

variable {α : Type}

/-- A label without blanks around it; a blank one is none. -/
def cleanLabel (label : Option String) : Option String :=
  (label.map fun text => String.ofList (Text.trim text.toList)).filter (!·.isEmpty)

def setEdgeLabel (e : Editor α) (index : Nat) (label : Option String) : Outcome α Bool :=
  let label := cleanLabel label
  e.mutate fun s =>
    match s.edge? index with
    | none => none
    | some edge =>
      if edge.label = label then none
      else some (s.updateEdge index fun edge => { edge with label })

def setStyle (e : Editor α) (id : Nat) (style : Option Palette) : Outcome α Bool :=
  e.mutateNode id fun n => if n.style = style then none else some { n with style }

def deleteNode (e : Editor α) (id : Nat) : Outcome α Bool :=
  let o := e.mutate fun s => (s.deleteNode? id).map (·.2)
  { o with events := o.events ++ cleared (o.result && e.selection.isSome) }

def deleteEdge (e : Editor α) (index : Nat) : Outcome α Bool :=
  let o := e.mutate fun s => (s.deleteEdge? index).map (·.2)
  { o with events := o.events ++ cleared (o.result && e.selection.isSome) }

def deleteSelection (e : Editor α) : Outcome α Bool :=
  match e.selection with
  | some (.node id) => e.deleteNode id
  | some (.edge index) => e.deleteEdge index
  | none => ⟨false, e, []⟩

/-- Put data back. Whatever was going on ends. -/
def restore (e : Editor α) (history : History (Diagram α)) (data : Diagram α) : Outcome α Bool :=
  let after := { e with
    scene := e.scene.restore data
    history
    gesture := none
    textEdit := none }
  ⟨true, after, cleared e.selection.isSome ++ [after.historyChanged, after.dataChanged]⟩

def undo (e : Editor α) : Outcome α Bool :=
  match e.history.undo? e.data with
  | some (previous, history) => e.restore history previous
  | none => ⟨false, e, []⟩

def redo (e : Editor α) : Outcome α Bool :=
  match e.history.redo? e.data with
  | some (next, history) => e.restore history next
  | none => ⟨false, e, []⟩

variable [Scalar α]

def moveNode (e : Editor α) (id : Nat) (x y : α) : Outcome α Bool :=
  e.mutateNode id fun n => if n.box.x == x && n.box.y == y then none else some (n.moveTo x y)

/-- No side becomes shorter than one. -/
def resizeNode (e : Editor α) (id : Nat) (width height : α) : Outcome α Bool :=
  let width := greatest width 1
  let height := greatest height 1
  e.mutateNode id fun n =>
    if n.box.width == width && n.box.height == height then none else some (n.resize width height)

/-- Draw a block as another kind, or as its own; its size is measured for the new shape. -/
def setShape (e : Editor α) (id : Nat) (shape : Option BlockKind) : Outcome α Bool :=
  e.mutateNode id fun n =>
    if n.shapeOverride = shape then none
    else some (Layout.sizeNode e.settings.layout { n with shapeOverride := shape })

def autoLayout (e : Editor α) : Except Layout.Fault (Outcome α Unit) :=
  if e.scene.isEmpty then .ok ⟨(), e, []⟩
  else
    match Layout.arrange e.settings.layout e.data with
    | .error fault => .error fault
    | .ok arrangement =>
      let s := { e.scene with diagram := arrangement.diagram }
      let placed : Outcome α Unit :=
        if s.diagram == e.data then ⟨(), { e with scene := s }, []⟩
        else
          let after := e.commit s
          ⟨(), after, [after.historyChanged, after.dataChanged]⟩
      .ok (placed.andThen fit)

end Flowchart.Editor
