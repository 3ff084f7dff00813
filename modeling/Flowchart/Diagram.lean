import Flowchart.Block
import Flowchart.Geometry
/-! Diagrams: placed blocks, named by numbers, and the connections between them. -/
namespace Flowchart

/-- A block in the plane, with what the user has changed about its looks. -/
structure Node (α : Type) extends Block where
  id : Nat
  box : Box α
  style : Option Palette := none
  shapeOverride : Option BlockKind := none
  deriving BEq, DecidableEq

namespace Node

variable {α : Type}

def shape (n : Node α) : BlockKind := n.shapeOverride.getD n.kind

def label? (n : Node α) (field : Field) : Option String := n.labels.bind (·.get? field)

def moveTo (n : Node α) (x y : α) : Node α := { n with box := { n.box with x, y } }

def resize (n : Node α) (width height : α) : Node α :=
  { n with box := { n.box with width, height } }

def center [Scalar α] (n : Node α) : Point α := n.box.center

/-- A block that has not been sized or placed yet. -/
def ofBlock [Scalar α] (id : Nat) (block : Block) : Node α := { block with id, box := Box.zero }

end Node

/-- A directed connection between two blocks. A back-reference does not take part in levels. -/
structure Edge where
  source : Nat
  target : Nat
  label : Option String := none
  back : Bool := false
  deriving DecidableEq, Repr

namespace Edge

/-- Same ends and same label, whatever the back-reference mark. -/
def sameConnection (e f : Edge) : Bool :=
  e.source == f.source && e.target == f.target && e.label == f.label

def touches (e : Edge) (id : Nat) : Bool := e.source == id || e.target == id

end Edge

structure Diagram (α : Type) where
  nodes : List (Node α) := []
  edges : List Edge := []
  deriving BEq, DecidableEq

namespace Diagram

variable {α : Type}

/-- The first block with a number. -/
def node? (d : Diagram α) (id : Nat) : Option (Node α) := d.nodes.find? (·.id == id)

def updateNode (d : Diagram α) (id : Nat) (change : Node α → Node α) : Diagram α :=
  match d.nodes.findIdx? (·.id == id) with
  | some i => { d with nodes := d.nodes.modify i change }
  | none => d

/-- Add a connection unless an end is missing or it is there already. -/
def addEdge? (d : Diagram α) (e : Edge) : Option (Diagram α) :=
  if (d.node? e.source).isNone || (d.node? e.target).isNone
      || d.edges.any e.sameConnection then none
  else some { d with edges := d.edges ++ [e] }

def bounds? [Scalar α] (d : Diagram α) : Option (Box α) :=
  match d.nodes with
  | [] => none
  | n :: ns => some ((ns.map (·.box)).foldl Box.union n.box)

end Diagram
end Flowchart
