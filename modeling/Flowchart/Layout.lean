import Flowchart.Layout.Measure
import Flowchart.Layout.Placement
/-! Laying out a diagram: sizes from texts, levels along forward paths, places from both. -/
namespace Flowchart.Layout

variable {α : Type} [Scalar α]

structure Arrangement (α : Type) where
  diagram : Diagram α
  levels : Levels

/-- Place every block again and keep the sizes. Connections that close a cycle become
back-references. -/
def arrange (config : Config α) (d : Diagram α) : Except Fault (Arrangement α) :=
  if d.nodes.isEmpty then .ok ⟨d, {}⟩
  else
    match levelsOf (d.nodes.map (·.id)) d.edges with
    | .ok levels =>
      let edges := levels.mark d.edges
      .ok ⟨⟨place config levels edges d.nodes, edges⟩, levels⟩
    | .error fault => .error fault

def measureAll (config : Config α) (d : Diagram α) : Diagram α :=
  { d with nodes := d.nodes.map (sizeNode config) }

def layout (config : Config α) (d : Diagram α) : Except Fault (Arrangement α) :=
  arrange config (measureAll config d)

end Flowchart.Layout
