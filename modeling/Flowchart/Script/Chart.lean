import Flowchart.Script.Structure
/-! Reading a script. This never fails: what cannot be used is left out and reported. -/
namespace Flowchart.Script

/-- What a script says. Blocks are numbered by their place in the list. -/
structure Chart where
  blocks : Registry
  edges : List Edge
  diagnostics : List Diagnostic
  deriving DecidableEq

def readLines (declared structural : List Line) : Chart :=
  let ds := declarations declared
  let blocks := declaredBlocks ds
  let walk := Walk.run blocks {} structural
  ⟨blocks, walk.edges, declarationDiagnostics ds ++ walk.diagnostics⟩

def parse (source : String) : Chart :=
  let (declared, structural) := phases (lines source.toList)
  readLines declared structural

namespace Chart

def nodes {α : Type} [Scalar α] (c : Chart) : List (Node α) :=
  c.blocks.zipIdx.map fun (b, i) => Node.ofBlock i b

def diagram {α : Type} [Scalar α] (c : Chart) : Diagram α := ⟨c.nodes, c.edges⟩

end Chart
end Flowchart.Script
