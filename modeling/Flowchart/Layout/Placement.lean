import Flowchart.Layout.Config
import Flowchart.Layout.Level
/-! Places of blocks. Every block hangs under the source of the first connection into it and takes a
span as wide as itself and as its children together; children share the span of their parent from
left to right. Blocks of one level form a row, in which neighbours that would overlap are pushed
apart, and rows are stacked from the top. -/
namespace Flowchart.Layout

/-- The last value that a list of pairs gives for a key. -/
def lastValue? {β : Type} (pairs : List (Nat × β)) (key : Nat) : Option β :=
  pairs.reverse.lookup key

structure Branch where
  parent : Nat
  child : Nat
  deriving DecidableEq, Repr

/-- The first forward connection into each block, between two different blocks that exist. -/
def branches (ids : List Nat) (edges : List Edge) : List Branch :=
  edges.foldl (fun found e =>
    if e.back || e.source == e.target || found.any (·.child == e.target) || !ids.contains e.source
      || !ids.contains e.target then found
    else found ++ [⟨e.source, e.target⟩]) []

def childrenOf (bs : List Branch) (id : Nat) : List Nat :=
  (bs.filter (·.parent == id)).map (·.child)

def prune (bs : List Branch) (id : Nat) : List Branch := bs.filter (·.parent != id)

theorem length_prune_add (bs : List Branch) (id : Nat) :
    (prune bs id).length + (childrenOf bs id).length = bs.length := by
  induction bs with
  | nil => rfl
  | cons b bs ih =>
    by_cases same : b.parent = id <;>
      simp [prune, childrenOf, same] at ih ⊢ <;> omega

/-- The blocks without a parent, or the first block where each has one. -/
def roots (ids : List Nat) (bs : List Branch) : List Nat :=
  match ids.filter fun id => !bs.any (·.child == id) with
  | [] => ids.take 1
  | rs => rs

variable {α : Type} [Scalar α]

/-- The last value for a key, zero where there is none. -/
def valueAt (pairs : List (Nat × α)) (key : Nat) : α := (lastValue? pairs key).getD 0

/-- Widths of the subtrees, in the order they are computed. A child that has not been computed yet
counts for nothing, so children have to come before their parents. -/
def subtreeWidths (gap : α) (width : Nat → α) (bs : List Branch) (order : List Nat) :
    List (Nat × α) :=
  order.foldl (fun known id =>
    let below := total ((childrenOf bs id).map (valueAt known))
    known ++ [(id, greatest (width id + gap) below)]) []

def spreadOut (width : Nat → α) (left : α) : List Nat → List (Nat × α)
  | [] => []
  | id :: ids => (id, left + width id / 2) :: spreadOut width (left + width id) ids

theorem length_spreadOut (width : Nat → α) (left : α) (ids : List Nat) :
    (spreadOut width left ids).length = ids.length := by
  induction ids generalizing left with
  | nil => rfl
  | cons id ids ih => simp [spreadOut, ih]

def spreadChildren (width : Nat → α) (bs : List Branch) (id : Nat) (center : α) : List (Nat × α) :=
  let kids := childrenOf bs id
  spreadOut width (center - total (kids.map width) / 2) kids

/-- Centers of all blocks below a stack of centered ones. The branches of a block are used up when
it is met first. -/
def walk (width : Nat → α) (bs : List Branch) : (stack : List (Nat × α)) → List (Nat × α)
  | [] => []
  | (id, center) :: stack =>
    (id, center) :: walk width (prune bs id)
      ((spreadChildren width bs id center).reverse ++ stack)
  termination_by stack => bs.length + stack.length
  decreasing_by
    have parts := length_prune_add bs id
    simp only [spreadChildren, List.length_append, List.length_reverse, length_spreadOut,
      List.length_cons]
    omega

def centers (width : Nat → α) (ids : List Nat) (bs : List Branch) : List (Nat × α) :=
  let rs := roots ids bs
  walk width bs (spreadOut width (-total (rs.map width) / 2) rs).reverse

/-- Center of a block in its row. A block that would come too close to the center and the width of
the one before it is pushed away. -/
def pushedCenter (gap : α) (wanted : α) (previous : Option (α × α)) (n : Node α) : α :=
  match previous with
  | some (left, width) =>
    let apart := width / 2 + n.box.width / 2 + gap
    if wanted - left < apart then left + apart else wanted
  | none => wanted

def packRow (gap : α) (center : Nat → α) :
    (previous : Option (α × α)) → List (Nat × Node α) → List (Nat × α)
  | _, [] => []
  | previous, (i, n) :: row =>
    let place := pushedCenter gap (center n.id) previous n
    (i, place - n.box.width / 2) :: packRow gap center (some (place, n.box.width)) row

def tallest (row : List (Nat × Node α)) : α :=
  row.foldl (fun height (_, n) => greatest height n.box.height) 0

def stackRows (config : Config α) (center : Nat → α) :
    (top : α) → List (List (Nat × Node α)) → List (Nat × Point α)
  | _, [] => []
  | top, row :: rows =>
    (packRow config.horizontalGap center none row).map (fun (i, x) => (i, ⟨x, top⟩)) ++
      stackRows config center (top + (tallest row + config.verticalGap)) rows

def rowAt (levels : Levels) (center : Nat → α) (nodes : List (Node α)) (level : Nat) :
    List (Nat × Node α) :=
  ((nodes.zipIdx.map fun (n, i) => (i, n)).filter fun (_, n) => levels.get n.id == level).mergeSort
    fun (_, a) (_, b) => Scalar.precedes (center a.id) (center b.id)

/-- The rows of all levels. Levels without blocks are left out. -/
def rows (levels : Levels) (center : Nat → α) (nodes : List (Node α)) :
    List (List (Nat × Node α)) :=
  ((List.range ((levels.max?.getD 0) + 1)).map (rowAt levels center nodes)).filter
    fun row => !row.isEmpty

/-- Deeper blocks first, so that children come before their parents. -/
def bottomUp (levels : Levels) (ids : List Nat) : List Nat :=
  ids.mergeSort fun a b => decide (levels.get b ≤ levels.get a)

def treeWidths (config : Config α) (levels : Levels) (bs : List Branch) (nodes : List (Node α)) :
    List (Nat × α) :=
  let own := nodes.map fun n => (n.id, n.box.width)
  subtreeWidths config.horizontalGap (valueAt own) bs (bottomUp levels (nodes.map (·.id)))

def treeCenters (config : Config α) (levels : Levels) (bs : List Branch) (nodes : List (Node α)) :
    List (Nat × α) :=
  let widths := treeWidths config levels bs nodes
  centers (valueAt widths) (nodes.map (·.id)) bs

def place (config : Config α) (levels : Levels) (edges : List Edge) (nodes : List (Node α)) :
    List (Node α) :=
  let found := treeCenters config levels (branches (nodes.map (·.id)) edges) nodes
  let center := valueAt found
  let corners := stackRows config center config.topMargin (rows levels center nodes)
  nodes.zipIdx.map fun (n, i) =>
    match corners.lookup i with
    | some corner => n.moveTo corner.x corner.y
    | none => n

end Flowchart.Layout
