import Flowchart.Diagram
import Flowchart.Script.Arrow
import Flowchart.Script.Declaration
/-! The structure phase: statements connect the declared blocks. A walk over the lines remembers the
block it stands on and the arrow that leaves it. -/
namespace Flowchart.Script
open Flowchart.Text

/-- What a line says, in the order in which the forms are tried. -/
inductive Statement where
  | inlineBack (source : Nat) (arrow : Arrow) (target : List Char)
  | back (arrow : Arrow) (target : List Char)
  | group (arrow : Arrow)
  | merge (reference : List Char) (arrow : Arrow)
  | arrow (arrow : Arrow)
  | visit (block : Nat)
  | unknown
  deriving DecidableEq, Repr

/-- A back-reference behind the longest token that a line starts with. -/
def inlineBack? (blocks : Registry) (line : List Char) : Option (Nat × Arrow × List Char) :=
  match blocks.longestPrefix? line with
  | some (source, found) =>
    (backReference? (trim (skipMarks found.length line))).map fun (arrow, target) =>
      (source, arrow, target)
  | none => none

def statement (blocks : Registry) (line : List Char) : Statement :=
  match inlineBack? blocks line with
  | some (source, arrow, target) => .inlineBack source arrow target
  | none =>
  match backReference? line with
  | some (arrow, target) => .back arrow target
  | none =>
  match groupOpen? line with
  | some arrow => .group arrow
  | none =>
  match mergeOpen? line with
  | some (reference, arrow) => .merge reference arrow
  | none =>
  match arrow? line with
  | some arrow => .arrow arrow
  | none =>
  match blocks.longestPrefix? line with
  | some (block, _) => .visit block
  | none => .unknown

/-- Where a walk stands, and what it has found. -/
structure Walk where
  previous : Option Nat := none
  pending : Option Arrow := none
  edges : List Edge := []
  diagnostics : List Diagnostic := []
  deriving DecidableEq, Repr

namespace Walk

def warn (w : Walk) (d : Diagnostic) : Walk := { w with diagnostics := w.diagnostics ++ [d] }

/-- Connect two blocks as an arrow says: forward from the anchor, backward into it. The same
connection is made once. -/
def link (w : Walk) (anchor other : Nat) (arrow : Arrow) (back : Bool) : Walk :=
  let edge : Edge := match arrow.direction with
    | .forward => { source := anchor, target := other, label := arrow.label, back }
    | .backward => { source := other, target := anchor, label := arrow.label, back }
  if w.edges.any edge.sameConnection then w else { w with edges := w.edges ++ [edge] }

/-- Step onto a block, and complete the arrow that leads there. -/
def arrive (w : Walk) (block : Nat) : Walk :=
  let linked := match w.previous, w.pending with
    | some previous, some arrow => w.link previous block arrow false
    | _, _ => w
  { linked with previous := some block, pending := none }

def unresolved (blocks : Registry) (w : Walk) (token : List Char) (l : Line) : Walk :=
  w.warn (.unresolvedReference (String.ofList token) l.span (blocks.suggest token))

/-- One line of a group: an arrow labels the next member, and a member is connected to the anchor
under its own label or else the group's. -/
def member (blocks : Registry) (anchor : Option Nat) (group : Arrow) (state : Walk × Option String)
    (l : Line) : Walk × Option String :=
  let (w, label) := state
  match arrow? l.text with
  | some arrow => (w, arrow.label)
  | none =>
    match blocks.resolve? l.text with
    | none => (unresolved blocks w l.text l, none)
    | some block =>
      match anchor with
      | some anchor =>
        (w.link anchor block ⟨label.or group.label, group.direction⟩ false, none)
      | none => (w, none)

end Walk

def groupBody (ls : List Line) : List Line × List Line :=
  (ls.takeWhile (·.text != [']']), (ls.dropWhile (·.text != [']'])).drop 1)

def isClosed (ls : List Line) : Bool := ls.any (·.text == [']'])

theorem length_groupBody_le (ls : List Line) : (groupBody ls).2.length ≤ ls.length := by
  simp only [groupBody, List.length_drop]
  exact Nat.le_trans (Nat.sub_le _ _) (List.dropWhile_sublist _).length_le

namespace Walk

def group (blocks : Registry) (w : Walk) (anchor : Option Nat) (arrow : Arrow) (l : Line)
    (ls : List Line) : Walk :=
  let w := if isClosed ls then w else w.warn (.unclosedGroup l.span)
  ((groupBody ls).1.foldl (member blocks anchor arrow) (w, none)).1

/-- Follow one statement at line `l`; a group also takes its lines from `ls`. -/
def step (blocks : Registry) (w : Walk) (l : Line) (ls : List Line) : Walk × List Line :=
  match statement blocks l.text with
  | .inlineBack source arrow target =>
    let w := w.arrive source
    let w := match blocks.resolve? target with
      | some target => w.link source target arrow true
      | none => unresolved blocks w target l
    ({ w with previous := none }, ls)
  | .back arrow target =>
    let left := { w with previous := none, pending := none }
    match w.previous, blocks.resolve? target with
    | some source, some target => (left.link source target arrow true, ls)
    | none, _ => (left.warn (.missingSource l.span), ls)
    | some _, none => (unresolved blocks left target l, ls)
  | .group arrow =>
    let warned := if w.previous.isNone then w.warn (.missingSource l.span) else w
    (warned.group blocks w.previous arrow l ls, (groupBody ls).2)
  | .merge reference arrow =>
    match blocks.resolve? reference with
    | some anchor =>
      ((w.arrive anchor).group blocks (some anchor) arrow l ls, (groupBody ls).2)
    | none =>
      ((unresolved blocks w reference l).group blocks w.previous arrow l ls, (groupBody ls).2)
  | .arrow arrow => ({ w with pending := some arrow }, ls)
  | .visit block => (w.arrive block, ls)
  | .unknown => (w.warn (.unrecognizedStatement (String.ofList l.text) l.span), ls)

theorem length_step_le (blocks : Registry) (w : Walk) (l : Line) (ls : List Line) :
    (w.step blocks l ls).2.length ≤ ls.length := by
  have body := length_groupBody_le ls
  unfold step
  split
  · simp
  · simp only
    split <;> simp
  · exact body
  · split <;> exact body
  · simp
  · simp
  · simp

def run (blocks : Registry) (w : Walk) : List Line → Walk
  | [] => w
  | l :: ls => run blocks (w.step blocks l ls).1 (w.step blocks l ls).2
  termination_by ls => ls.length
  decreasing_by exact Nat.lt_succ_of_le (length_step_le blocks w l ls)

end Walk
end Flowchart.Script
