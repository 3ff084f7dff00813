import Flowchart.Script.Registry
import Flowchart.Script.Diagnostic
/-! The declaration phase: one block a line, except that a composite block goes on until its braces
balance. -/
namespace Flowchart.Script
open Flowchart.Text

/-- Braces opened less braces closed. The count has no limit; a signed word of 32 bits holds it for
every text with fewer than 2^31 braces. -/
def braceDepth (text : List Char) : Int :=
  (text.count '\x7b' : Int) - (text.count '\x7d' : Int)

structure Declaration where
  token : List Char
  span : Span
  deriving DecidableEq, Repr

/-- Append lines, each behind a space, while braces stay open. -/
def gather (d : Declaration) (depth : Int) : List Line → Declaration × List Line
  | [] => (d, [])
  | l :: ls =>
    if 0 < depth then
      gather ⟨d.token ++ ' ' :: l.text, ⟨d.span.start, l.stop⟩⟩ (depth + braceDepth l.text) ls
    else (d, l :: ls)

theorem length_gather_le (d : Declaration) (depth : Int) (ls : List Line) :
    (gather d depth ls).2.length ≤ ls.length := by
  induction ls generalizing d depth with
  | nil => simp [gather]
  | cons l ls ih =>
    unfold gather
    split
    · exact Nat.le_succ_of_le (ih _ _)
    · simp

def nextDeclaration (l : Line) (ls : List Line) : Declaration × List Line :=
  let d : Declaration := ⟨l.text, l.span⟩
  if ['B', '\x7b'].isPrefixOf l.text then gather d (braceDepth l.text) ls else (d, ls)

theorem length_nextDeclaration_le (l : Line) (ls : List Line) :
    (nextDeclaration l ls).2.length ≤ ls.length := by
  unfold nextDeclaration
  simp only
  split
  · exact length_gather_le _ _ _
  · simp

def declarations : List Line → List Declaration
  | [] => []
  | l :: ls =>
    (nextDeclaration l ls).1 :: declarations (nextDeclaration l ls).2
  termination_by ls => ls.length
  decreasing_by exact Nat.lt_succ_of_le (length_nextDeclaration_le l ls)

def declaredBlocks (ds : List Declaration) : Registry :=
  ds.foldl (fun blocks d =>
    match readBlock? d.token with
    | some b => Registry.declare blocks b
    | none => blocks) []

def declarationDiagnostics (ds : List Declaration) : List Diagnostic :=
  ds.filterMap fun d =>
    if (readBlock? d.token).isNone then
      some (.unrecognizedBlock (String.ofList d.token) d.span)
    else none

end Flowchart.Script
