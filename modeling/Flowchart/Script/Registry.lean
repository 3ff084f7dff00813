import Flowchart.Script.Form
import Flowchart.Text.Distance
/-! The declared blocks, and how statements name them: by tokens in which blanks do not count. -/
namespace Flowchart.Script
open Flowchart.Text

/-- Blocks in the order of their declaration; a block is named by its place. -/
abbrev Registry := List Block

def key (b : Block) : List Char := strip b.token.toList

namespace Registry

def resolve? (blocks : Registry) (token : List Char) : Option Nat :=
  blocks.findIdx? (key · == strip token)

def declare (blocks : Registry) (b : Block) : Registry :=
  if (blocks.resolve? b.token.toList).isSome then blocks else blocks ++ [b]

/-- Keep the longer of two keys, the earlier one when they are equally long. -/
def longer (best : Option (Nat × List Char)) (entry : Nat × List Char) :
    Option (Nat × List Char) :=
  match best with
  | some found => if entry.2.length ≤ found.2.length then best else some entry
  | none => some entry

/-- The block with the longest key that a line starts with, and that key. -/
def longestPrefix? (blocks : Registry) (line : List Char) : Option (Nat × List Char) :=
  let candidates := blocks.zipIdx.filterMap fun (b, i) =>
    if !(key b).isEmpty && (key b).isPrefixOf (strip line) then some (i, key b) else none
  candidates.foldl longer none

/-- Order of suggestions: the smaller distance, then the earlier block. -/
def closer (a b : Nat × Nat) : Bool := a.1 < b.1 || (a.1 == b.1 && a.2 ≤ b.2)

/-- Up to three tokens that are one or two edits away. -/
def suggest (blocks : Registry) (token : List Char) : List String :=
  let candidates := blocks.zipIdx.filterMap fun (b, i) =>
    let d := distance (key b) (strip token)
    if 0 < d && d ≤ 2 then some (d, i) else none
  ((candidates.mergeSort closer).take 3).filterMap fun (_, i) => blocks[i]?.map (·.token)

end Registry

/-- What is left of a line behind its first `count` characters that are no blanks. -/
def skipMarks : (count : Nat) → List Char → List Char
  | 0, cs => cs
  | _ + 1, [] => []
  | count + 1, c :: cs => if isBlank c then skipMarks (count + 1) cs else skipMarks count cs

end Flowchart.Script
