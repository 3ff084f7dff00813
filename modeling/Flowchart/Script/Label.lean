import Flowchart.Block
import Flowchart.Text.Blank
/-! The text inside a block's delimiters: quotes around a label, and marks in front of the labels of
a composite block. -/
namespace Flowchart.Script
open Flowchart.Text

/-- The ways to quote a label, the longer ones first so that three quotes are not read as one. -/
def quoteMarks : List (List Char) :=
  [['"', '"', '"'], ['\'', '\'', '\''], ['"'], ['\'']]

/-- What `mark` encloses on both sides of a text, unless that is nothing. -/
def unquote? (mark text : List Char) : Option (List Char) :=
  if mark.isPrefixOf text then
    let rest := text.drop mark.length
    if mark.isSuffixOf rest && mark.length < rest.length then
      some (rest.take (rest.length - mark.length))
    else none
  else none

def labelText (payload : List Char) : List Char :=
  let text := trim payload
  trim ((quoteMarks.findSome? (unquote? · text)).getD text)

def isTagLetter (c : Char) : Bool := 'a' ≤ c && c ≤ 'z'

def mark? : List Char → Option (List Char × List Char)
  | '*' :: a :: b :: ':' :: rest =>
    if isTagLetter a && isTagLetter b then some ([a, b], rest) else none
  | _ => none

theorem mark?_length {cs tag rest : List Char} (h : mark? cs = some (tag, rest)) :
    rest.length < cs.length := by
  unfold mark? at h
  split at h
  · split at h
    · simp only [Option.some.injEq, Prod.mk.injEq] at h
      simp only [← h.2, List.length_cons]
      omega
    · exact absurd h (by simp)
  · exact absurd h (by simp)

/-- The text before the first mark, and each mark's letters with the text up to the next one. -/
def segments : List Char → List Char × List (List Char × List Char)
  | [] => ([], [])
  | c :: cs =>
    match _h : mark? (c :: cs) with
    | some (tag, rest) =>
      let (text, later) := segments rest
      ([], (tag, text) :: later)
    | none =>
      let (text, later) := segments cs
      (c :: text, later)
  termination_by cs => cs.length
  decreasing_by
    · exact mark?_length _h
    · simp

/-- Put one marked text in, unless its mark is unknown, its place is taken or nothing is in it. -/
def addLabel (labels : Labels) (segment : List Char × List Char) : Labels :=
  match Field.ofTag? (String.ofList segment.1) with
  | none => labels
  | some field =>
    let text := labelText segment.2
    if (labels.get? field).isSome || text.isEmpty then labels
    else labels.set field (String.ofList text)

def readLabels (content : List Char) : Labels := (segments content).2.foldl addLabel {}

end Flowchart.Script
