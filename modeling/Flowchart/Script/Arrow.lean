import Flowchart.Text.Blank
/-! Arrows of the structure phase. An arrow starts with a letter, may carry a label behind a star,
and ends with a tail: an optional star, a direction and what closes the statement. A label runs up
to the first place where the tail fits. -/
namespace Flowchart.Script
open Flowchart.Text

inductive Direction where
  | forward
  | backward
  deriving DecidableEq, Repr

structure Arrow where
  label : Option String
  direction : Direction
  deriving DecidableEq, Repr

def direction? : List Char → Option (Direction × List Char)
  | '>' :: rest => some (.forward, rest)
  | '<' :: rest => some (.backward, rest)
  | _ => none

def directionOr (cs : List Char) : Direction × List Char := (direction? cs).getD (.forward, cs)

def skipStar : List Char → List Char
  | '*' :: rest => rest
  | cs => cs

def arrowTail? (cs : List Char) : Option (Direction × List Char) :=
  match directionOr (skipStar cs) with
  | (direction, []) => some (direction, [])
  | _ => none

/-- Tail of a back-reference: an exclamation mark, and a target behind it. -/
def referenceTail? (cs : List Char) : Option (Direction × List Char) :=
  match directionOr (skipStar cs) with
  | (direction, '!' :: target) => some (direction, target)
  | _ => none

/-- Tail of a group: a direction has to be given, and a bracket ends the line. -/
def groupTail? (cs : List Char) : Option (Direction × List Char) :=
  match direction? (skipStar cs) with
  | some (direction, ['[']) => some (direction, [])
  | _ => none

/-- The characters up to the first place where `tail?` fits, and what it reads there. -/
def upTo? {β : Type} (tail? : List Char → Option β) : List Char → Option (List Char × β)
  | [] => (tail? []).map ([], ·)
  | c :: cs =>
    match tail? (c :: cs) with
    | some found => some ([], found)
    | none => (upTo? tail? cs).map fun (before, found) => (c :: before, found)

def arrowLabel (text : List Char) : Option String :=
  let text := trim text
  if text.isEmpty then none else some (String.ofList text)

def labelled? (tail? : List Char → Option (Direction × List Char)) (cs : List Char) :
    Option (Arrow × List Char) :=
  match cs with
  | '*' :: body =>
    (upTo? tail? body).map fun (label, direction, rest) => (⟨arrowLabel label, direction⟩, rest)
  | _ => (tail? cs).map fun (direction, rest) => (⟨none, direction⟩, rest)

def arrow? : List Char → Option Arrow
  | 'a' :: rest => (labelled? arrowTail? rest).map (·.1)
  | _ => none

def backReference? : List Char → Option (Arrow × List Char)
  | 'a' :: rest =>
    match labelled? referenceTail? rest with
    | some (arrow, target) => if target.isEmpty then none else some (arrow, trim target)
    | none => none
  | _ => none

def groupOpen? : List Char → Option Arrow
  | 'm' :: 'a' :: rest => (labelled? groupTail? rest).map (·.1)
  | _ => none

/-- Split a line into a reference and the opening of a group behind it, at the first place that
allows it. `before` is the text in front, backwards. -/
def mergeFrom? : (before : List Char) → List Char → Option (List Char × Arrow)
  | _, [] => none
  | before, c :: cs =>
    let reference := trim before.reverse
    match groupOpen? (c :: cs) with
    | some arrow =>
      if reference.isEmpty then mergeFrom? (c :: before) cs else some (reference, arrow)
    | none => mergeFrom? (c :: before) cs

def mergeOpen? (line : List Char) : Option (List Char × Arrow) := mergeFrom? [] line

end Flowchart.Script
