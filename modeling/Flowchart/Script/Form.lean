import Flowchart.Script.Arrow
import Flowchart.Script.Label
/-! The forms in which a block is declared. Each form takes a whole line. Its payload runs up to the
last closing delimiter, so closing delimiters may stand inside. -/
namespace Flowchart.Script
open Flowchart.Text

structure Enclosure where
  opening : List Char
  closing : Char
  kind : BlockKind

def enclosures : List Enclosure :=
  [⟨['t', '('], ')', .terminator⟩, ⟨['p', '['], ']', .process⟩, ⟨['l', '['], ']', .io⟩,
    ⟨['d', '<'], '>', .decision⟩, ⟨['B', '\x7b'], '\x7d', .subBlock⟩]

/-- A closing delimiter with nothing behind it. -/
def Enclosure.end? (e : Enclosure) (cs : List Char) : Option Unit :=
  if cs = [e.closing] then some () else none

/-- The payload between the delimiters, which may not be empty: what stands before the first place
where a closing delimiter ends the line. -/
def Enclosure.payload? (e : Enclosure) (line : List Char) : Option (List Char) :=
  if e.opening.isPrefixOf line then
    match upTo? e.end? (line.drop e.opening.length) with
    | some (payload, _) => if payload.isEmpty then none else some payload
    | none => none
  else none

/-- The kind that a line declares, and its payload; three kinds have none. -/
def form? (line : List Char) : Option (BlockKind × List Char) :=
  if line = ['t', 's', '(', ')'] then some (.terminatorStart, [])
  else if line = ['t', 'e', '(', ')'] then some (.terminatorEnd, [])
  else if line = ['c', '[', ')'] then some (.connector, [])
  else enclosures.findSome? fun e => (e.payload? line).map (e.kind, ·)

def blockOf (kind : BlockKind) (payload token : List Char) : Block :=
  let token := String.ofList token
  match kind with
  | .terminatorStart => { kind, text := "Start", token }
  | .terminatorEnd => { kind, text := "End", token }
  | .connector => { kind, text := "", token }
  | .subBlock =>
    let labels := readLabels payload
    let text := (labels.get? .topMiddle).getD ((labels.get? .topLeft).getD "Block")
    { kind, text, token, labels := some labels }
  | .terminator | .process | .io | .decision =>
    { kind, text := String.ofList (labelText payload), token }

def readBlock? (token : List Char) : Option Block :=
  (form? token).map fun (kind, payload) => blockOf kind payload token

end Flowchart.Script
