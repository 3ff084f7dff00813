import Flowchart.Diagram
import Flowchart.Json.Reader
import Flowchart.Json.Writer
import Flowchart.Scalar.Float
/-! Diagrams as JSON. A record is an object of its fields; when read it may also be an array of them
in order. Fields with other names are passed over, but none of its own may be given twice. -/
namespace Flowchart.Json

def fields? (names : List String) : Json → Option (List (Option Json))
  | .object members =>
    let given (name : String) := members.filter (·.1 == some name)
    if members.any (·.1.isNone) || names.any (fun name => 1 < (given name).length) then none
    else some (names.map fun name => (given name).head?.map (·.2))
  | .array items =>
    if names.length < items.length then none else some (names.mapIdx fun i _ => items[i]?)
  | _ => none

/-- A field that may be missing or null. -/
def optional? {β : Type} (read? : Json → Option β) : Option Json → Option (Option β)
  | none => some none
  | some .null => some none
  | some j => (read? j).map some

/-- A kind by its name; an object that holds nothing under the name is read too. -/
def kind? : Json → Option BlockKind
  | .string (some name) => BlockKind.ofName? name
  | .object [(some name, .null)] => BlockKind.ofName? name
  | _ => none

/-- Labels by their positions; of several for a position the last counts. -/
def labels? : Json → Option Labels
  | .object members => members.foldlM (fun labels (name, j) => do
      some (labels.set (← Field.ofName? (← name)) (← j.text?))) {}
  | _ => none

def palette? (j : Json) : Option Palette := do
  match ← fields? ["background", "border", "text", "glow"] j with
  | [some background, some border, some text, some glow] =>
    some ⟨← background.text?, ← border.text?, ← text.text?, ← glow.text?⟩
  | _ => none

def node? (j : Json) : Option (Node Float) := do
  match ← fields? ["id", "kind", "text", "sub_fields", "source_token", "x", "y", "width", "height",
    "style_override", "shape_override"] j with
  | [some id, some kind, some text, labels, some token, some x, some y, some width, some height,
      style, shape] =>
    some {
      id := ← id.word?
      kind := ← kind? kind
      text := ← text.text?
      token := ← token.text?
      labels := ← optional? labels? labels
      box := ⟨← x.float?, ← y.float?, ← width.float?, ← height.float?⟩
      style := ← optional? palette? style
      shapeOverride := ← optional? kind? shape }
  | _ => none

def edge? (j : Json) : Option Edge := do
  match ← fields? ["from", "to", "label", "is_back_reference"] j with
  | [some source, some target, label, back] =>
    let back ← match back with
      | some back => back.bool?
      | none => some false
    some ⟨← source.word?, ← target.word?, ← optional? text? label, back⟩
  | _ => none

def diagram? (j : Json) : Option (Diagram Float) := do
  match ← fields? ["nodes", "edges"] j with
  | [some nodes, some edges] =>
    some ⟨← (← nodes.items?).mapM node?, ← (← edges.items?).mapM edge?⟩
  | _ => none

def readDiagram? (text : String) : Option (Diagram Float) := (read? text).bind diagram?

def ofPalette (p : Palette) : Json :=
  ofMembers [("background", some (ofText p.background)), ("border", some (ofText p.border)),
    ("text", some (ofText p.text)), ("glow", some (ofText p.glow))]

def ofLabels (labels : Labels) : Json :=
  ofMembers (labels.toList.map fun (field, text) => (field.name, some (ofText text)))

def ofKind (kind : BlockKind) : Json := ofText kind.name

/-- Fields that are not set are left out. -/
def ofNode (n : Node Float) : Json :=
  ofMembers [("id", some (ofNat n.id)), ("kind", some (ofKind n.kind)),
    ("text", some (ofText n.text)), ("sub_fields", n.labels.map ofLabels),
    ("source_token", some (ofText n.token)),
    ("x", some (ofFloat n.box.x)), ("y", some (ofFloat n.box.y)),
    ("width", some (ofFloat n.box.width)), ("height", some (ofFloat n.box.height)),
    ("style_override", n.style.map ofPalette), ("shape_override", n.shapeOverride.map ofKind)]

def ofEdge (e : Edge) : Json :=
  ofMembers [("from", some (ofNat e.source)), ("to", some (ofNat e.target)),
    ("label", e.label.map ofText), ("is_back_reference", some (.bool e.back))]

def ofDiagram (d : Diagram Float) : Json :=
  ofMembers [("nodes", some (.array (d.nodes.map ofNode))),
    ("edges", some (.array (d.edges.map ofEdge)))]

def writeDiagram (d : Diagram Float) : String := (ofDiagram d).pretty 0

end Flowchart.Json
