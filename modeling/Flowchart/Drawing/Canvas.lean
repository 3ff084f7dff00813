import Flowchart.Drawing.Markup
import Flowchart.Drawing.Outline
import Flowchart.Drawing.Path
import Flowchart.Drawing.Style
import Flowchart.Layout.Measure
import Flowchart.Theme
import Flowchart.Viewport
/-! A drawing in the making. Elements are gathered in groups, from back to front: definitions and
styles, the backdrop, connections, blocks. -/
namespace Flowchart.Drawing
open Layout (Config)

structure Canvas (α : Type) where
  style : Style α
  definitions : List Line := []
  fonts : List Line := []
  backdrop : List Line := []
  connections : List Line := []
  elements : List Line := []
  transform : Option String := none
  level : Nat := 1

def labelInset {α : Type} [Scalar α] : α := 12

/-- A grid with smaller cells is left out. -/
def minGridCell {α : Type} [Scalar α] : α := 8

def selectionGap {α : Type} [Scalar α] : α := 4

def dashes : Attribute := ⟨"stroke-dasharray", "6 4"⟩

variable {α : Type} [Printable α]

/-- A rounded coordinate or length. -/
def numeric (name : String) (a : α) : Attribute := ⟨name, number a⟩

def exact (name : String) (a : α) : Attribute := ⟨name, Printable.text a⟩

/-- The base line of text with its middle at `y`. -/
def baseLine (y fontSize : α) : α := y + fontSize * 0.35

def points (ps : List (Point α)) : Attribute :=
  ⟨"points", String.intercalate " " (ps.map fun p => number p.x ++ "," ++ number p.y)⟩

def boxAttributes (b : Box α) : List Attribute :=
  [numeric "x" b.x, numeric "y" b.y, numeric "width" b.width, numeric "height" b.height]

def Outline.element : Outline α → String × List Attribute
  | .box b radius => ("rect", boxAttributes b ++ [numeric "rx" radius])
  | .polygon corners => ("polygon", [points corners])
  | .circle middle radius =>
    ("circle", [numeric "cx" middle.x, numeric "cy" middle.y, numeric "r" radius])

namespace Canvas

def ofStyle (style : Style α) : Canvas α := { style }

def indent (c : Canvas α) (level : Nat) : String :=
  if c.style.pretty then String.ofList (List.replicate (2 * level) ' ') else ""

def margin (c : Canvas α) : String := c.indent c.level

def classed (c : Canvas α) (name : String) : Attribute := ⟨"class", c.style.className name⟩

def addElement (c : Canvas α) (pieces : List Piece) : Canvas α :=
  { c with elements := c.elements ++ [⟨c.margin, pieces⟩] }

def addBackdrop (c : Canvas α) (pieces : List Piece) : Canvas α :=
  { c with backdrop := c.backdrop ++ [⟨c.margin, pieces⟩] }

def addFont (c : Canvas α) : Canvas α :=
  let text := "." ++ c.style.className "text" ++ ", ." ++ c.style.className "label" ++
    " \x7b font-family: " ++ c.style.fontFamily ++ "; \x7d"
  { c with fonts := c.fonts ++ [⟨c.indent 2, [.characters text]⟩] }

def addBackground (c : Canvas α) (area : Box α) (color : String) : Canvas α :=
  c.addBackdrop [.empty "rect"
    (c.classed "background" :: boxAttributes area ++ [.ofText "fill" color])]

def addGrid (c : Canvas α) (view : Viewport α) (color : String) : Canvas α :=
  let cell := c.style.gridSize * view.scale
  if cell < minGridCell then c
  else
    let id := c.style.className "grid"
    let size := number cell
    let path := "M" ++ size ++ " 0 L0 0 L0 " ++ size
    let pattern := [.opening "pattern" [⟨"id", id⟩, ⟨"width", size⟩, ⟨"height", size⟩,
        numeric "x" (Printable.remainder view.offsetX cell),
        numeric "y" (Printable.remainder view.offsetY cell),
        ⟨"patternUnits", "userSpaceOnUse"⟩] "",
      .empty "path" [⟨"d", path⟩, ⟨"fill", "none"⟩, .ofText "stroke" color, ⟨"stroke-width", "1"⟩],
      .closing "pattern"]
    { c.addBackdrop [.empty "rect" [⟨"class", id⟩, ⟨"x", "0"⟩, ⟨"y", "0"⟩,
        numeric "width" view.width, numeric "height" view.height,
        ⟨"fill", "url(#" ++ id ++ ")"⟩]] with
      definitions := c.definitions ++ [⟨c.indent 2, pattern⟩] }

def setView (c : Canvas α) (view : Viewport α) : Canvas α :=
  { c with
    transform := some ("translate(" ++ number view.offsetX ++ " " ++ number view.offsetY
      ++ ") scale(" ++ Printable.text view.scale ++ ")")
    level := 2 }

def openGroup (c : Canvas α) (attributes : List Attribute) (more : String) : Canvas α :=
  { c.addElement [.opening "g" attributes more] with level := c.level + 1 }

/-- Open a group with classes and with more attributes as they are written. -/
def startGroup (c : Canvas α) (classes : List String) (more : String) : Canvas α :=
  c.openGroup (if classes.isEmpty then [] else [⟨"class", String.intercalate " " classes⟩]) more

def endGroup (c : Canvas α) : Canvas α :=
  { c with level := c.level - 1 }.addElement [.closing "g"]

def edgeLabel (c : Canvas α) (theme : Theme) (config : Config α) (middle : Point α)
    (label : String) : List (List Piece) :=
  let font := c.style.labelFontSize
  let (name, place) := (Outline.ofLabel middle (Layout.textWidth config font label)).element
  [[.empty name (c.classed "label-background" :: place ++
      [.ofText "fill" theme.arrow.labelBackground, .ofText "stroke" theme.arrow.labelBorder,
        ⟨"stroke-width", "1"⟩])],
    textElement "text" [c.classed "label", numeric "x" middle.x,
      numeric "y" (baseLine middle.y font), ⟨"text-anchor", "middle"⟩, exact "font-size" font,
      .ofText "fill" theme.arrow.label] label]

def addEdge (c : Canvas α) (theme : Theme) (config : Config α) (route : Route α)
    (label : Option String) (stroke : String) (selected : Bool) : Canvas α :=
  let classes := ["edge"] ++ (if route.back then ["back-reference"] else [])
    ++ (if selected then ["selected"] else [])
  let color := if selected then theme.canvas.selection else stroke
  let width := if selected then c.style.strokeWidth + 1 else c.style.strokeWidth
  let line := .empty "path" ([⟨"d", route.pathData⟩, ⟨"fill", "none"⟩, .ofText "stroke" color,
    exact "stroke-width" width] ++ (if route.back then [dashes] else []))
  let (headName, corners) := (Outline.polygon (route.arrowHead c.style.arrowHeadSize)).element
  let head := .empty headName (corners ++ [.ofText "fill" color])
  let texts := match label with
    | some text =>
      if text.isEmpty then [] else c.edgeLabel theme config route.labelPosition text
    | none => []
  let opening := .opening "g"
    [⟨"class", String.intercalate " " (classes.map c.style.className)⟩,
      ⟨"data-edge-index", toString route.edge⟩] ""
  { c with
    connections := c.connections ++ [⟨c.margin, [opening]⟩]
      ++ ([[line], [head]] ++ texts).map (⟨c.margin ++ "  ", ·⟩)
      ++ [⟨c.margin, [.closing "g"]⟩] }

def addLabel (c : Canvas α) (config : Config α) (n : Node α) (palette : Palette) : Canvas α :=
  let lines := Layout.labelLines config n
  if lines.isEmpty then c
  else
    let box := Layout.textBox config n.shape n.box.width
    let connector := n.shape == .connector
    let font := if connector then config.smallFontSize else box.fontSize
    let step := if connector then config.lineHeight else box.lineHeight
    let middle := n.center
    let first := middle.y - (Scalar.ofNat lines.length - 1) * step / 2
    let spans := lines.zipIdx.flatMap fun (line, i) =>
      textElement "tspan" [numeric "x" middle.x,
        numeric "y" (baseLine (first + Scalar.ofNat i * step) font)] line
    c.addElement (.opening "text" [c.classed "text", numeric "x" middle.x,
      numeric "y" (baseLine first font), ⟨"text-anchor", "middle"⟩, exact "font-size" font,
      .ofText "fill" palette.text] "" :: spans ++ [.closing "text"])

/-- Size, horizontal place and anchor, and vertical place of a label on a composite block. -/
def labelPlace (config : Config α) (b : Box α) (field : Field) : α × α × String × α :=
  let top := b.y + labelInset
  let bottom := b.bottom - labelInset
  let left := (b.x + labelInset, "start")
  let right := (b.right - labelInset, "end")
  let middle := (b.center.x, "middle")
  let upper (font : α) := top + font * 0.8
  let lower (font : α) := bottom - font * 0.2
  match field with
  | .topMiddle => (config.fontSize, middle.1, middle.2, upper config.fontSize)
  | .bottomMiddle => (config.fontSize, middle.1, middle.2, lower config.fontSize)
  | .topLeft => (config.smallFontSize, left.1, left.2, upper config.smallFontSize)
  | .topRight => (config.smallFontSize, right.1, right.2, upper config.smallFontSize)
  | .bottomLeft => (config.smallFontSize, left.1, left.2, lower config.smallFontSize)
  | .bottomRight => (config.smallFontSize, right.1, right.2, lower config.smallFontSize)

def addLabels (c : Canvas α) (config : Config α) (n : Node α) (labels : Labels)
    (palette : Palette) : Canvas α :=
  labels.toList.foldl (fun c (field, text) =>
    let (font, x, anchor, y) := labelPlace config n.box field
    let classes := c.style.className "text" ++ " " ++ c.style.className field.tag
    c.addElement (textElement "text" [⟨"class", classes⟩, numeric "x" x, numeric "y" y,
      ⟨"text-anchor", anchor⟩, exact "font-size" font, .ofText "fill" palette.text] text)) c

def addNode (c : Canvas α) (config : Config α) (n : Node α) (palette : Palette) : Canvas α :=
  let classes := c.style.className "node" ++ " " ++ c.style.className n.shape.name
  let c := c.openGroup [⟨"class", classes⟩, ⟨"data-node-id", toString n.id⟩] ""
  let (name, attributes) := (Outline.ofNode config n).element
  let c := c.addElement [.empty name (attributes ++ [c.classed "glow", ⟨"fill", "none"⟩,
    .ofText "stroke" palette.glow, exact "stroke-width" c.style.glowWidth])]
  let c := c.addElement [.empty name (attributes ++ [c.classed "shape",
    .ofText "fill" palette.background, .ofText "stroke" palette.border,
    exact "stroke-width" c.style.strokeWidth])]
  let labels := n.labels.getD {}
  let c := if n.shape == .subBlock && !labels.isEmpty then c.addLabels config n labels palette
    else c.addLabel config n palette
  c.endGroup

def addSelection (c : Canvas α) (bounds : Box α) (color : String) : Canvas α :=
  c.addElement [.empty "rect" (c.classed "selection" :: boxAttributes (bounds.inflate selectionGap)
    ++ [⟨"rx", "6"⟩, ⟨"fill", "none"⟩, .ofText "stroke" color, ⟨"stroke-width", "2"⟩, dashes])]

/-- Lines inside an element of their own; no lines, no element. -/
def section? (c : Canvas α) (name : String) (ls : List Line) : List Line :=
  if ls.isEmpty then []
  else
    [⟨c.indent 1, [.opening name [] ""]⟩] ++ ls ++ [⟨c.indent 1, [.closing name]⟩]

def lines (c : Canvas α) (view : Box α) : List Line :=
  let extent := String.intercalate " "
    [number view.x, number view.y, number view.width, number view.height]
  let front := c.connections ++ c.elements
  (if c.style.standalone then [⟨"", [.declaration]⟩] else [])
    ++ [⟨"", [.opening "svg" [⟨"xmlns", "http://www.w3.org/2000/svg"⟩, numeric "width" view.width,
      numeric "height" view.height, ⟨"viewBox", extent⟩] ""]⟩]
    ++ c.section? "style" c.fonts ++ c.section? "defs" c.definitions ++ c.backdrop
    ++ (match c.transform with
      | some transform =>
        [⟨c.indent 1, [.opening "g" [⟨"transform", transform⟩] ""]⟩] ++ front
          ++ [⟨c.indent 1, [.closing "g"]⟩]
      | none => front)
    ++ [⟨"", [.closing "svg"]⟩]

def build (c : Canvas α) (view : Box α) : String := writeLines c.style.pretty (c.lines view)

end Canvas
end Flowchart.Drawing
