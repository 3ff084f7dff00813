import Flowchart.Diagram
import Flowchart.Layout.Config
/-! Sizes of blocks. No font is at hand, so the width of a text is estimated from its columns. -/
namespace Flowchart.Layout

/-- The words between single spaces; two spaces in a row enclose an empty one. -/
def words : List Char → List (List Char)
  | [] => [[]]
  | c :: cs =>
    if c = ' ' then [] :: words cs
    else match words cs with
      | [] => [[c]]
      | w :: ws => (c :: w) :: ws

/-- Put words on lines. A line takes the next word unless that makes it too wide; a word too wide by
itself has a line of its own. `line` is the line begun. -/
def fillLines (tooWide : List Char → Bool) (line : List Char) : List (List Char) → List (List Char)
  | [] => if line.isEmpty then [] else [line]
  | w :: ws =>
    if line.isEmpty then fillLines tooWide w ws
    else if tooWide (line ++ ' ' :: w) then line :: fillLines tooWide w ws
    else fillLines tooWide (line ++ ' ' :: w) ws

def breakLines (tooWide : List Char → Bool) (text : List Char) : List (List Char) :=
  fillLines tooWide [] (words text)

variable {α : Type} [Scalar α]

def widthOf (config : Config α) (fontSize : α) (text : List Char) : α :=
  Scalar.ofNat (config.columns text) * config.glyphWidth fontSize

def textWidth (config : Config α) (fontSize : α) (text : String) : α :=
  widthOf config fontSize text.toList

/-- Break a text into lines of at most `maxWidth`, as far as words allow. -/
def wrapText (config : Config α) (fontSize maxWidth : α) (text : String) : List String :=
  (breakLines (fun line => decide (maxWidth < widthOf config fontSize line)) text.toList).map
    String.ofList

structure TextBox (α : Type) where
  maxWidth : α
  fontSize : α
  lineHeight : α
  deriving BEq, DecidableEq

def textBox (config : Config α) (shape : BlockKind) (width : α) : TextBox α :=
  match shape with
  | .decision => ⟨width * 0.55, config.smallFontSize, config.decisionLineHeight⟩
  | .io => ⟨width - 2 * config.ioSkew - config.nodePadding, config.fontSize, config.lineHeight⟩
  | .terminatorStart | .terminatorEnd | .terminator | .process | .connector | .subBlock =>
    ⟨width - config.nodePadding, config.fontSize, config.lineHeight⟩

def boxLines (config : Config α) (shape : BlockKind) (width : α) (text : String) : List String :=
  let box := textBox config shape width
  wrapText config box.fontSize box.maxWidth text

def labelLines (config : Config α) (n : Node α) : List String :=
  if n.shape.wrapsText then boxLines config n.shape n.box.width n.text
  else if n.text.isEmpty then [] else [n.text]

def blockWidth (config : Config α) (labelWidth : α) : α :=
  least (greatest (labelWidth + config.nodePadding * 2) config.minNodeWidth) config.maxNodeWidth

def compositeWidth (config : Config α) (n : Node α) : α :=
  let width (field : Field) : α :=
    match n.label? field with
    | some text => textWidth config config.fontSize text
    | none => 0
  greatest (greatest (greatest (greatest config.compositeWidth (width .topMiddle + 40))
    (width .bottomMiddle + 40)) (width .topLeft + width .topRight + 60))
    (width .bottomLeft + width .bottomRight + 60)

def measureNode (config : Config α) (n : Node α) : α × α :=
  let labelWidth := textWidth config config.fontSize n.text
  let wrapped (width : α) : α × α :=
    let lines := boxLines config n.shape width n.text
    let height := Scalar.ofNat lines.length * (textBox config n.shape width).lineHeight
      + config.nodePadding
    (width, greatest config.nodeHeight height)
  match n.shape with
  | .connector => (config.connectorRadius * 2, config.connectorRadius * 2)
  | .decision =>
    let side := greatest config.decisionSize (labelWidth * 0.8 + 40)
    (side, side * 0.7)
  | .subBlock => (compositeWidth config n, config.compositeHeight)
  | .terminatorStart | .terminatorEnd => (blockWidth config labelWidth, config.terminatorHeight)
  | .terminator | .process => wrapped (blockWidth config labelWidth)
  | .io => wrapped (blockWidth config labelWidth + config.ioSkew * 2)

def sizeNode (config : Config α) (n : Node α) : Node α :=
  n.resize (measureNode config n).1 (measureNode config n).2

end Flowchart.Layout
