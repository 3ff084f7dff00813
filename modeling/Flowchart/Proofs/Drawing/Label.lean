import Flowchart.Drawing.Canvas
import Flowchart.Proofs.Float.Finite
import Flowchart.Proofs.Float.Order
/-! Labels fit into their blocks. A block is made as high as the lines of its label, and the lines
that are drawn later, in the width it was given, are the ones it was measured by. -/
namespace Flowchart

namespace Layout

section Measured
variable {α : Type} [Scalar α] {config : Config α} {n : Node α}

/-- The lines of a label in the width that measuring chooses for its block. -/
def measuredLines (config : Config α) (n : Node α) : List String :=
  boxLines config n.shape (measureNode config n).1 n.text

/-- Height of so many lines of text with the padding around them. -/
def textHeight (config : Config α) (shape : BlockKind) (width : α) (lines : Nat) : α :=
  Scalar.ofNat lines * (textBox config shape width).lineHeight + config.nodePadding

/-- Shapes as high as the text in them. -/
def Fitted (shape : BlockKind) : Prop := shape = .terminator ∨ shape = .process ∨ shape = .io

theorem labelLines_sizeNode (wraps : n.shape.wrapsText = true) :
    labelLines config (sizeNode config n) = measuredLines config n := by
  have same : (sizeNode config n).shape = n.shape := rfl
  rw [labelLines, same, if_pos wraps]
  rfl

theorem Fitted.wrapsText {shape : BlockKind} (fitted : Fitted shape) : shape.wrapsText = true := by
  rcases fitted with rfl | rfl | rfl <;> rfl

theorem Fitted.lineHeight {shape : BlockKind} (fitted : Fitted shape) (width : α) :
    (textBox config shape width).lineHeight = config.lineHeight := by
  rcases fitted with rfl | rfl | rfl <;> rfl

/-- The height of a block comes from its measured lines. -/
theorem Fitted.measureNode_snd (fitted : Fitted n.shape) :
    (measureNode config n).2 = greatest config.nodeHeight
      (textHeight config n.shape (measureNode config n).1 (measuredLines config n).length) := by
  unfold measuredLines textHeight measureNode
  rcases fitted with shape | shape | shape <;> rw [shape]

end Measured

section Count
variable {α : Type} [Scalar α]

theorem length_words_le (text : List Char) : (words text).length ≤ text.length + 1 := by
  induction text with
  | nil => exact Nat.le_refl 1
  | cons c cs ih =>
      rw [words]
      split
      · exact Nat.succ_le_succ ih
      · split
        · exact Nat.le_add_left 1 _
        · next w ws split => exact (split ▸ ih).trans (Nat.le_succ _)

theorem length_fillLines_le (tooWide : List Char → Bool) (line : List Char)
    (ws : List (List Char)) : (fillLines tooWide line ws).length ≤ ws.length + 1 := by
  induction ws generalizing line with
  | nil => cases line <;> simp [fillLines]
  | cons w ws ih =>
      rw [fillLines]
      split
      · exact (ih w).trans (Nat.le_succ _)
      · split
        · exact Nat.succ_le_succ (ih w)
        · exact (ih _).trans (Nat.le_succ _)

theorem length_boxLines_le (config : Config α) (shape : BlockKind) (width : α) (text : String) :
    (boxLines config shape width text).length ≤ text.length + 2 := by
  rw [boxLines, wrapText, List.length_map, breakLines, ← String.length_toList]
  exact (length_fillLines_le _ _ _).trans (Nat.succ_le_succ (length_words_le _))

end Count
end Layout

namespace Drawing
open Layout

section Spans
variable {α : Type}

/-- Does a piece begin a line of a label? -/
def Piece.beginsSpan : Piece → Bool
  | .opening name _ _ => name == "tspan"
  | .declaration | .closing _ | .empty _ _ | .characters _ => false

/-- How many lines of labels a drawing has. -/
def Canvas.spanCount (c : Canvas α) : Nat :=
  (c.elements.flatMap (·.pieces)).countP Piece.beginsSpan

theorem spanCount_addElement (c : Canvas α) (pieces : List Piece) :
    (c.addElement pieces).spanCount = c.spanCount + pieces.countP Piece.beginsSpan := by
  simp [Canvas.spanCount, Canvas.addElement]

theorem spanCount_openGroup (c : Canvas α) (attributes : List Attribute) (more : String) :
    (c.openGroup attributes more).spanCount = c.spanCount :=
  spanCount_addElement c [.opening "g" attributes more]

theorem spanCount_endGroup (c : Canvas α) : c.endGroup.spanCount = c.spanCount :=
  spanCount_addElement { c with level := c.level - 1 } [.closing "g"]

/-- Each line of a label is an element of its own. -/
theorem countP_spans (lines : List String) (attributes : String × Nat → List Attribute) :
    (lines.zipIdx.flatMap fun p => textElement "tspan" (attributes p) p.1).countP
      Piece.beginsSpan = lines.length := by
  have one (p : String × Nat) :
      (textElement "tspan" (attributes p) p.1).countP Piece.beginsSpan = 1 := rfl
  rw [List.countP_flatMap]
  simp [Function.comp_def, one, List.map_const']

end Spans

section Label
variable {α : Type} [Printable α] {config : Config α} {n : Node α} (c : Canvas α)

theorem spanCount_addLabel (palette : Palette) :
    (c.addLabel config n palette).spanCount = c.spanCount + (labelLines config n).length := by
  unfold Canvas.addLabel
  simp only
  split
  · next none => simp [List.isEmpty_iff.mp none]
  · rw [spanCount_addElement, List.countP_append, List.countP_cons, countP_spans]
    rfl

/-- A block that is no composite one is drawn with the lines of its label. -/
theorem spanCount_addNode (simple : n.shape ≠ .subBlock) (palette : Palette) :
    (c.addNode config n palette).spanCount = c.spanCount + (labelLines config n).length := by
  unfold Canvas.addNode
  simp only [beq_eq_false_iff_ne.mpr simple, Bool.false_and, Bool.false_eq_true, if_false]
  rw [spanCount_endGroup, spanCount_addLabel, spanCount_addElement, spanCount_addElement,
    spanCount_openGroup]
  rfl

end Label

section Fit
variable {config : Config Float} {n : Node Float}

/-- A measured block and its label. -/
structure Fits (config : Config Float) (n sized : Node Float) : Prop where
  measured : (sized.box.width, sized.box.height) = measureNode config n
  height : sized.box.height = greatest config.nodeHeight
    (textHeight config n.shape sized.box.width (measuredLines config n).length)
  lines : (labelLines config sized).length = (measuredLines config n).length
  drawn : ∀ (c : Canvas Float) (palette : Palette), (c.addNode config sized palette).spanCount =
    c.spanCount + (measuredLines config n).length
  fits : textHeight config n.shape sized.box.width (labelLines config sized).length ≤
    sized.box.height

/-- The lines of a label are as many as its block was measured by, and fit into its height. Of the
configuration it takes only a line height and a padding that are finite, with any count of columns,
and of the text only that a machine word can count its characters. -/
theorem sizeNode_fits (spaced : config.lineHeight.isFinite = true)
    (padded : config.nodePadding.isFinite = true) (fitted : Fitted n.shape)
    (countable : n.text.length < 2 ^ 63) : Fits config n (sizeNode config n) := by
  have lines : labelLines config (sizeNode config n) = measuredLines config n :=
    labelLines_sizeNode fitted.wrapsText
  have simple : (sizeNode config n).shape ≠ .subBlock := by
    change n.shape ≠ .subBlock
    rcases fitted with shape | shape | shape <;> rw [shape] <;> decide
  have few : (measuredLines config n).length < 2 ^ 64 := by
    have bound := length_boxLines_le config n.shape (measureNode config n).1 n.text
    change (measuredLines config n).length ≤ _ at bound
    omega
  constructor
  case measured => rfl
  case height => exact fitted.measureNode_snd
  case lines => rw [lines]
  case drawn =>
    intro c palette
    rw [spanCount_addNode c simple palette, lines]
  case fits =>
    have height : (sizeNode config n).box.height = _ := fitted.measureNode_snd
    rw [lines, height]
    refine float_le_greatest ?_
    refine number_add_finite (number_mul_finite (finite_ofNat few) ?_) padded
    rw [fitted.lineHeight]
    exact spaced

/-- A decision that is shown as an input, with more words than one line takes. -/
theorem sizeNode_fits_overridden :
    let config : Config Float := Config.standard
    let text := "Read the next order of the customer from the tray"
    let n : Node Float := ⟨⟨.decision, text, "", none⟩, 0, Box.zero, none, some .io⟩
    config.lineHeight.isFinite = true ∧ config.nodePadding.isFinite = true ∧ Fitted n.shape ∧
      n.text.length < 2 ^ 63 ∧ Fits config n (sizeNode config n) := by
  intro config text n
  have spaced : config.lineHeight.isFinite = true := finite_ofNat (n := 16) (by decide)
  have padded : config.nodePadding.isFinite = true := finite_ofNat (n := 20) (by decide)
  have fitted : Fitted n.shape := .inr (.inr rfl)
  have countable : n.text.length < 2 ^ 63 := by decide
  exact ⟨spaced, padded, fitted, countable, sizeNode_fits spaced padded fitted countable⟩

end Fit
end Drawing
end Flowchart
