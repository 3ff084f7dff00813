import Flowchart.Drawing
import Flowchart.Proofs.Drawing.Pieces
/-! What a canvas gathers are lines of whole elements, whatever the blocks, connections and colors
say. Each connection comes with one mark and each block with one mark. -/
namespace Flowchart.Drawing

section Attributes
variable {α : Type} [Printable α]

/-- What a drawing takes over as it is may stand where it is put: numbers and classes between
quotes, fonts in a text. -/
structure Style.Clean (style : Style α) : Prop where
  printed : ∀ a : α, IsValue (Printable.text a)
  classes : IsValue (style.classPrefix.getD "")
  fonts : IsText style.fontFamily

variable {style : Style α} {name : String}

theorem common_literal {value : String} (known : name ∈ commonNames) (sound : IsValue value) :
    Common ⟨name, value⟩ :=
  ⟨known, sound⟩

theorem common_ofText (known : name ∈ commonNames) (text : String) :
    Common (.ofText name text) :=
  ⟨known, isValue_escaped text⟩

namespace Style.Clean
variable (clean : style.Clean)
include clean

theorem number (a : α) : IsValue (number a) := clean.printed _

theorem className {name : String} (value : IsValue name) : IsValue (style.className name) :=
  clean.classes.append value

theorem classNames {name other : String} (value : IsValue name) (another : IsValue other) :
    IsValue (style.className name ++ " " ++ style.className other) :=
  ((clean.className value).append (by decide)).append (clean.className another)

theorem numeric (known : name ∈ commonNames) (a : α) : Common (numeric name a) :=
  ⟨known, clean.number a⟩

theorem exact (known : name ∈ commonNames) (a : α) : Common (exact name a) :=
  ⟨known, clean.printed a⟩

theorem coordinates (p : Point α) : IsValue (coordinates p) :=
  ((clean.number p.x).append (by decide)).append (clean.number p.y)

theorem lineTo (p : Point α) : IsValue (lineTo p) :=
  IsValue.append (by decide) (clean.coordinates p)

theorem points (ps : List (Point α)) : Common (points ps) := by
  have known : "points" ∈ commonNames := by decide
  refine ⟨known, isValue_intercalate (by decide) ?_⟩
  intro s inside
  obtain ⟨p, -, rfl⟩ := List.mem_map.mp inside
  exact ((clean.number p.x).append (by decide)).append (clean.number p.y)

theorem pathData (r : Route α) : IsValue r.pathData := by
  refine ((by decide : IsValue "M").append (clean.coordinates r.start)).append ?_
  split
  · exact clean.lineTo r.finish
  · next first second _ =>
    have comma : IsValue ", " := by decide
    have bend := (by decide : IsValue " C").append (clean.coordinates first)
    have other := (bend.append comma).append (clean.coordinates second)
    exact (other.append comma).append (clean.coordinates r.finish)
  · next corners _ =>
    refine isValue_join ?_
    intro s inside
    obtain ⟨p, -, rfl⟩ := List.mem_map.mp inside
    exact clean.lineTo p

theorem boxAttributes (b : Box α) : ∀ a ∈ boxAttributes b, Common a := by
  simp +decide [Drawing.boxAttributes, clean.numeric]

theorem element (o : Outline α) :
    o.element.1 ∈ elementNames ∧ ∀ a ∈ o.element.2, Common a := by
  cases o with
  | box b radius =>
      refine ⟨by simp +decide [Outline.element], List.forall_mem_append.mpr ?_⟩
      exact ⟨clean.boxAttributes b, by simp +decide [clean.numeric]⟩
  | polygon corners => simp +decide [Outline.element, clean.points]
  | circle middle radius => simp +decide [Outline.element, clean.numeric]

theorem text {classes anchor : String} (classed : IsValue classes) (anchored : IsValue anchor)
    (x y font : α) (color : String) : ∀ a ∈ [⟨"class", classes⟩, Drawing.numeric "x" x,
      Drawing.numeric "y" y, ⟨"text-anchor", anchor⟩, Drawing.exact "font-size" font,
      .ofText "fill" color], Common a := by
  simp +decide [common_literal, classed, anchored, clean.numeric, clean.exact, common_ofText]

end Style.Clean
end Attributes

namespace Canvas

section Lines
variable {α : Type} {ms : List Mark} {c c' c'' : Canvas α}

/-- The second canvas is the first one with some lines more in front, which show these marks. -/
def Draws (ms : List Mark) (c c' : Canvas α) : Prop :=
  ∃ ls, c' = { c with elements := c.elements ++ ls } ∧ Shows ms (linePieces c.style.pretty ls)

theorem Draws.refl (c : Canvas α) : Draws [] c c :=
  ⟨[], by rw [List.append_nil], .nil⟩

theorem Draws.trans (first : Draws [] c c') (second : Draws ms c' c'') : Draws ms c c'' := by
  obtain ⟨ls, rfl, shows⟩ := first
  obtain ⟨more, rfl, others⟩ := second
  refine ⟨ls ++ more, by rw [List.append_assoc], ?_⟩
  rw [linePieces_append]
  exact shows.append others

theorem isText_indent (c : Canvas α) (level : Nat) : IsText (c.indent level) := by
  unfold indent
  split
  · exact isText_spaces _
  · rfl

theorem draws_addElement (c : Canvas α) {ps : List Piece} (shows : Shows ms ps) :
    Draws ms c (c.addElement ps) :=
  ⟨[⟨c.margin, ps⟩], rfl, shows.line _ (c.isText_indent c.level)⟩

theorem draws_group {attributes : List Attribute} (sound : Tag.Sound ⟨"g", attributes⟩)
    (draws : Draws ms (c.openGroup attributes "") c') :
    Draws (Tag.marks ⟨"g", attributes⟩ ++ ms) c c'.endGroup := by
  obtain ⟨ls, rfl, shows⟩ := draws
  refine ⟨_, ?_, shows.group sound (c.isText_indent c.level) (c.isText_indent c.level)⟩
  simp only [openGroup, endGroup, addElement, margin, indent, Nat.add_sub_cancel,
    List.append_assoc]

end Lines

section Steps
variable {α : Type} [Printable α] {c : Canvas α} (clean : c.style.Clean)
include clean

theorem common_classed {name : String} (value : IsValue name) : Common (c.classed name) := by
  have known : "class" ∈ commonNames := by decide
  exact ⟨known, clean.className value⟩

/-- A class before attributes that tell a place and others that tell colors and lines. -/
theorem common_placed {name : String} (value : IsValue name) {place paint : List Attribute}
    (placed : ∀ a ∈ place, Common a) (painted : ∀ a ∈ paint, Common a) :
    ∀ a ∈ c.classed name :: place ++ paint, Common a := by
  rw [List.cons_append, List.forall_mem_cons, List.forall_mem_append]
  exact ⟨common_classed clean value, placed, painted⟩

theorem draws_addLabel (config : Layout.Config α) (n : Node α) (palette : Palette) :
    Draws [] c (c.addLabel config n palette) := by
  unfold addLabel
  simp only
  split
  · exact .refl c
  · have common := clean.text (clean.className (by decide : IsValue "text"))
      (by decide : IsValue "middle")
    have whole (x y font : α) {ps : List Piece} (spans : Shows [] ps) :=
      spans.enclose (sound_common (by decide : "text" ∈ elementNames)
        (common x y font palette.text))
    simp only [marks_common (common _ _ _ _)] at whole
    refine draws_addElement c (whole _ _ _ (.flatMap ?_))
    rintro ⟨line, i⟩ -
    exact .textElement (by decide) (by simp +decide [clean.numeric]) line

theorem draws_addLabels (config : Layout.Config α) (n : Node α) (labels : Labels)
    (palette : Palette) : Draws [] c (c.addLabels config n labels palette) := by
  unfold addLabels
  generalize labels.toList = texts
  induction texts generalizing c with
  | nil => exact .refl c
  | cons label texts ih =>
      obtain ⟨field, text⟩ := label
      have tag : IsValue field.tag := by cases field <;> decide
      have anchor : IsValue (labelPlace config n.box field).2.2.1 := by
        cases field <;> simp +decide [labelPlace]
      have common := clean.text (clean.classNames (by decide : IsValue "text") tag) anchor
      have element : "text" ∈ elementNames := by decide
      exact (draws_addElement c (.textElement element (common _ _ _ palette.text) text)).trans
        (ih clean)

theorem draws_addSelection (bounds : Box α) (color : String) :
    Draws [] c (c.addSelection bounds color) := by
  refine draws_addElement c (.empty (by decide) ?_)
  refine common_placed clean (by decide) (clean.boxAttributes _) ?_
  simp +decide [common_literal, common_ofText, dashes]

omit clean in
/-- A group with classes and a mark may be written, and shows the mark. -/
theorem sound_group {classes mark value : String} (known : mark ∈ [edgeMark, nodeMark])
    (classed : IsValue classes) (valued : IsValue value) :
    Tag.Sound ⟨"g", [⟨"class", classes⟩, ⟨mark, value⟩]⟩ ∧
      Tag.marks ⟨"g", [⟨"class", classes⟩, ⟨mark, value⟩]⟩ = [("g", ⟨mark, value⟩)] := by
  have element : "g" ∈ elementNames := by decide
  have named : isName "class" = true ∧ isName mark = true :=
    ⟨by decide, isName_of_mem mark (List.mem_append_right _ known)⟩
  constructor
  · exact ⟨element, by simp [named, classed, valued]⟩
  · have marked : (mark == edgeMark || mark == nodeMark) = true := by simpa using known
    have plain : ("class" == edgeMark || "class" == nodeMark) = false := by decide
    simp [Tag.marks, marked, plain]

theorem draws_addNode (config : Layout.Config α) (n : Node α) (palette : Palette) :
    Draws [("g", ⟨nodeMark, toString n.id⟩)] c (c.addNode config n palette) := by
  have shape : IsValue n.shape.name := by cases n.shape <;> decide
  obtain ⟨sound, shown⟩ := sound_group (by decide : nodeMark ∈ _)
    (clean.classNames (by decide : IsValue "node") shape) (lacks_nat n.id).isValue
  obtain ⟨element, outline⟩ := clean.element (Outline.ofNode config n)
  unfold addNode
  generalize (Outline.ofNode config n).element = drawn at element outline ⊢
  obtain ⟨name, attributes⟩ := drawn
  have outlined (c' : Canvas α) {as : List Attribute} (common : ∀ a ∈ as, Common a) :
      Draws [] c' (c'.addElement [.empty name (attributes ++ as)]) :=
    draws_addElement c' (.empty element (List.forall_mem_append.mpr ⟨outline, common⟩))
  have halo : ∀ a ∈ [c.classed "glow", ⟨"fill", "none"⟩, .ofText "stroke" palette.glow,
      exact "stroke-width" c.style.glowWidth], Common a := by
    simp +decide [common_classed clean, common_literal, common_ofText, clean.exact]
  have body : ∀ a ∈ [c.classed "shape", .ofText "fill" palette.background,
      .ofText "stroke" palette.border, exact "stroke-width" c.style.strokeWidth], Common a := by
    simp +decide [common_classed clean, common_ofText, clean.exact]
  rw [← shown, ← List.append_nil (Tag.marks _)]
  refine draws_group sound ((outlined _ halo).trans ((outlined _ body).trans ?_))
  -- The style that the labels are written in is still that of the first canvas.
  split
  · refine draws_addLabels ?_ config n _ palette
    exact clean
  · refine draws_addLabel ?_ config n palette
    exact clean

theorem shows_edgeLabel (theme : Theme) (config : Layout.Config α) (middle : Point α)
    (label : String) : ∀ ps ∈ c.edgeLabel theme config middle label, Shows [] ps := by
  have text : "text" ∈ elementNames := by decide
  obtain ⟨element, outline⟩ := clean.element
    (.ofLabel middle (Layout.textWidth config c.style.labelFontSize label))
  have ground := common_placed clean (by decide : IsValue "label-background") outline
    (by simp +decide [common_literal, common_ofText] :
      ∀ a ∈ [.ofText "fill" theme.arrow.labelBackground,
        .ofText "stroke" theme.arrow.labelBorder, ⟨"stroke-width", "1"⟩], Common a)
  have words := clean.text (clean.className (by decide : IsValue "label"))
    (by decide : IsValue "middle")
  exact List.forall_mem_cons.mpr ⟨.empty element ground,
    List.forall_mem_singleton.mpr (.textElement text (words _ _ _ _) label)⟩

theorem isValue_edgeClasses (back selected : Bool) :
    IsValue (String.intercalate " " ((["edge"] ++ (if back then ["back-reference"] else [])
      ++ (if selected then ["selected"] else [])).map c.style.className)) := by
  have classes : ∀ name ∈ ["edge"] ++ (if back then ["back-reference"] else [])
      ++ (if selected then ["selected"] else []), IsValue name := by
    cases back <;> cases selected <;> decide
  exact isValue_intercalate (by decide)
    (List.forall_mem_map.mpr fun name inside => clean.className (classes name inside))

/-- A connection adds a group of its own that shows its mark. -/
theorem connects_addEdge (theme : Theme) (config : Layout.Config α) (route : Route α)
    (label : Option String) (stroke : String) (selected : Bool) :
    ∃ ls, c.addEdge theme config route label stroke selected =
        { c with connections := c.connections ++ ls } ∧
      Shows [("g", ⟨edgeMark, toString route.edge⟩)] (linePieces c.style.pretty ls) := by
  obtain ⟨sound, shown⟩ := sound_group (by decide : edgeMark ∈ _)
    (isValue_edgeClasses clean route.back selected) (lacks_nat route.edge).isValue
  let color := if selected then theme.canvas.selection else stroke
  let width := if selected then c.style.strokeWidth + 1 else c.style.strokeWidth
  have path : ∀ a ∈ [⟨"d", route.pathData⟩, ⟨"fill", "none"⟩,
      .ofText "stroke" color, exact "stroke-width" width] ++
        (if route.back then [dashes] else []), Common a := by
    refine List.forall_mem_append.mpr ⟨?_, ?_⟩
    · simp +decide [common_literal, clean.pathData, common_ofText, clean.exact]
    · cases route.back <;> simp +decide [dashes, common_literal]
  have head : ∀ a ∈ [points (route.arrowHead c.style.arrowHeadSize)] ++
      [.ofText "fill" color], Common a := by
    simp +decide [clean.points, common_ofText]
  have margin : IsText (c.margin ++ "  ") := (c.isText_indent c.level).append (by decide)
  have group (texts : List (List Piece)) (shows : ∀ ps ∈ texts, Shows [] ps) :=
    (Shows.lines c.style.pretty margin (List.forall_mem_cons.mpr
      ⟨Shows.empty (by decide : "path" ∈ elementNames) path, List.forall_mem_cons.mpr
        ⟨Shows.empty (by decide : "polygon" ∈ elementNames) head, shows⟩⟩)).group sound
          (c.isText_indent c.level) (c.isText_indent c.level)
  rw [← shown, ← List.append_nil (Tag.marks _)]
  unfold addEdge
  simp only [List.append_assoc]
  cases label with
  | none => exact ⟨_, rfl, group [] (List.forall_mem_nil _)⟩
  | some text =>
      refine ⟨_, rfl, group (if text.isEmpty then []
        else c.edgeLabel theme config route.labelPosition text) ?_⟩
      split
      · exact List.forall_mem_nil _
      · exact shows_edgeLabel clean theme config route.labelPosition text

end Steps
end Canvas
end Flowchart.Drawing
