import Flowchart.Proofs.Drawing.Canvas
import Flowchart.Proofs.Route
/-! What a canvas gathers step by step, and how it is put together at last. All steps keep to whole
elements. Those that draw a connection or a block add one mark, the others add none. -/
namespace Flowchart.Drawing

variable {α : Type}

def edgeGroup (index : Nat) : Mark := ("g", ⟨edgeMark, toString index⟩)

def nodeGroup (id : Nat) : Mark := ("g", ⟨nodeMark, toString id⟩)

namespace Canvas

/-- All that a canvas has gathered are lines of whole elements. Connections and blocks show these
marks, nothing else shows any. -/
structure Whole (style : Style α) (edges nodes : List Mark) (c : Canvas α) : Prop where
  style_eq : c.style = style
  definitions : Shows [] (linePieces style.pretty c.definitions)
  fonts : Shows [] (linePieces style.pretty c.fonts)
  backdrop : Shows [] (linePieces style.pretty c.backdrop)
  connections : Shows edges (linePieces style.pretty c.connections)
  elements : Shows nodes (linePieces style.pretty c.elements)
  transform : ∀ text ∈ c.transform, IsValue text

section Steps
variable {style : Style α} {edges nodes ms : List Mark} {c c' : Canvas α}

theorem Whole.draws (whole : Whole style edges nodes c) (draws : Draws ms c c') :
    Whole style edges (nodes ++ ms) c' := by
  obtain ⟨ls, rfl, shows⟩ := draws
  obtain ⟨rfl, definitions, fonts, backdrop, connections, elements, transform⟩ := whole
  refine ⟨rfl, definitions, fonts, backdrop, connections, ?_, transform⟩
  rw [linePieces_append]
  exact elements.append shows

theorem Whole.addBackdrop (whole : Whole style edges nodes c) {ps : List Piece}
    (shows : Shows [] ps) : Whole style edges nodes (c.addBackdrop ps) := by
  obtain ⟨rfl, definitions, fonts, backdrop, connections, elements, transform⟩ := whole
  refine ⟨rfl, definitions, fonts, ?_, connections, elements, transform⟩
  have line := shows.line c.style.pretty (c.isText_indent c.level)
  exact (linePieces_append _ _ _).symm ▸ backdrop.append line

variable [Printable α] (clean : style.Clean)
include clean

theorem whole_blank : Whole style [] [] (ofStyle style).addFont := by
  have font : IsText ("." ++ style.className "text" ++ ", ." ++ style.className "label" ++
      " \x7b font-family: " ++ style.fontFamily ++ "; \x7d") := by
    have text := (clean.className (by decide : IsValue "text")).1
    have label := (clean.className (by decide : IsValue "label")).1
    exact ((((((by decide : IsText ".").append text).append (by decide)).append label).append
      (by decide)).append clean.fonts).append (by decide)
  exact ⟨rfl, .nil, (Shows.characters font).line _ (isText_indent _ _), .nil, .nil, .nil, nofun⟩

theorem Whole.addBackground (whole : Whole style edges nodes c) (area : Box α) (color : String) :
    Whole style edges nodes (c.addBackground area color) := by
  have clean : c.style.Clean := whole.style_eq.symm ▸ clean
  refine whole.addBackdrop (.empty (by decide) ?_)
  exact common_placed clean (by decide) (clean.boxAttributes _)
    (List.forall_mem_singleton.mpr (common_ofText (by decide) color))

theorem Whole.addGrid (whole : Whole style edges nodes c) (view : Viewport α) (color : String) :
    Whole style edges nodes (c.addGrid view color) := by
  have clean : c.style.Clean := whole.style_eq.symm ▸ clean
  have id := clean.className (by decide : IsValue "grid")
  unfold Canvas.addGrid
  simp only
  split
  · exact whole
  · have tile (size x y : α) : ∀ a ∈ [⟨"id", c.style.className "grid"⟩, numeric "width" size,
        numeric "height" size, numeric "x" x, numeric "y" y, ⟨"patternUnits", "userSpaceOnUse"⟩],
        Common a := by
      simp +decide [common_literal, id, clean.numeric]
    have corner (size : α) : IsValue ("M" ++ number size ++ " 0 L0 0 L0 " ++ number size) :=
      (((by decide : IsValue "M").append (clean.number size)).append (by decide)).append
        (clean.number size)
    have path (size : α) : ∀ a ∈ [⟨"d", "M" ++ number size ++ " 0 L0 0 L0 " ++ number size⟩,
        ⟨"fill", "none"⟩, .ofText "stroke" color, ⟨"stroke-width", "1"⟩], Common a := by
      simp +decide [common_literal, corner, common_ofText]
    have reference : IsValue ("url(#" ++ c.style.className "grid" ++ ")") :=
      ((by decide : IsValue "url(#").append id).append (by decide)
    have area : ∀ a ∈ [⟨"class", c.style.className "grid"⟩, ⟨"x", "0"⟩, ⟨"y", "0"⟩,
        numeric "width" view.width, numeric "height" view.height,
        ⟨"fill", "url(#" ++ c.style.className "grid" ++ ")"⟩], Common a := by
      simp +decide [common_literal, id, clean.numeric, reference]
    have pattern (size x y : α) := (Shows.empty (by decide : "path" ∈ elementNames)
      (path size)).enclose (sound_common (by decide : "pattern" ∈ elementNames) (tile size x y))
    simp only [marks_common (tile _ _ _), List.nil_append] at pattern
    obtain ⟨rfl, definitions, fonts, backdrop, connections, elements, transform⟩ :=
      whole.addBackdrop (.empty (by decide : "rect" ∈ elementNames) area)
    refine ⟨rfl, ?_, fonts, backdrop, connections, elements, transform⟩
    rw [linePieces_append]
    exact definitions.append ((pattern _ _ _).line _ (c.isText_indent 2))

theorem Whole.setView (whole : Whole style edges nodes c) (view : Viewport α) :
    Whole style edges nodes (c.setView view) := by
  obtain ⟨style_eq, definitions, fonts, backdrop, connections, elements, -⟩ := whole
  refine ⟨style_eq, definitions, fonts, backdrop, connections, elements, ?_⟩
  rintro _ ⟨⟩
  have moved := (((by decide : IsValue "translate(").append (clean.number view.offsetX)).append
    (by decide : IsValue " ")).append (clean.number view.offsetY)
  exact ((moved.append (by decide : IsValue ") scale(")).append (clean.printed view.scale)).append
    (by decide)

theorem Whole.addEdge (whole : Whole style edges nodes c) (theme : Theme)
    (config : Layout.Config α) (route : Route α) (label : Option String) (stroke : String)
    (selected : Bool) : Whole style (edges ++ [edgeGroup route.edge]) nodes
      (c.addEdge theme config route label stroke selected) := by
  obtain ⟨rfl, definitions, fonts, backdrop, connections, elements, transform⟩ := whole
  obtain ⟨ls, added, shows⟩ := connects_addEdge clean theme config route label stroke selected
  rw [added]
  refine ⟨rfl, definitions, fonts, backdrop, ?_, elements, transform⟩
  rw [linePieces_append]
  exact connections.append shows

theorem Whole.addNode (whole : Whole style edges nodes c) (config : Layout.Config α) (n : Node α)
    (palette : Palette) :
    Whole style edges (nodes ++ [nodeGroup n.id]) (c.addNode config n palette) :=
  whole.draws (draws_addNode (whole.style_eq.symm ▸ clean) config n palette)

theorem Whole.addSelection (whole : Whole style edges nodes c) (bounds : Box α) (color : String) :
    Whole style edges nodes (c.addSelection bounds color) := by
  have drawn := whole.draws (draws_addSelection (whole.style_eq.symm ▸ clean) bounds color)
  rwa [List.append_nil] at drawn

end Steps

section Run
variable {style : Style α}

/-- Steps that add one mark each add the marks of all, in order. -/
theorem foldl_marks {β : Type} {P : List Mark → Canvas α → Prop} {step : Canvas α → β → Canvas α}
    {mark : β → Mark} {xs : List β} {ms : List Mark} {c : Canvas α}
    (each : ∀ x ∈ xs, ∀ ms c, P ms c → P (ms ++ [mark x]) (step c x)) (start : P ms c) :
    P (ms ++ xs.map mark) (xs.foldl step c) := by
  induction xs generalizing ms c with
  | nil => simpa using start
  | cons x xs ih =>
      obtain ⟨first, others⟩ := List.forall_mem_cons.mp each
      simpa using ih others (first ms c start)

variable [Printable α] (clean : style.Clean)
include clean

theorem whole_backdrop (theme : Theme) (s : Scene α) (surface : Surface α) :
    Whole style [] [] (Drawing.backdrop theme style s surface) := by
  have ground := (whole_blank clean).addBackground clean (area style s surface)
    theme.canvas.background
  cases surface with
  | live view => exact (ground.addGrid clean view theme.canvas.grid).setView clean view
  | document => exact ground

/-- The canvas of a scene shows one mark for each route and then one for each block. -/
theorem whole_canvas (theme : Theme) (config : Layout.Config α) (s : Scene α)
    (surface : Surface α) :
    Whole style ((Route.all s.diagram style.fanSpread).map fun r => edgeGroup r.edge)
      (s.diagram.nodes.map fun n => nodeGroup n.id) (canvas theme config style s surface) := by
  unfold canvas
  refine foldl_marks (P := Whole style _) ?_ (foldl_marks (P := (Whole style · [])) ?_
    (whole_backdrop clean theme s surface))
  · intro n _ nodes c whole
    have drawn := whole.addNode clean config n (n.palette theme)
    dsimp only
    split
    · exact drawn.addSelection clean n.box theme.canvas.selection
    · exact drawn
  · intro route routed edges c whole
    obtain ⟨e, present, -⟩ := ((Route.edges_all s.diagram style.fanSpread).2 route.edge).mp
      (List.mem_map_of_mem routed)
    have found : s.edge? route.edge = some e := present
    simp only [found]
    exact whole.addEdge clean theme config route _ _ _

end Run

section Build
variable {style : Style α} {edges nodes ms : List Mark} {c : Canvas α}

theorem shows_section {name : String} {ls : List Line} (element : name ∈ elementNames)
    (inner : Shows ms (linePieces c.style.pretty ls)) :
    Shows ms (linePieces c.style.pretty (c.section? name ls)) := by
  unfold section?
  split
  · next none => rwa [List.isEmpty_iff.mp none] at inner
  · have whole := inner.group (sound_common element (List.forall_mem_nil _))
      (c.isText_indent 1) (c.isText_indent 1)
    rwa [marks_common (List.forall_mem_nil _)] at whole

/-- What stands between the tags of a drawing. -/
def body (c : Canvas α) : List Line :=
  let front := c.connections ++ c.elements
  c.section? "style" c.fonts ++ c.section? "defs" c.definitions ++ c.backdrop ++
    (match c.transform with
      | some transform =>
        [⟨c.indent 1, [.opening "g" [⟨"transform", transform⟩] ""]⟩] ++ front
          ++ [⟨c.indent 1, [.closing "g"]⟩]
      | none => front)

theorem Whole.body (whole : Whole style edges nodes c) :
    Shows (edges ++ nodes) (linePieces style.pretty c.body) := by
  obtain ⟨rfl, definitions, fonts, backdrop, connections, elements, transform⟩ := whole
  have front := connections.append elements
  rw [← linePieces_append] at front
  have fonts := shows_section (by decide : "style" ∈ elementNames) fonts
  have definitions := shows_section (by decide : "defs" ∈ elementNames) definitions
  rw [Canvas.body, linePieces_append, linePieces_append, linePieces_append]
  refine ((fonts.append definitions).append backdrop).append ?_
  cases moved : c.transform with
  | none => exact front
  | some text =>
      have common : ∀ a ∈ [⟨"transform", text⟩], Common a :=
        List.forall_mem_singleton.mpr (common_literal (by decide) (transform text moved))
      have whole := front.group (sound_common (by decide : "g" ∈ elementNames) common)
        (c.isText_indent 1) (c.isText_indent 1)
      rwa [marks_common common] at whole

variable [Printable α]

/-- What is written for a canvas is one element, behind a declaration where the style has one. -/
theorem Whole.build (clean : style.Clean) (whole : Whole style edges nodes c) (view : Box α) :
    ∃ root ts, c.build view = (if style.standalone then
        "<?xml version=\"1.0\" encoding=\"UTF-8\"?>" ++ lineBreak style.pretty else "") ++ root ∧
      IsElement "svg" ts root ∧ ts.flatMap Tag.marks = edges ++ nodes := by
  obtain ⟨ts, content, shown⟩ := whole.body
  obtain rfl := whole.style_eq
  let extent := String.intercalate " "
    [number view.x, number view.y, number view.width, number view.height]
  let attributes : List Attribute := [⟨"xmlns", "http://www.w3.org/2000/svg"⟩,
    numeric "width" view.width, numeric "height" view.height, ⟨"viewBox", extent⟩]
  have valued : IsValue extent :=
    isValue_intercalate (by decide) (by simp [clean.number])
  have common : ∀ a ∈ attributes, Common a := by
    simp +decide [attributes, common_literal, clean.numeric, valued]
  have lines : c.lines view = (if c.style.standalone then [⟨"", [.declaration]⟩] else []) ++
      [⟨"", [.opening "svg" attributes ""]⟩] ++ c.body ++ [⟨"", [.closing "svg"]⟩] := by
    simp only [Canvas.lines, Canvas.body, List.append_assoc]
    rfl
  have written := attributes_write fun a inside => (common a inside).sound
  have root := @IsElement.intro "svg" _ _ _ _ written
    ((isText_lineBreak c.style.pretty).content.append content)
  refine ⟨_, _, ?_, root, ?_⟩
  · rw [Canvas.build, lines, writeLines_concat, linePieces_append, linePieces_append, write_append,
      write_append]
    split <;> simp [linePieces, write, Line.write, Piece.write, String.append_assoc]
  · rw [List.flatMap_cons, marks_common common]
    exact shown

end Build
end Canvas

end Flowchart.Drawing
