import Flowchart.Proofs.Decimal
import Flowchart.Proofs.Drawing.Assembly
import Flowchart.Proofs.Drawing.Scan
import Flowchart.Scalar.Float
/-! A drawing as a document. It is markup whatever is drawn, and tells each block and each
connection that has both its blocks, once and in order. -/
namespace Flowchart.Drawing

/-- The values of the attributes of a tag that have one name. -/
def Tag.values (t : Tag) (name : String) : List String :=
  (t.attributes.filter (·.name == name)).map (·.value)

section Marks
variable {name : String} (known : name ∈ [edgeMark, nodeMark])
include known

theorem values_eq (t : Tag) :
    t.values name = (t.marks.filter (·.2.name == name)).map (·.2.value) := by
  have marked (a : Attribute) :
      (a.name == name && (a.name == edgeMark || a.name == nodeMark)) = (a.name == name) := by
    by_cases same : a.name = name
    · simpa [same] using known
    · simp [same]
  simp only [Tag.values, Tag.marks, List.filter_map, List.map_map, List.filter_filter,
    Function.comp_def, marked]

theorem flatMap_values (ts : List Tag) :
    ts.flatMap (·.values name) =
      ((ts.flatMap Tag.marks).filter (·.2.name == name)).map (·.2.value) := by
  simp only [values_eq known, List.filter_flatMap, List.map_flatMap]

theorem exists_mark {t : Tag} (some : t.values name ≠ []) : ∃ m ∈ t.marks, m.2.name = name := by
  rw [values_eq known] at some
  obtain ⟨m, inside⟩ := List.exists_mem_of_ne_nil _ (List.map_eq_nil_iff.not.mp some)
  obtain ⟨inside, named⟩ := List.mem_filter.mp inside
  exact ⟨m, inside, beq_iff_eq.mp named⟩

end Marks

/-- The marks of a drawing: those of connections before those of blocks. -/
def groups (indices ids : List Nat) : List Mark := indices.map edgeGroup ++ ids.map nodeGroup

theorem marks_apart : (edgeMark == nodeMark) = false ∧ (nodeMark == edgeMark) = false := by decide

theorem values_edges (indices ids : List Nat) :
    ((groups indices ids).filter (·.2.name == edgeMark)).map (·.2.value) =
      indices.map toString := by
  simp [groups, List.filter_map, Function.comp_def, edgeGroup, nodeGroup, marks_apart]

theorem values_nodes (indices ids : List Nat) :
    ((groups indices ids).filter (·.2.name == nodeMark)).map (·.2.value) = ids.map toString := by
  simp [groups, List.filter_map, Function.comp_def, edgeGroup, nodeGroup, marks_apart]

theorem pairwise_groups (indices ids : List Nat) :
    (groups indices ids).Pairwise fun m k => m.2.name = nodeMark → k.2.name ≠ edgeMark := by
  have unlike : edgeMark ≠ nodeMark := by decide
  rw [groups, List.pairwise_append, List.pairwise_map, List.pairwise_map]
  refine ⟨?_, ?_, ?_⟩
  · exact List.pairwise_of_forall fun i j named => absurd named unlike
  · exact List.pairwise_of_forall fun a b _ => unlike.symm
  · intro m edge k _ named
    obtain ⟨i, -, rfl⟩ := List.mem_map.mp edge
    exact absurd named unlike

theorem fst_of_mem_groups {indices ids : List Nat} {m : Mark} (inside : m ∈ groups indices ids) :
    m.1 = "g" := by
  obtain edge | node := List.mem_append.mp inside
  · obtain ⟨i, -, rfl⟩ := List.mem_map.mp edge
    rfl
  · obtain ⟨id, -, rfl⟩ := List.mem_map.mp node
    rfl

theorem fst_of_mem_marks {t : Tag} {m : Mark} (inside : m ∈ t.marks) : m.1 = t.name := by
  obtain ⟨a, -, rfl⟩ := List.mem_map.mp inside
  rfl

theorem tags_declaration {between : String} (plain : IsText between) (root : String) :
    tags ("<?xml version=\"1.0\" encoding=\"UTF-8\"?>" ++ between ++ root) = tags root := by
  have text : "<?xml version=\"1.0\" encoding=\"UTF-8\"?>".toList =
      '<' :: '?' :: "xml version=\"1.0\" encoding=\"UTF-8\"?>".toList := by decide
  have nameless : Xml.isNameChar '?' = false := by decide
  have passed : '<' ∉ '?' :: "xml version=\"1.0\" encoding=\"UTF-8\"?>".toList := by decide
  rw [tags, String.toList_append, String.toList_append, text, List.append_assoc, List.cons_append,
    scan, if_neg (by simp [nameless]), scan_outside passed, scan_outside plain.not_mem, tags]

section Document

theorem lacks_plain (x : Float) : Lacks (Printable.text x) ['<', '>', '&', '"'] := by
  have others : ['<', '>', '&', '"'].all (!Decimal.isNumeral ·) = true := by decide
  intro c inside mark
  have numeral : Decimal.isNumeral c = true := List.all_eq_true.mp (Decimal.all_plain x) c inside
  simpa [numeral] using List.all_eq_true.mp others c mark

theorem lacks_standard :
    (∀ text ∈ (Style.standard : Style Float).classPrefix, Lacks text ['<', '>', '&', '"']) ∧
      Lacks (Style.standard : Style Float).fontFamily ['<', '>', '&'] := by
  refine ⟨?_, by decide⟩
  rintro _ ⟨⟩
  decide

variable [Printable α] {style : Style α}

theorem clean_of_lacks (printed : ∀ a : α, Lacks (Printable.text a) ['<', '>', '&', '"'])
    (classes : ∀ text ∈ style.classPrefix, Lacks text ['<', '>', '&', '"'])
    (fonts : Lacks style.fontFamily ['<', '>', '&']) : style.Clean := by
  refine ⟨fun a => (printed a).isValue, ?_, fonts.isText (by decide) (by decide)⟩
  cases same : style.classPrefix with
  | none => exact (by decide : IsValue "")
  | some text => exact (classes text same).isValue

/-- What a scan of a drawing finds: one mark for each route, then one for each block. -/
theorem marks_draw (clean : style.Clean) (theme : Theme) (config : Layout.Config α) (s : Scene α)
    (surface : Surface α) : (tags (draw theme config style s surface)).flatMap Tag.marks =
      groups ((Route.all s.diagram style.fanSpread).map (·.edge))
        (s.diagram.nodes.map (·.id)) := by
  obtain ⟨root, ts, drawn, element, shown⟩ :=
    (Canvas.whole_canvas clean theme config s surface).build clean (area style s surface)
  have read : tags root = ts := tags_content (element.content (by decide))
  rw [draw, drawn, groups, List.map_map, List.map_map]
  split
  · rw [tags_declaration (isText_lineBreak _), read, shown]
    rfl
  · rw [String.empty_append, read, shown]
    rfl

/-- Whatever is drawn, the drawing is one element, behind a declaration where the style has one.
Only what is taken over as it is, numbers, classes and fonts, must be free of the characters of
markup. -/
theorem draw_markup (printed : ∀ a : α, Lacks (Printable.text a) ['<', '>', '&', '"'])
    (classes : ∀ text ∈ style.classPrefix, Lacks text ['<', '>', '&', '"'])
    (fonts : Lacks style.fontFamily ['<', '>', '&']) (theme : Theme) (config : Layout.Config α)
    (s : Scene α) (surface : Surface α) :
    ∃ root ts, draw theme config style s surface = (if style.standalone then
        "<?xml version=\"1.0\" encoding=\"UTF-8\"?>" ++ (if style.pretty then "\n" else "")
          else "") ++ root ∧ IsElement "svg" ts root := by
  have clean := clean_of_lacks printed classes fonts
  obtain ⟨root, ts, drawn, element, -⟩ :=
    (Canvas.whole_canvas clean theme config s surface).build clean (area style s surface)
  exact ⟨root, ts, drawn, element⟩

/-- Texts and colors full of tags, quotes and references. -/
theorem draw_markup_hostile :
    let n : Node Float :=
      ⟨⟨.subBlock, "</g>", "sb", some { topLeft := some "<b a=\"1\">", bottomMiddle := some "&" }⟩,
        3, ⟨10, 20, 160, 100⟩, some ⟨"\"/><script>", "&lt;", "'", "]]>"⟩, none⟩
    let theme : Theme := { Theme.standard with canvas := ⟨"\">", "<!--", "&#0;"⟩ }
    let s : Scene Float :=
      { diagram := ⟨[n], [⟨3, 3, some "<?xml?>", true⟩]⟩, selection := some (.edge 0) }
    let style : Style Float := .standard
    let marks := ['<', '>', '&', '"']
    (∀ a : Float, Lacks (Printable.text a) marks) ∧
      (∀ text ∈ style.classPrefix, Lacks text marks) ∧
      Lacks style.fontFamily ['<', '>', '&'] ∧
      ∃ root ts, draw theme .standard style s (.live .standard) =
        "<?xml version=\"1.0\" encoding=\"UTF-8\"?>\n" ++ root ∧ IsElement "svg" ts root := by
  intro n theme s style marks
  exact ⟨lacks_plain, lacks_standard.1, lacks_standard.2,
    draw_markup lacks_plain lacks_standard.1 lacks_standard.2 theme .standard s (.live .standard)⟩

/-- Of the tags of a drawing, those with one attribute name the blocks, in their order, and those
with another the connections that have both blocks, in theirs. All of the latter come first, and all
are tags of groups. The names of the attributes between the quotes of other ones do not count. -/
theorem draw_marks (printed : ∀ a : α, Lacks (Printable.text a) ['<', '>', '&', '"'])
    (classes : ∀ text ∈ style.classPrefix, Lacks text ['<', '>', '&', '"'])
    (fonts : Lacks style.fontFamily ['<', '>', '&']) (theme : Theme) (config : Layout.Config α)
    (s : Scene α) (surface : Surface α) :
    let ts := tags (draw theme config style s surface)
    ts.flatMap (·.values "data-node-id") = s.diagram.nodes.map (toString ·.id) ∧
      (∃ indices : List Nat, ts.flatMap (·.values "data-edge-index") = indices.map toString ∧
        indices.Pairwise (· < ·) ∧ ∀ i, i ∈ indices ↔ ∃ e, s.edge? i = some e ∧
          (∃ m ∈ s.diagram.nodes, m.id = e.source) ∧ ∃ n ∈ s.diagram.nodes, n.id = e.target) ∧
      (ts.Pairwise fun t u => t.values "data-node-id" ≠ [] → u.values "data-edge-index" = []) ∧
      ∀ t ∈ ts, t.values "data-node-id" ≠ [] ∨ t.values "data-edge-index" ≠ [] →
        t.name = "g" := by
  have marks := marks_draw (clean_of_lacks printed classes fonts) theme config s surface
  have node : nodeMark ∈ [edgeMark, nodeMark] := by decide
  have edge : edgeMark ∈ [edgeMark, nodeMark] := by decide
  obtain ⟨ordered, present⟩ := Route.edges_all s.diagram style.fanSpread
  generalize (Route.all s.diagram style.fanSpread).map (·.edge) = indices at marks ordered present
  intro ts
  change ts.flatMap Tag.marks = _ at marks
  refine ⟨?_, ⟨indices, ?_, ordered, present⟩, ?_, ?_⟩
  · have values := flatMap_values node ts
    rw [marks, values_nodes, List.map_map] at values
    exact values
  · have values := flatMap_values edge ts
    rw [marks, values_edges] at values
    exact values
  · refine (List.pairwise_flatMap.mp (marks ▸ pairwise_groups _ _)).2.imp ?_
    intro t u later some
    by_contra more
    obtain ⟨m, inside, named⟩ := exists_mark node some
    obtain ⟨k, other, called⟩ := exists_mark edge more
    exact later m inside k other named called
  · intro t inside some
    obtain ⟨m, shown⟩ : ∃ m, m ∈ t.marks := by
      obtain some | some := some
      · exact (exists_mark node some).imp fun _ shown => shown.1
      · exact (exists_mark edge some).imp fun _ shown => shown.1
    have grouped := List.mem_flatMap_of_mem inside shown
    rw [marks] at grouped
    exact (fst_of_mem_marks shown).symm.trans (fst_of_mem_groups grouped)

/-- A color that goes on like an attribute, a text that looks like a group, and a connection without
a target. -/
theorem draw_marks_imitated :
    let block (text : String) : Block := ⟨.process, text, "p", none⟩
    let color := "#fff data-node-id="
    let s : Scene Float :=
      { diagram := ⟨[⟨block "<g data-edge-index=\"5\">", 4, ⟨0, 0, 140, 60⟩, none, none⟩,
          ⟨block "\" data-node-id=\"9", 2, ⟨0, 120, 140, 60⟩, some ⟨color, color, color, color⟩,
            none⟩],
          [⟨4, 8, none, false⟩, ⟨4, 2, some "data-edge-index=\"0\"", false⟩]⟩ }
    let style : Style Float := .standard
    let marks := ['<', '>', '&', '"']
    let ts := tags (draw .standard .standard style s .document)
    (∀ a : Float, Lacks (Printable.text a) marks) ∧
      (∀ text ∈ style.classPrefix, Lacks text marks) ∧
      Lacks style.fontFamily ['<', '>', '&'] ∧
      ts.flatMap (·.values "data-node-id") = ["4", "2"] ∧
      (∃ indices : List Nat, ts.flatMap (·.values "data-edge-index") = indices.map toString ∧
        indices.Pairwise (· < ·) ∧ ∀ i, i ∈ indices ↔ ∃ e, s.edge? i = some e ∧
          (∃ m ∈ s.diagram.nodes, m.id = e.source) ∧ ∃ n ∈ s.diagram.nodes, n.id = e.target) ∧
      (ts.Pairwise fun t u => t.values "data-node-id" ≠ [] → u.values "data-edge-index" = []) ∧
      ∀ t ∈ ts, t.values "data-node-id" ≠ [] ∨ t.values "data-edge-index" ≠ [] →
        t.name = "g" := by
  intro block color s style marks ts
  obtain ⟨ids, others⟩ :=
    draw_marks lacks_plain lacks_standard.1 lacks_standard.2 .standard .standard s .document
  exact ⟨lacks_plain, lacks_standard.1, lacks_standard.2, ids.trans (by decide), others⟩

end Document
end Flowchart.Drawing
