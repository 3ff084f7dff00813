import Flowchart.Proofs.Drawing.Grammar
/-! Pieces of markup that hold whole elements, and lines of such pieces. Two attributes are kept
apart from all others, since they tell what a group stands for. -/
namespace Flowchart.Drawing

def edgeMark : String := "data-edge-index"

def nodeMark : String := "data-node-id"

/-- The names of all other attributes. -/
def commonNames : List String :=
  ["xmlns", "width", "height", "viewBox", "class", "x", "y", "rx", "cx", "cy", "r", "points", "d",
    "fill", "stroke", "stroke-width", "stroke-dasharray", "font-size", "text-anchor", "id",
    "patternUnits", "transform"]

def elementNames : List String :=
  ["style", "defs", "pattern", "g", "rect", "polygon", "circle", "path", "text", "tspan"]

structure Common (a : Attribute) : Prop where
  name : a.name ∈ commonNames
  value : IsValue a.value

structure Tag.Sound (t : Tag) : Prop where
  name : t.name ∈ elementNames
  attributes : ∀ a ∈ t.attributes, isName a.name = true ∧ IsValue a.value

/-- What a group stands for: the name of its tag and the attribute that tells it. -/
abbrev Mark := String × Attribute

def Tag.marks (t : Tag) : List Mark :=
  (t.attributes.filter fun a => a.name == edgeMark || a.name == nodeMark).map (t.name, ·)

def write (ps : List Piece) : String := String.join (ps.map Piece.write)

/-- Pieces that hold whole elements; the marks on them, in order. -/
def Shows (ms : List Mark) (ps : List Piece) : Prop :=
  ∃ ts, Content ts (write ps) ∧ ts.flatMap Tag.marks = ms

def lineBreak (pretty : Bool) : String := if pretty then "\n" else ""

/-- What lines are made of, margins and line breaks counted as text. -/
def linePieces (pretty : Bool) (ls : List Line) : List Piece :=
  ls.flatMap fun l => .characters l.margin :: (l.pieces ++ [.characters (lineBreak pretty)])

theorem isName_of_mem :
    ∀ name ∈ elementNames ++ commonNames ++ [edgeMark, nodeMark], isName name = true := by
  decide

theorem isText_lineBreak (pretty : Bool) : IsText (lineBreak pretty) := by
  cases pretty <;> rfl

section Tags
variable {name : String} {as : List Attribute}

theorem Common.sound {a : Attribute} (common : Common a) :
    isName a.name = true ∧ IsValue a.value :=
  ⟨isName_of_mem _ (by simp [common.name]), common.value⟩

theorem sound_common (element : name ∈ elementNames) (common : ∀ a ∈ as, Common a) :
    Tag.Sound ⟨name, as⟩ :=
  ⟨element, fun a inside => (common a inside).sound⟩

theorem marks_common (common : ∀ a ∈ as, Common a) : Tag.marks ⟨name, as⟩ = [] := by
  have other : ∀ n ∈ commonNames, ¬(n == edgeMark || n == nodeMark) = true := by decide
  rw [Tag.marks, List.map_eq_nil_iff, List.filter_eq_nil_iff]
  exact fun a inside => other a.name (common a inside).name

end Tags

section Shows
variable {ms ns : List Mark} {ps qs : List Piece} {name : String} {as : List Attribute}

theorem Shows.nil : Shows [] [] := ⟨[], .nil, rfl⟩

theorem Shows.append (left : Shows ms ps) (right : Shows ns qs) :
    Shows (ms ++ ns) (ps ++ qs) := by
  obtain ⟨ts, content, rfl⟩ := left
  obtain ⟨us, more, rfl⟩ := right
  refine ⟨ts ++ us, ?_, List.flatMap_append⟩
  rw [write, List.map_append, String.join_append]
  exact content.append more

theorem Shows.flatMap {β : Type} {xs : List β} {f : β → List Piece}
    (each : ∀ x ∈ xs, Shows [] (f x)) : Shows [] (xs.flatMap f) := by
  induction xs with
  | nil => exact .nil
  | cons x xs ih =>
      obtain ⟨first, others⟩ := List.forall_mem_cons.mp each
      exact first.append (ih others)

theorem Shows.characters {text : String} (plain : IsText text) :
    Shows [] [.characters text] := by
  refine ⟨[], ?_, rfl⟩
  simpa [write, Piece.write] using plain.content

theorem Shows.empty (element : name ∈ elementNames) (common : ∀ a ∈ as, Common a) :
    Shows [] [.empty name as] := by
  have sound := sound_common element common
  have whole := Content.empty (isName_of_mem name (by simp [element]))
    (attributes_write sound.attributes) .nil
  exact ⟨_, by simpa [write, Piece.write] using whole, by simp [marks_common common]⟩

theorem Shows.enclose (sound : Tag.Sound ⟨name, as⟩) (inner : Shows ms ps) :
    Shows (Tag.marks ⟨name, as⟩ ++ ms) (.opening name as "" :: (ps ++ [.closing name])) := by
  obtain ⟨ts, content, rfl⟩ := inner
  have whole := Content.element (isName_of_mem name (by simp [sound.name]))
    (attributes_write sound.attributes) content .nil
  refine ⟨⟨name, as⟩ :: ts, ?_, rfl⟩
  simpa [write, Piece.write, String.append_assoc] using whole

theorem Shows.textElement (element : name ∈ elementNames) (common : ∀ a ∈ as, Common a)
    (text : String) : Shows [] (textElement name as text) := by
  have whole := (Shows.characters (isValue_escaped text).1).enclose (sound_common element common)
  rwa [marks_common common] at whole

theorem Shows.line {margin : String} (pretty : Bool) (plain : IsText margin) (whole : Shows ms ps) :
    Shows ms (linePieces pretty [⟨margin, ps⟩]) := by
  have parts := (Shows.characters plain).append
    (whole.append (.characters (isText_lineBreak pretty)))
  simpa [linePieces] using parts

theorem Shows.lines {margin : String} (pretty : Bool) (plain : IsText margin)
    {parts : List (List Piece)} (each : ∀ ps ∈ parts, Shows [] ps) :
    Shows [] (linePieces pretty (parts.map (⟨margin, ·⟩))) := by
  rw [linePieces, List.flatMap_map]
  refine .flatMap ?_
  intro ps inside
  simpa [linePieces] using (each ps inside).line pretty plain

/-- A start tag on a line of its own, other lines and the end tag on a line. -/
theorem Shows.group {pretty : Bool} {before after : String} {ls : List Line}
    (sound : Tag.Sound ⟨name, as⟩) (first : IsText before) (last : IsText after)
    (inner : Shows ms (linePieces pretty ls)) :
    Shows (Tag.marks ⟨name, as⟩ ++ ms) (linePieces pretty
      ([⟨before, [.opening name as ""]⟩] ++ ls ++ [⟨after, [.closing name]⟩])) := by
  have ending := Shows.characters (isText_lineBreak pretty)
  have body := (ending.append inner).append (.characters last)
  have parts := (Shows.characters first).append ((body.enclose sound).append ending)
  simpa [linePieces] using parts

theorem linePieces_append (pretty : Bool) (ls more : List Line) :
    linePieces pretty (ls ++ more) = linePieces pretty ls ++ linePieces pretty more :=
  List.flatMap_append

theorem write_append (ps qs : List Piece) : write (ps ++ qs) = write ps ++ write qs := by
  rw [write, List.map_append, String.join_append, write, write]

/-- Every line but the last is followed by a line break. -/
theorem writeLines_concat (pretty : Bool) (ls : List Line) (l : Line) :
    writeLines pretty (ls ++ [l]) = write (linePieces pretty ls) ++ l.write := by
  induction ls with
  | nil => simp [writeLines, write, linePieces]
  | cons first ls ih =>
      have others : (ls ++ [l]).map Line.write ≠ [] := by simp
      have head : write (linePieces pretty [first]) = first.write ++ lineBreak pretty := by
        simp [write, linePieces, Line.write, Piece.write, String.append_assoc]
      have whole := linePieces_append pretty [first] ls
      rw [List.singleton_append] at whole
      calc writeLines pretty (first :: (ls ++ [l]))
        _ = first.write ++ lineBreak pretty ++ writeLines pretty (ls ++ [l]) := by
          rw [writeLines, List.map_cons, String.intercalate_cons_of_ne_nil others]
          rfl
        _ = write (linePieces pretty [first]) ++ (write (linePieces pretty ls) ++ l.write) := by
          rw [head, ih]
        _ = write (linePieces pretty (first :: ls)) ++ l.write := by
          rw [whole, write_append, String.append_assoc]

end Shows
end Flowchart.Drawing
