import Flowchart.Diagram
/-! Color themes: a palette for each kind of block, and the colors of the canvas and of arrows. -/
namespace Flowchart

structure CanvasColors where
  background : String
  grid : String
  selection : String
  deriving DecidableEq, Repr

structure ArrowColors where
  color : String
  label : String
  labelBackground : String
  labelBorder : String
  deriving DecidableEq, Repr

structure Theme where
  name : Option String
  canvas : CanvasColors
  arrow : ArrowColors
  palette : BlockKind → Palette

/-- What a theme file says. Anything may be left out. -/
structure ThemeFile where
  name : Option String := none
  canvas : Option CanvasColors := none
  arrow : Option ArrowColors := none
  palettes : List (String × Palette) := []
  deriving DecidableEq, Repr

inductive ThemeError where
  | malformed
  | unknownKind (name : String)
  deriving DecidableEq, Repr

def ThemeError.message : ThemeError → String
  | .malformed => "Failed to parse theme TOML"
  | .unknownKind name => "Unknown block kind '" ++ name ++ "' in theme palettes"

namespace Theme

def standardPalette : BlockKind → Palette
  | .terminatorStart | .terminator => ⟨"#1a1a2e", "#7c3aed", "#e0e0ff", "rgba(124,58,237,0.2)"⟩
  | .terminatorEnd => ⟨"#1a1a2e", "#ef4444", "#fecaca", "rgba(239,68,68,0.2)"⟩
  | .process => ⟨"#111827", "#3b82f6", "#bfdbfe", "rgba(59,130,246,0.15)"⟩
  | .decision => ⟨"#1c1917", "#f59e0b", "#fde68a", "rgba(245,158,11,0.15)"⟩
  | .io => ⟨"#0f172a", "#06b6d4", "#a5f3fc", "rgba(6,182,212,0.15)"⟩
  | .connector => ⟨"#1e1b4b", "#818cf8", "#c7d2fe", "rgba(129,140,248,0.15)"⟩
  | .subBlock => ⟨"#1a1a2e", "#8b5cf6", "#ddd6fe", "rgba(139,92,246,0.15)"⟩

def standard : Theme where
  name := some "midnight"
  canvas := ⟨"#0a0a0f", "rgba(255,255,255,0.02)", "#f472b6"⟩
  arrow := ⟨"#6366f1", "#a5b4fc", "rgba(10,10,15,0.85)", "rgba(255,255,255,0.08)"⟩
  palette := standardPalette

def setPalette (theme : Theme) (kind : BlockKind) (palette : Palette) : Theme :=
  { theme with palette := fun other => if other = kind then palette else theme.palette other }

def setPalettes (theme : Theme) : List (String × Palette) → Except ThemeError Theme
  | [] => .ok theme
  | (name, palette) :: more =>
    match BlockKind.ofName? name with
    | some kind => (theme.setPalette kind palette).setPalettes more
    | none => .error (.unknownKind name)

/-- The order in which palettes are visited. They are the entries of a hash table, so the file has
no say in it. -/
structure VisitOrder where
  visit : List (String × Palette) → List (String × Palette)
  perm : ∀ entries, (visit entries).Perm entries

def VisitOrder.listed : VisitOrder := ⟨id, fun _ => .refl _⟩

def merge (order : VisitOrder) (theme : Theme) (file : ThemeFile) : Except ThemeError Theme :=
  setPalettes
    { theme with
      name := file.name <|> theme.name
      canvas := file.canvas.getD theme.canvas
      arrow := file.arrow.getD theme.arrow }
    (order.visit file.palettes)

/-- The theme of a file; what the file leaves out is as in the standard theme. -/
def load (order : VisitOrder) (file : ThemeFile) : Except ThemeError Theme :=
  standard.merge order file

end Theme

/-- The palette a block is drawn in: its own, or that of its kind. -/
def Node.palette {α : Type} (n : Node α) (theme : Theme) : Palette :=
  n.style.getD (theme.palette n.kind)

end Flowchart
