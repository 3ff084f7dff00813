import Flowchart.Theme
import Flowchart.Toml.Reader
/-! Theme files in TOML. Unknown keys are passed over. -/
namespace Flowchart.ThemeFile
open Toml (Value)

def text? : Value → Option String
  | .string text => some text
  | _ => none

/-- The fields of a record: a table by their names or an array by their order. A moment is a record
in which none of them is given. -/
def fields? (names : List String) : Value → Option (List (Option Value))
  | .table entries => some (names.map fun name => entries.lookup name)
  | .array items =>
    if items.length < names.length then none else some ((items.take names.length).map some)
  | .moment _ => some (names.map fun _ => none)
  | _ => none

/-- The fields of a record of texts, all of which have to be given. -/
def texts? (names : List String) (v : Value) : Option (List String) := do
  (← fields? names v).mapM fun field => field.bind text?

def canvas? (v : Value) : Option CanvasColors := do
  match ← texts? ["background", "grid", "selection"] v with
  | [background, grid, selection] => some { background, grid, selection }
  | _ => none

def arrow? (v : Value) : Option ArrowColors := do
  match ← texts? ["color", "label", "label_background", "label_border"] v with
  | [color, label, labelBackground, labelBorder] =>
    some { color, label, labelBackground, labelBorder }
  | _ => none

def palette? (v : Value) : Option Palette := do
  match ← texts? ["background", "border", "text", "glow"] v with
  | [background, border, text, glow] => some { background, border, text, glow }
  | _ => none

def name? (v : Value) : Option (Option String) := do
  match ← fields? ["name"] v with
  | [some name] => (text? name).map some
  | _ => some none

def palettes? : Value → Option (List (String × Palette))
  | .table entries => entries.mapM fun (name, v) => (palette? v).map (name, ·)
  | _ => none

def section? {β : Type} (entries : List (String × Value)) (name : String)
    (read? : Value → Option β) : Option (Option β) :=
  match entries.lookup name with
  | some v => (read? v).map some
  | none => some none

def ofEntries? (entries : List (String × Value)) : Option ThemeFile := do
  let name ← section? entries "metadata" name?
  let canvas ← section? entries "canvas" canvas?
  let arrow ← section? entries "arrow" arrow?
  let palettes ← section? entries "palettes" palettes?
  some ⟨name.join, canvas, arrow, palettes.getD []⟩

def read? (text : String) : Option ThemeFile := (Toml.read? text).bind ofEntries?

end Flowchart.ThemeFile

namespace Flowchart.Theme

def ofText (order : VisitOrder) (text : String) : Except ThemeError Theme :=
  match ThemeFile.read? text with
  | some file => load order file
  | none => .error .malformed

end Flowchart.Theme
