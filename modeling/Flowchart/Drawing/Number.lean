import Flowchart.Scalar
/-! Numbers in a drawing: hundredths, and one zero for both signs. -/
namespace Flowchart.Drawing

variable {α : Type} [Printable α]

def hundredths (a : α) : α :=
  let rounded := Printable.round (a * 100) / 100
  if rounded == 0 then 0 else rounded

def number (a : α) : String := Printable.text (hundredths a)

end Flowchart.Drawing
