/-! Edit distance: how many single characters have to be put in, taken out or exchanged to turn one
text into another. The table is kept as one row, over the second text. -/
namespace Flowchart.Text

/-- The row below `row`, for one more character `a` of the first text. `corner` is the entry up and
left of the next one, `left` the entry just written. -/
def nextRow (a : Char) : (corner left : Nat) → (row : List Nat) → List Char → List Nat
  | corner, left, above :: row, b :: bs =>
    let entry := min (min (above + 1) (left + 1)) (corner + if a == b then 0 else 1)
    entry :: nextRow a above entry row bs
  | _, _, _, _ => []

/-- All rows below the first; `row` holds the entries right of the border and `border` its first. -/
def lastRow (bs : List Char) : List Char → (border : Nat) → (row : List Nat) → Nat × List Nat
  | [], border, row => (border, row)
  | a :: as, border, row => lastRow bs as (border + 1) (nextRow a border (border + 1) row bs)

def distance (as bs : List Char) : Nat :=
  let (border, row) := lastRow bs as 0 (List.range' 1 bs.length)
  row.getLastD border

end Flowchart.Text
