import Flowchart.Picture
import Flowchart.Raster.Figure
import Flowchart.Text.Base64
import Flowchart.Xml.WellFormed
/-! Raster images of drawings: which drawings have one, and how large it is. -/
namespace Flowchart

structure PixelSize where
  width : Nat
  height : Nat
  deriving DecidableEq, Repr

inductive RasterError where
  /-- The drawing is not well-formed, or its size is not positive. -/
  | unreadable
  | surface (size : PixelSize)
  deriving DecidableEq, Repr

def RasterError.message : RasterError → String
  | .unreadable => "failed to parse generated SVG"
  | .surface size =>
    "cannot allocate a " ++ toString size.width ++ "x" ++ toString size.height ++ " surface"

namespace Raster

def signature : List UInt8 := [137, 80, 78, 71, 13, 10, 26, 10]

def dataUrl (bytes : List UInt8) : String :=
  "data:image/png;base64," ++ String.ofList (Text.base64 bytes)

def standardSide : Float32 := 100

/-- Width and height of a document. Where one of them cannot be read, the document ends where its
figures do, if they leave anything of it. -/
def sides? (area : Box Float) (figures : List (Drawing.Figure Float)) :
    Option (Float32 × Float32) :=
  let width := (readable? area.width).getD standardSide
  let height := (readable? area.height).getD standardSide
  if !isLength width || !isLength height then none
  else if (readable? area.width).isSome && (readable? area.height).isSome then some (width, height)
  else
    match extent? figures with
    | some e => some (if isLength e.right && isLength e.bottom then (e.right, e.bottom)
        else (width, height))
    | none => some (width, height)

/-- Rows of more bytes are refused. -/
def maxRow : Nat := Nat.pow 2 31 - 1

def pixels (width height : Float32) : Except RasterError PixelSize :=
  if width.isFinite && height.isFinite && 1 ≤ width && 1 ≤ height then
    let size : PixelSize := ⟨width.toUInt32.toNat, height.toUInt32.toNat⟩
    if maxRow < 4 * size.width then .error (.surface size) else .ok size
  else .error (.surface ⟨0, 0⟩)

def size (ratio : Float32) (area : Box Float) (figures : List (Drawing.Figure Float))
    (drawing : String) : Except RasterError PixelSize :=
  match sides? area figures with
  | some (width, height) =>
    if Xml.isWellFormed drawing then pixels (width * ratio).ceil (height * ratio).ceil
    else .error .unreadable
  | none => .error .unreadable

def sceneSize (ratio : Float32) (settings : Settings Float) (s : Scene Float) :
    Except RasterError PixelSize :=
  size ratio (Drawing.area settings.style s .document)
    (Drawing.figures settings.layout settings.style s) (Picture.document settings s)

end Raster
end Flowchart
