import Flowchart.Scalar
import Flowchart.Decimal.Shortest
/-! Floating point as the number type of the running program. -/
namespace Flowchart

/-- The place of a float in the total order: negative numbers run backwards, and a NaN lies beyond
the infinity of its sign. -/
def floatRank (x : Float) : Int :=
  let bits := x.toBits.toNat
  if Nat.pow 2 63 ≤ bits then Nat.pow 2 63 - 1 - bits else bits

instance : Scalar Float where
  ofNat := Float.ofNat
  decidableLT := inferInstance
  decidableLE := inferInstance
  precedes a b := decide (floatRank a ≤ floatRank b)

instance : Metric Float where
  sqrt := Float.sqrt
  infinity := 1 / 0

/-- What whole multiples of `y` leave of `x`, brought above zero. -/
def floatRemainder (x y : Float) : Float :=
  match Decimal.view x, Decimal.view y with
  | .finite a, .finite b =>
    if b.mantissa = 0 then 0 / 0
    else
      let r := (a.rest b).toFloat
      if r < 0 then r + magnitude y else r
  | .finite _, .infinite _ => if x < 0 then x + magnitude y else x
  | _, _ => 0 / 0

instance : Printable Float where
  round := Float.round
  remainder := floatRemainder
  text := Decimal.plain

end Flowchart
