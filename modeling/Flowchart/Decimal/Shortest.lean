import Flowchart.Decimal.Binary
/-! The fewest decimal digits that read back as the same binary number, and of those the nearest.
For one digit, two digits and so on, the two neighbours of the value on that grid are tried. -/
namespace Flowchart.Decimal

inductive Tie where
  | up
  | toEven
  deriving DecidableEq

structure Digits where
  value : Nat
  exponent : Int
  deriving DecidableEq

def Digits.reduce (d : Digits) : Digits :=
  if h : d.value % 10 = 0 ∧ d.value ≠ 0 then Digits.reduce ⟨d.value / 10, d.exponent + 1⟩ else d
  termination_by d.value
  decreasing_by omega

/-- The reals that round to a number, in quarters of its last place: `centre` is the number, the
ends `low` and `high` belong to it when `closed`. -/
structure Interval where
  low : Nat
  centre : Nat
  high : Nat
  closed : Bool
  exponent : Int

/-- Below a power of two the grid is twice as fine, so the interval is shorter there. -/
def Interval.of (mantissa : Nat) (exponent : Int) : Interval where
  low := 4 * mantissa - if mantissa = hiddenBit ∧ minExponent < exponent then 1 else 2
  centre := 4 * mantissa
  high := 4 * mantissa + 2
  closed := mantissa % 2 == 0
  exponent := exponent - 2

def commonFactors (grid binary : Int) : Nat × Nat :=
  let tens := Nat.pow 10 grid.natAbs
  let twos := Nat.pow 2 binary.natAbs
  ((if grid < 0 then 1 else tens) * (if binary < 0 then twos else 1),
    (if grid < 0 then tens else 1) * (if binary < 0 then 1 else twos))

def Interval.holds (i : Interval) (unit scale a : Nat) : Bool :=
  if i.closed then i.low * scale ≤ a * unit && a * unit ≤ i.high * scale
  else i.low * scale < a * unit && a * unit < i.high * scale

def Interval.onGrid? (i : Interval) (tie : Tie) (grid : Int) : Option Digits :=
  let (unit, scale) := commonFactors grid i.exponent
  let a := i.centre * scale / unit
  let below := i.centre * scale - a * unit
  let above := (a + 1) * unit - i.centre * scale
  match i.holds unit scale a, i.holds unit scale (a + 1) with
  | true, true =>
    if below < above then some ⟨a, grid⟩
    else if above < below then some ⟨a + 1, grid⟩
    else match tie with
      | .up => some ⟨a + 1, grid⟩
      | .toEven => some ⟨a + a % 2, grid⟩
  | true, false => some ⟨a, grid⟩
  | false, true => some ⟨a + 1, grid⟩
  | false, false => none

/-- The coarsest of `count` grids, each ten times finer, that has a candidate. -/
def Interval.search (i : Interval) (tie : Tie) : (count : Nat) → (grid : Int) → Digits
  | 0, grid => ⟨0, grid⟩
  | count + 1, grid => (i.onGrid? tie grid).getD (i.search tie count (grid - 1))

def zerosBehindPoint (den : Nat) : (bound num : Nat) → Nat
  | 0, _ => 0
  | bound + 1, num => if den ≤ num then 0 else zerosBehindPoint den bound (num * 10) + 1

/-- The place of the first digit: `10 ^ (place - 1) ≤ value < 10 ^ place`. -/
def leadingPlace (mantissa : Nat) (exponent : Int) : Int :=
  let (num, den) := scaleDown mantissa 1 (-exponent)
  if den ≤ num then (num / den).repr.length
  else 1 - (zerosBehindPoint den 330 num : Int)

/-- Seventeen digits always suffice. -/
def shortest (tie : Tie) (mantissa : Nat) (exponent : Int) : Digits :=
  if mantissa = 0 then ⟨0, 0⟩
  else
    ((Interval.of mantissa exponent).search tie 17 (leadingPlace mantissa exponent - 1)).reduce

/-- All digits written out, with a point among or before them where needed and never an exponent. -/
def Digits.positional (d : Digits) : String :=
  let digits := d.value.repr.toList
  if d.exponent < 0 then
    let places := d.exponent.natAbs
    let whole := digits.length - places
    if places < digits.length then
      String.ofList (digits.take whole ++ '.' :: digits.drop whole)
    else String.ofList ('0' :: '.' :: (List.replicate (places - digits.length) '0' ++ digits))
  else String.ofList (digits ++ List.replicate d.exponent.natAbs '0')

/-- The plain text of a float. Zero keeps its sign, and values that are no numbers have names. -/
def plain (x : Float) : String :=
  match view x with
  | .nan => "NaN"
  | .infinite negative => if negative then "-inf" else "inf"
  | .finite b =>
    let text := (shortest .up b.mantissa b.exponent).positional
    if b.negative then "-" ++ text else text

end Flowchart.Decimal
