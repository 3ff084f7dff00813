/-! Binary floating point seen as whole numbers: `mantissa * 2 ^ exponent`, and the way back, to the
nearest value with ties to the even mantissa. -/
namespace Flowchart.Decimal

/-- A finite number, `mantissa * 2 ^ exponent` with a sign that zero has too. -/
structure Binary where
  negative : Bool
  mantissa : Nat
  exponent : Int
  deriving DecidableEq

inductive FloatView where
  | nan
  | infinite (negative : Bool)
  | finite (value : Binary)
  deriving DecidableEq

def hiddenBit : Nat := Nat.pow 2 52

/-- The exponent of the smallest positive number. -/
def minExponent : Int := -1074

def view (x : Float) : FloatView :=
  let bits := x.toBits.toNat
  let negative := decide (Nat.pow 2 63 ≤ bits)
  let field := bits / hiddenBit % 2048
  let fraction := bits % hiddenBit
  if field = 2047 then
    if fraction = 0 then .infinite negative else .nan
  else if field = 0 then .finite ⟨negative, fraction, minExponent⟩
  else .finite ⟨negative, hiddenBit + fraction, minExponent + (field - 1 : Nat)⟩

/-- Quotient to the nearest whole number, a half to the even one. -/
def roundDiv (num den : Nat) : Nat :=
  let q := num / den
  let r := num % den
  if 2 * r < den then q else if den < 2 * r then q + 1 else q + q % 2

def scaleDown (num den : Nat) (exponent : Int) : Nat × Nat :=
  let power := Nat.pow 2 exponent.natAbs
  if exponent < 0 then (num * power, den) else (num, den * power)

/-- The exponent at which `num / den` has a mantissa of 53 bits, or the smallest exponent. -/
def exponentFor (num den : Nat) : Int :=
  let guess : Int := num.log2 - den.log2 - 52
  let (n, d) := scaleDown num den guess
  max minExponent (if n / d < hiddenBit then guess - 1 else guess)

/-- The double nearest to `num / den`; too large a quotient is infinite. -/
def nearest (negative : Bool) (num den : Nat) : Float :=
  let exponent := exponentFor num den
  let (n, d) := scaleDown num den exponent
  let mantissa := roundDiv n d
  let bits :=
    if mantissa < hiddenBit then mantissa
    else (exponent - minExponent + 1).toNat * hiddenBit + (mantissa - hiddenBit)
  let bits := min bits (2047 * hiddenBit)
  Float.ofBits (UInt64.ofNat (if negative then Nat.pow 2 63 + bits else bits))

/-- The double nearest to `digits * 10 ^ exponent`. Beyond `10 ^ 310` it is infinite, and below
`10 ^ -330` it is zero. -/
def ofDecimal (negative : Bool) (digits : Nat) (exponent : Int) : Float :=
  let place : Int := digits.repr.length + exponent
  if digits = 0 || place < -330 then nearest negative 0 1
  else if 320 < place then nearest negative (Nat.pow 2 1100) 1
  else if exponent < 0 then nearest negative digits (Nat.pow 10 exponent.natAbs)
  else nearest negative (digits * Nat.pow 10 exponent.natAbs) 1

def Binary.toFloat (b : Binary) : Float :=
  let (n, d) := scaleDown b.mantissa 1 (-b.exponent)
  nearest b.negative n d

def Binary.rest (x y : Binary) : Binary :=
  let exponent := min x.exponent y.exponent
  let scaled (b : Binary) : Nat := b.mantissa * Nat.pow 2 (b.exponent - exponent).toNat
  ⟨x.negative, scaled x % scaled y, exponent⟩

end Flowchart.Decimal
