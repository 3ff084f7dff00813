/-! The numbers that sizes, positions and routes are computed with. Each formula of the library is
written once over these classes. Binary floating point runs it, exact rationals reason about it. -/
namespace Flowchart

/-- Arithmetic and comparison. `precedes` is the order that sorting uses: it is total, also where
`≤` leaves two values unordered. -/
class Scalar (α : Type) extends
    Add α, Sub α, Mul α, Div α, Neg α, LT α, LE α, BEq α, OfScientific α where
  ofNat : Nat → α
  decidableLT : DecidableLT α
  decidableLE : DecidableLE α
  precedes : α → α → Bool

attribute [instance (100)] Scalar.toAdd Scalar.toSub Scalar.toMul Scalar.toDiv Scalar.toNeg
  Scalar.toLT Scalar.toLE Scalar.toBEq Scalar.toOfScientific

instance (priority := 100) Scalar.instDecidableLT {α : Type} [Scalar α] : DecidableLT α :=
  Scalar.decidableLT

instance (priority := 100) Scalar.instDecidableLE {α : Type} [Scalar α] : DecidableLE α :=
  Scalar.decidableLE

instance (priority := 100) Scalar.instOfNat {α : Type} [Scalar α] (n : Nat) : OfNat α n :=
  ⟨Scalar.ofNat n⟩

/-- Numbers with a square root, for distances. `infinity` is farther than all else. -/
class Metric (α : Type) extends Scalar α where
  sqrt : α → α
  infinity : α

/-- Numbers that can be written into a drawing. `round` goes to the nearest whole number, halves
away from zero; `remainder x y` is what whole multiples of `y` leave of `x`, never negative. -/
class Printable (α : Type) extends Metric α where
  round : α → α
  remainder : α → α → α
  text : α → String

variable {α : Type} [Scalar α]

/-- The smaller of two numbers, the first when neither is smaller. A value that differs from itself
counts for nothing beside another one. -/
def least (a b : α) : α := if b < a then b else if a == a then a else b

/-- The larger of two numbers, with the rules of `least`. -/
def greatest (a b : α) : α := if a < b then b else if a == a then a else b

/-- The nearest value within `low` and `high`; an unordered value stays as it is. -/
def clamp (low high a : α) : α := if a < low then low else if high < a then high else a

def magnitude (a : α) : α := if a < 0 then -a else a

def total (xs : List α) : α := xs.foldl (· + ·) 0

instance : Scalar Rat where
  ofNat n := n
  decidableLT := inferInstance
  decidableLE := inferInstance
  precedes a b := decide (a ≤ b)

end Flowchart
