import Flowchart.Decimal.Binary
/-! JSON values as they are written. Numbers keep their digits. A string whose escapes name half of
a surrogate pair alone has no text; it may only be passed over. -/
namespace Flowchart

structure JsonNumber where
  negative : Bool
  digits : Nat
  exponent : Int
  /-- Written with digits only. -/
  whole : Bool
  deriving DecidableEq

inductive Json where
  | null
  | bool (value : Bool)
  | number (value : JsonNumber)
  | string (text : Option String)
  | array (items : List Json)
  | object (members : List (Option String × Json))

namespace JsonNumber

/-- The nearest double, unless the number is beyond the largest one. -/
def toFloat? (n : JsonNumber) : Option Float :=
  let x := Decimal.ofDecimal n.negative n.digits n.exponent
  match Decimal.view x with
  | .finite _ => some x
  | _ => none

def toWord? (n : JsonNumber) : Option Nat :=
  if n.whole && !n.negative && n.digits < Nat.pow 2 64 then some n.digits else none

end JsonNumber

namespace Json

def text? : Json → Option String
  | .string text => text
  | _ => none

def bool? : Json → Option Bool
  | .bool value => some value
  | _ => none

def word? : Json → Option Nat
  | .number n => n.toWord?
  | _ => none

def float? : Json → Option Float
  | .number n => n.toFloat?
  | _ => none

def items? : Json → Option (List Json)
  | .array items => some items
  | _ => none

/-- The first member with a name. -/
def member? (name : String) : Json → Option Json
  | .object members => (members.find? (·.1 == some name)).map (·.2)
  | _ => none

end Json
end Flowchart
