import Flowchart.Json.Value
import Flowchart.Decimal.Shortest
/-! JSON text: two blanks for each level, one item a line. -/
namespace Flowchart

namespace JsonNumber

def ofNat (n : Nat) : JsonNumber := ⟨false, n, 0, true⟩

/-- A fraction is written with all its digits from `0.00001` up to sixteen digits before the point,
else with an exponent. -/
def fraction (digits : List Char) (exponent : Int) : String :=
  let place : Int := digits.length + exponent
  let text :=
    if 0 ≤ exponent ∧ place ≤ 16 then
      digits ++ List.replicate exponent.toNat '0' ++ ['.', '0']
    else if 0 < place ∧ place ≤ 16 then
      digits.take place.toNat ++ '.' :: digits.drop place.toNat
    else if -5 < place ∧ place ≤ 0 then
      '0' :: '.' :: (List.replicate place.natAbs '0' ++ digits)
    else
      let power := 'e' :: (place - 1).repr.toList
      match digits with
      | d :: e :: ds => d :: '.' :: e :: ds ++ power
      | ds => ds ++ power
  String.ofList text

def text (n : JsonNumber) : String :=
  let digits := n.digits.repr
  let text := if n.whole then digits else fraction digits.toList n.exponent
  if n.negative then "-" ++ text else text

end JsonNumber

namespace Json

def ofNat (n : Nat) : Json := .number (.ofNat n)

/-- A float by the fewest digits that read back; values that are no numbers become `null`. -/
def ofFloat (x : Float) : Json :=
  match Decimal.view x with
  | .finite b =>
    let digits := Decimal.shortest .toEven b.mantissa b.exponent
    .number ⟨b.negative, digits.value, digits.exponent, false⟩
  | _ => .null

def ofText (text : String) : Json := .string (some text)

/-- An object without members whose value is missing. -/
def ofMembers (members : List (String × Option Json)) : Json :=
  .object (members.filterMap fun (name, value) => value.map (some name, ·))

def hexDigit (n : Nat) : Char := if n < 10 then Char.ofNat (48 + n) else Char.ofNat (87 + n)

def quotedChar (c : Char) : List Char :=
  if c = '"' then ['\\', '"']
  else if c = '\\' then ['\\', '\\']
  else if c = '\x08' then ['\\', 'b']
  else if c = '\x0c' then ['\\', 'f']
  else if c = '\n' then ['\\', 'n']
  else if c = '\r' then ['\\', 'r']
  else if c = '\t' then ['\\', 't']
  else if c.toNat < 0x20 then
    ['\\', 'u', '0', '0', hexDigit (c.toNat / 16), hexDigit (c.toNat % 16)]
  else [c]

def quoted (text : String) : String :=
  String.ofList ('"' :: text.toList.flatMap quotedChar ++ ['"'])

def newLine (level : Nat) : String := String.ofList ('\n' :: List.replicate (2 * level) ' ')

mutual

def pretty (level : Nat) : Json → String
  | .null => "null"
  | .bool value => if value then "true" else "false"
  | .number n => n.text
  | .string text => quoted (text.getD "")
  | .array [] => "[]"
  | .array (item :: items) =>
    "[" ++ newLine (level + 1) ++ pretty (level + 1) item ++ prettyItems (level + 1) items
      ++ newLine level ++ "]"
  | .object [] => "\x7b\x7d"
  | .object ((name, value) :: members) =>
    "\x7b" ++ newLine (level + 1) ++ quoted (name.getD "") ++ ": " ++ pretty (level + 1) value
      ++ prettyMembers (level + 1) members ++ newLine level ++ "\x7d"

def prettyItems (level : Nat) : List Json → String
  | [] => ""
  | item :: items => "," ++ newLine level ++ pretty level item ++ prettyItems level items

def prettyMembers (level : Nat) : List (Option String × Json) → String
  | [] => ""
  | (name, value) :: members =>
    "," ++ newLine level ++ quoted (name.getD "") ++ ": " ++ pretty level value
      ++ prettyMembers level members

end

end Json
end Flowchart
