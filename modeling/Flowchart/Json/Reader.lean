import Flowchart.Json.Value
/-! Reading JSON text. Each reader takes characters from the front and gives the rest back. -/
namespace Flowchart.Json

def isSpace (c : Char) : Bool := c == ' ' || c == '\n' || c == '\t' || c == '\r'

def skipSpace (cs : List Char) : List Char := cs.dropWhile isSpace

def digitValue (c : Char) : Nat := c.toNat - '0'.toNat

def readDigits (cs : List Char) : Nat × Nat × List Char :=
  let digits := cs.takeWhile Char.isDigit
  (digits.foldl (fun n c => 10 * n + digitValue c) 0, digits.length, cs.dropWhile Char.isDigit)

def fraction? : List Char → Option (Nat × Nat × List Char)
  | '.' :: cs =>
    let (value, count, rest) := readDigits cs
    if count = 0 then none else some (value, count, rest)
  | cs => some (0, 0, cs)

def power? (negative : Bool) (cs : List Char) : Option (Option Int × List Char) :=
  let (value, count, rest) := readDigits cs
  if count = 0 then none else some (some (if negative then -(value : Int) else value), rest)

def exponent? : List Char → Option (Option Int × List Char)
  | c :: cs =>
    if c = 'e' || c = 'E' then
      match cs with
      | '+' :: ds => power? false ds
      | '-' :: ds => power? true ds
      | _ => power? false cs
    else some (none, c :: cs)
  | [] => some (none, [])

/-- A number without its sign; no zero may stand before another digit. -/
def unsigned? (negative : Bool) (cs : List Char) : Option (Json × List Char) := do
  let (value, count, rest) := readDigits cs
  if count = 0 || (1 < count && cs.head? == some '0') then none
  else
    let (tail, places, behind) ← fraction? rest
    let (power, behind) ← exponent? behind
    let number : JsonNumber :=
      { negative, digits := value * Nat.pow 10 places + tail, exponent := power.getD 0 - places
        whole := places == 0 && power.isNone }
    some (.number number, behind)

def hexValue? (c : Char) : Option Nat :=
  if c.isDigit then some (digitValue c)
  else if 'a' ≤ c && c ≤ 'f' then some (c.toNat - 'a'.toNat + 10)
  else if 'A' ≤ c && c ≤ 'F' then some (c.toNat - 'A'.toNat + 10)
  else none

def unit? : List Char → Option (Nat × List Char)
  | a :: b :: c :: d :: rest => do
    let a ← hexValue? a
    let b ← hexValue? b
    let c ← hexValue? c
    let d ← hexValue? d
    some (((a * 16 + b) * 16 + c) * 16 + d, rest)
  | _ => none

def isHighHalf (unit : Nat) : Bool := 0xD800 ≤ unit && unit < 0xDC00

def isLowHalf (unit : Nat) : Bool := 0xDC00 ≤ unit && unit < 0xE000

/-- The character of an escaped code unit, or of two that form a pair; `none` inside for half a pair
alone. -/
def unicodeEscape? (cs : List Char) : Option (Option Char × List Char) := do
  let (unit, rest) ← unit? cs
  if isHighHalf unit then
    match rest with
    | '\\' :: 'u' :: more =>
      let (low, behind) ← unit? more
      if isLowHalf low then
        some (some (Char.ofNat (0x10000 + (unit - 0xD800) * 0x400 + (low - 0xDC00))), behind)
      else some (none, rest)
    | _ => some (none, rest)
  else if isLowHalf unit then some (none, rest)
  else some (some (Char.ofNat unit), rest)

def escape? : List Char → Option (Option Char × List Char)
  | '"' :: rest => some (some '"', rest)
  | '\\' :: rest => some (some '\\', rest)
  | '/' :: rest => some (some '/', rest)
  | 'b' :: rest => some (some '\x08', rest)
  | 'f' :: rest => some (some '\x0c', rest)
  | 'n' :: rest => some (some '\n', rest)
  | 'r' :: rest => some (some '\r', rest)
  | 't' :: rest => some (some '\t', rest)
  | 'u' :: rest => unicodeEscape? rest
  | _ => none

/-- The characters up to a closing quote. `fuel` bounds the steps; `sound` says whether all had a
meaning, and `done` holds them backwards. -/
def stringBody? : (fuel : Nat) → (sound : Bool) → (done : List Char) → List Char →
    Option (Option String × List Char)
  | 0, _, _, _ => none
  | _ + 1, _, _, [] => none
  | fuel + 1, sound, done, c :: cs =>
    if c = '"' then some (if sound then some (String.ofList done.reverse) else none, cs)
    else if c = '\\' then
      match escape? cs with
      | some (some d, rest) => stringBody? fuel sound (d :: done) rest
      | some (none, rest) => stringBody? fuel false done rest
      | none => none
    else if c.toNat < 0x20 then none
    else stringBody? fuel sound (c :: done) cs

def string? (cs : List Char) : Option (Option String × List Char) :=
  stringBody? (cs.length + 1) true [] cs

def word (letters : List Char) (value : Json) (cs : List Char) : Option (Json × List Char) :=
  if letters.isPrefixOf cs then some (value, cs.drop letters.length) else none

mutual

/-- A value behind blanks. Each level of nesting and each item takes one step of `fuel`. -/
def readValue? : (fuel : Nat) → List Char → Option (Json × List Char)
  | 0, _ => none
  | fuel + 1, cs =>
    match skipSpace cs with
    | '\x7b' :: rest =>
      match skipSpace rest with
      | '\x7d' :: behind => some (.object [], behind)
      | _ => (readMembers? fuel rest).map fun (members, behind) => (.object members, behind)
    | '[' :: rest =>
      match skipSpace rest with
      | ']' :: behind => some (.array [], behind)
      | _ => (readItems? fuel rest).map fun (items, behind) => (.array items, behind)
    | '"' :: rest => (string? rest).map fun (text, behind) => (.string text, behind)
    | '-' :: rest => unsigned? true rest
    | 'n' :: rest => word ['n', 'u', 'l', 'l'] .null ('n' :: rest)
    | 't' :: rest => word ['t', 'r', 'u', 'e'] (.bool true) ('t' :: rest)
    | 'f' :: rest => word ['f', 'a', 'l', 's', 'e'] (.bool false) ('f' :: rest)
    | rest => unsigned? false rest

def readItems? : (fuel : Nat) → List Char → Option (List Json × List Char)
  | 0, _ => none
  | fuel + 1, cs => do
    let (item, rest) ← readValue? fuel cs
    match skipSpace rest with
    | ',' :: more =>
      let (items, behind) ← readItems? fuel more
      some (item :: items, behind)
    | ']' :: behind => some ([item], behind)
    | _ => none

def readMembers? : (fuel : Nat) → List Char → Option (List (Option String × Json) × List Char)
  | 0, _ => none
  | fuel + 1, cs =>
    match skipSpace cs with
    | '"' :: more => do
      let (name, rest) ← string? more
      match skipSpace rest with
      | ':' :: more =>
        let (value, rest) ← readValue? fuel more
        match skipSpace rest with
        | ',' :: more =>
          let (members, behind) ← readMembers? fuel more
          some ((name, value) :: members, behind)
        | '\x7d' :: behind => some ([(name, value)], behind)
        | _ => none
      | _ => none
    | _ => none

end

def read? (text : String) : Option Json :=
  let cs := text.toList
  match readValue? (2 * cs.length + 2) cs with
  | some (value, rest) => if (skipSpace rest).isEmpty then some value else none
  | none => none

end Flowchart.Json
