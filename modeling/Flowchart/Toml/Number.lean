import Flowchart.Decimal.Binary
import Flowchart.Toml.Text
import Flowchart.Toml.Value
/-! Numbers, dates and times of TOML. -/
namespace Flowchart.Toml

/-- Digits, with single underscores between some of them. -/
def digitsTail (isDigit : Char → Bool) : List Char → List Char × List Char
  | '_' :: d :: rest =>
    if isDigit d then
      let (more, rest) := digitsTail isDigit rest
      (d :: more, rest)
    else ([], '_' :: d :: rest)
  | d :: rest =>
    if isDigit d then
      let (more, rest) := digitsTail isDigit rest
      (d :: more, rest)
    else ([], d :: rest)
  | [] => ([], [])

def digits? (isDigit : Char → Bool) : List Char → Option (List Char × List Char)
  | d :: rest =>
    if isDigit d then
      let (more, rest) := digitsTail isDigit rest
      some (d :: more, rest)
    else none
  | [] => none

def numberOf (base : Nat) (digits : List Char) : Nat :=
  digits.foldl (fun n d => base * n + (hexValue? d).getD 0) 0

def sign : List Char → Bool × List Char
  | '-' :: rest => (true, rest)
  | '+' :: rest => (false, rest)
  | rest => (false, rest)

def decimal? (cs : List Char) : Option (List Char × List Char) :=
  match cs with
  | '0' :: rest => some (['0'], rest)
  | _ => digits? Char.isDigit cs

def integerValue? (negative : Bool) (value : Nat) : Option Value :=
  if negative then
    if value ≤ Nat.pow 2 63 then some (.integer (-value)) else none
  else if value < Nat.pow 2 63 then some (.integer value) else none

def based? (base : Nat) (isDigit : Char → Bool) (cs : List Char) : Option (Value × List Char) := do
  let (digits, rest) ← digits? isDigit cs
  some (← integerValue? false (numberOf base digits), rest)

def integer? : List Char → Option (Value × List Char)
  | '0' :: 'x' :: rest => based? 16 (fun c => (hexValue? c).isSome) rest
  | '0' :: 'o' :: rest => based? 8 (fun c => '0' ≤ c && c ≤ '7') rest
  | '0' :: 'b' :: rest => based? 2 (fun c => c == '0' || c == '1') rest
  | cs => do
    let (negative, rest) := sign cs
    let (digits, rest) ← decimal? rest
    some (← integerValue? negative (numberOf 10 digits), rest)

def exponent? : List Char → Option (Int × List Char)
  | e :: cs =>
    if e = 'e' || e = 'E' then
      let (negative, rest) := sign cs
      (digits? Char.isDigit rest).map fun (digits, rest) =>
        (if negative then -(numberOf 10 digits : Int) else numberOf 10 digits, rest)
    else none
  | [] => none

/-- The value of a decimal number. One beyond the largest positive double is refused. -/
def floatValue? (negative : Bool) (digits : List Char) (exponent : Int) : Option Value :=
  let x := Decimal.ofDecimal negative (numberOf 10 digits) exponent
  if Decimal.view x = .infinite false then none else some (.float x)

def decimalFloat? (cs : List Char) : Option (Value × List Char) := do
  let (negative, rest) := sign cs
  let (whole, rest) ← decimal? rest
  match rest with
  | '.' :: rest =>
    let (fraction, rest) ← digits? Char.isDigit rest
    let (exponent, rest) := (exponent? rest).getD (0, rest)
    some (← floatValue? negative (whole ++ fraction) (exponent - fraction.length), rest)
  | _ =>
    let (exponent, rest) ← exponent? rest
    some (← floatValue? negative whole exponent, rest)

def specialFloat? (cs : List Char) : Option (Value × List Char) :=
  let (negative, rest) := sign cs
  match rest with
  | 'i' :: 'n' :: 'f' :: rest => some (.float (if negative then -1 / 0 else 1 / 0), rest)
  | 'n' :: 'a' :: 'n' :: rest => some (.float (0 / 0), rest)
  | _ => none

def field? (count low high : Nat) (cs : List Char) : Option (Nat × List Char) :=
  let digits := cs.take count
  let value := numberOf 10 digits
  if digits.length = count && digits.all Char.isDigit && low ≤ value && value ≤ high then
    some (value, cs.drop count)
  else none

def mark? (c : Char) : List Char → Option (List Char)
  | d :: rest => if d = c then some rest else none
  | [] => none

def daysIn (year month : Nat) : Nat :=
  if month = 2 then if year % 4 = 0 && (year % 100 ≠ 0 || year % 400 = 0) then 29 else 28
  else if month = 4 || month = 6 || month = 9 || month = 11 then 30
  else 31

def date? (cs : List Char) : Option (List Char) := do
  let (year, rest) ← field? 4 0 9999 cs
  let (month, rest) ← field? 2 1 12 (← mark? '-' rest)
  let (_, rest) ← field? 2 1 (daysIn year month) (← mark? '-' rest)
  some rest

/-- What is behind a time of day. A minute may have a leap second. -/
def time? (cs : List Char) : Option (List Char) := do
  let (_, rest) ← field? 2 0 23 cs
  let (_, rest) ← field? 2 0 59 (← mark? ':' rest)
  let (_, rest) ← field? 2 0 60 (← mark? ':' rest)
  match rest with
  | '.' :: d :: more =>
    if d.isDigit then some (more.dropWhile Char.isDigit) else some rest
  | _ => some rest

def offset? : List Char → Option (List Char)
  | c :: rest =>
    if c = 'Z' || c = 'z' then some rest
    else if c = '+' || c = '-' then do
      let (_, rest) ← field? 2 0 23 rest
      let (_, rest) ← field? 2 0 59 (← mark? ':' rest)
      some rest
    else none
  | [] => none

def momentEnd? (cs : List Char) : Option (List Char) :=
  match date? cs with
  | some rest =>
    match rest with
    | c :: more =>
      if c = 'T' || c = 't' || c = ' ' then
        match time? more with
        | some behind => some ((offset? behind).getD behind)
        | none => some rest
      else some rest
    | [] => some []
  | none => time? cs

def moment? (cs : List Char) : Option (Value × List Char) :=
  (momentEnd? cs).map fun rest =>
    (.moment (String.ofList (cs.take (cs.length - rest.length))), rest)

def number? (cs : List Char) : Option (Value × List Char) :=
  moment? cs <|> decimalFloat? cs <|> specialFloat? cs <|> integer? cs

end Flowchart.Toml
