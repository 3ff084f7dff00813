/-! Blanks, line ends, comments, strings and keys of TOML. Each reader takes characters from the
front and gives the rest back. -/
namespace Flowchart.Toml

def isBlank (c : Char) : Bool := c == ' ' || c == '\t'

def skipBlanks (cs : List Char) : List Char := cs.dropWhile isBlank

/-- Characters that may stand in a comment. Strings take them too, up to their marks. -/
def isVisible (c : Char) : Bool := c == '\t' || (0x20 ≤ c.toNat && c.toNat != 0x7f)

def lineEnd? : List Char → Option (List Char)
  | '\n' :: rest => some rest
  | '\r' :: '\n' :: rest => some rest
  | _ => none

def skipBreaks : List Char → List Char
  | ' ' :: rest => skipBreaks rest
  | '\t' :: rest => skipBreaks rest
  | '\n' :: rest => skipBreaks rest
  | '\r' :: '\n' :: rest => skipBreaks rest
  | rest => rest

def skipComment : List Char → List Char
  | '#' :: rest => rest.dropWhile isVisible
  | rest => rest

/-- What may stand behind a statement: blanks, a comment and the end of the line. -/
def endOfLine? (cs : List Char) : Option (List Char) :=
  match skipComment (skipBlanks cs) with
  | [] => some []
  | rest => lineEnd? rest

def hexValue? (c : Char) : Option Nat :=
  if '0' ≤ c && c ≤ '9' then some (c.toNat - 48)
  else if 'a' ≤ c && c ≤ 'f' then some (c.toNat - 87)
  else if 'A' ≤ c && c ≤ 'F' then some (c.toNat - 55)
  else none

def scalar? (count : Nat) (cs : List Char) : Option (Char × List Char) := do
  let digits ← (cs.take count).mapM hexValue?
  let value := digits.foldl (fun n d => 16 * n + d) 0
  if digits.length = count && (value < 0xd800 || (0xe000 ≤ value && value < 0x110000)) then
    some (Char.ofNat value, cs.drop count)
  else none

def escape? : List Char → Option (Char × List Char)
  | 'b' :: rest => some ('\x08', rest)
  | 'f' :: rest => some ('\x0c', rest)
  | 'n' :: rest => some ('\n', rest)
  | 'r' :: rest => some ('\r', rest)
  | 't' :: rest => some ('\t', rest)
  | '"' :: rest => some ('"', rest)
  | '\\' :: rest => some ('\\', rest)
  | 'u' :: rest => scalar? 4 rest
  | 'U' :: rest => scalar? 8 rest
  | _ => none

/-- A string with escapes behind its opening quote; `done` is what was read, backwards. -/
def basicBody? : (fuel : Nat) → (done : List Char) → List Char → Option (List Char × List Char)
  | 0, _, _ => none
  | _ + 1, _, [] => none
  | fuel + 1, done, c :: cs =>
    if c = '"' then some (done.reverse, cs)
    else if c = '\\' then
      match escape? cs with
      | some (d, rest) => basicBody? fuel (d :: done) rest
      | none => none
    else if isVisible c then basicBody? fuel (c :: done) cs
    else none

def literalBody? (cs : List Char) : Option (List Char × List Char) :=
  match cs.dropWhile fun c => isVisible c && c != '\'' with
  | '\'' :: rest => some (cs.takeWhile fun c => isVisible c && c != '\'', rest)
  | _ => none

/-- A line break that is escaped: with the blanks and breaks behind it, it stands for nothing. -/
def escapedBreak? (cs : List Char) : Option (List Char) :=
  (lineEnd? (skipBlanks cs)).map skipBreaks

/-- A string of several lines behind its opening quotes. Up to two quotes belong to the text, also
in front of the three that end it. -/
def multilineBody? (quote : Char) (escapes : Bool) :
    (fuel : Nat) → (done : List Char) → List Char → Option (List Char × List Char)
  | 0, _, _ => none
  | _ + 1, _, [] => none
  | fuel + 1, done, c :: cs =>
    if c = quote then
      let count := (cs.takeWhile (· == quote)).length + 1
      let rest := cs.drop (count - 1)
      if count < 3 then multilineBody? quote escapes fuel (List.replicate count quote ++ done) rest
      else if count < 6 then some ((List.replicate (count - 3) quote ++ done).reverse, rest)
      else none
    else if escapes && c = '\\' then
      match escapedBreak? cs with
      | some rest => multilineBody? quote escapes fuel done rest
      | none =>
        match escape? cs with
        | some (d, rest) => multilineBody? quote escapes fuel (d :: done) rest
        | none => none
    else
      match lineEnd? (c :: cs) with
      | some rest => multilineBody? quote escapes fuel ('\n' :: done) rest
      | none => if isVisible c then multilineBody? quote escapes fuel (c :: done) cs else none

/-- A string of several lines; a line break right behind the opening quotes is left out. -/
def multiline? (quote : Char) (escapes : Bool) (cs : List Char) : Option (List Char × List Char) :=
  multilineBody? quote escapes (cs.length + 1) [] ((lineEnd? cs).getD cs)

def quoted? : List Char → Option (List Char × List Char)
  | '"' :: rest => basicBody? (rest.length + 1) [] rest
  | '\'' :: rest => literalBody? rest
  | _ => none

def string? : List Char → Option (List Char × List Char)
  | '"' :: '"' :: '"' :: rest => multiline? '"' true rest
  | '\'' :: '\'' :: '\'' :: rest => multiline? '\'' false rest
  | cs => quoted? cs

def isBare (c : Char) : Bool := c.isAlphanum || c == '-' || c == '_'

def simpleKey? (cs : List Char) : Option (String × List Char) :=
  match cs with
  | '"' :: _ => (quoted? cs).map fun (text, rest) => (String.ofList text, rest)
  | '\'' :: _ => (quoted? cs).map fun (text, rest) => (String.ofList text, rest)
  | _ =>
    let word := cs.takeWhile isBare
    if word.isEmpty then none else some (String.ofList word, cs.drop word.length)

def maxDepth : Nat := 79

/-- A key of at most `count` parts with points between them, and the blanks around it. -/
def keyParts? : (count : Nat) → List Char → Option (List String × List Char)
  | 0, _ => none
  | count + 1, cs => do
    let (part, rest) ← simpleKey? (skipBlanks cs)
    match skipBlanks rest with
    | '.' :: rest =>
      let (parts, rest) ← keyParts? count rest
      some (part :: parts, rest)
    | rest => some ([part], rest)

def key? (cs : List Char) : Option (List String × List Char) := keyParts? maxDepth cs

end Flowchart.Toml
