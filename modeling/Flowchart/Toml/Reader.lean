import Flowchart.Toml.Number
import Flowchart.Toml.Table
/-! Reading a TOML document: values, the statements of its lines, and the tables they build. -/
namespace Flowchart.Toml

/-- A reader takes a part of the text from the front. -/
abbrev Reader (β : Type) := List Char → Option (β × List Char)

def skipLines : (fuel : Nat) → List Char → List Char
  | 0, cs => cs
  | fuel + 1, cs =>
    match skipBreaks cs with
    | '#' :: rest => skipLines fuel (skipComment ('#' :: rest))
    | rest => rest

def skipLayout (cs : List Char) : List Char := skipLines (cs.length + 1) cs

/-- Items up to the closing bracket; a comma may stand behind the last one. -/
def items? (value? : Reader Value) : (fuel : Nat) → Reader (List Value)
  | 0, _ => none
  | fuel + 1, cs =>
    match skipLayout cs with
    | ']' :: rest => some ([], rest)
    | cs => do
      let (item, rest) ← value? cs
      match skipLayout rest with
      | ',' :: rest =>
        let (items, rest) ← items? value? fuel rest
        some (item :: items, rest)
      | ']' :: rest => some ([item], rest)
      | _ => none

def pair? (value? : Reader Value) : Reader (List String × Value) := fun cs => do
  let (path, rest) ← key? cs
  let (value, rest) ← value? (skipBlanks (← mark? '=' rest))
  some ((path, value), skipBlanks rest)

def pairs? (value? : Reader Value) : (fuel : Nat) → Reader (List (List String × Value))
  | 0, _ => none
  | fuel + 1, cs => do
    let (pair, rest) ← pair? value? cs
    match rest with
    | ',' :: rest =>
      let (pairs, rest) ← pairs? value? fuel rest
      some (pair :: pairs, rest)
    | '\x7d' :: rest => some ([pair], rest)
    | _ => none

def Entries.add (entries : Entries) (keys : List String) (value : Value) : Option Entries :=
  match keys.getLast? with
  | some key => entries.addPair keys.dropLast key value
  | none => none

def inlineTable? (pairs : List (List String × Value)) : Option Value :=
  (pairs.foldlM (fun (entries : Entries) (keys, value) => entries.add keys value) []).map
    fun entries => .table (Item.entryValues entries)

def word? (letters : String) (value : Value) : Reader Value := fun cs =>
  if letters.toList.isPrefixOf cs then some (value, cs.drop letters.length) else none

def quoted : Reader Value := fun cs =>
  (string? cs).map fun (text, rest) => (.string (String.ofList text), rest)

def simpleValue? : Reader Value
  | '"' :: rest => quoted ('"' :: rest)
  | '\'' :: rest => quoted ('\'' :: rest)
  | 't' :: rest => word? "true" (.boolean true) ('t' :: rest)
  | 'f' :: rest => word? "false" (.boolean false) ('f' :: rest)
  | cs => number? cs

/-- A value; arrays and tables in braces may be nested `depth` levels. -/
def value? : (depth : Nat) → Reader Value
  | 0, cs => simpleValue? cs
  | depth + 1, cs =>
    match cs with
    | '[' :: rest =>
      (items? (value? depth) (rest.length + 1) rest).map fun (items, rest) => (.array items, rest)
    | '\x7b' :: rest =>
      match skipBlanks rest with
      | '\x7d' :: rest => some (.table [], rest)
      | _ => do
        let (pairs, rest) ← pairs? (value? depth) (rest.length + 1) rest
        some (← inlineTable? pairs, rest)
    | _ => simpleValue? cs

inductive Statement where
  | pair (keys : List String) (value : Value)
  | header (keys : List String)
  | nextHeader (keys : List String)

def header? : Reader Statement
  | '[' :: cs => do
    let (keys, rest) ← key? cs
    some (.nextHeader keys, ← endOfLine? (← mark? ']' (← mark? ']' rest)))
  | cs => do
    let (keys, rest) ← key? cs
    some (.header keys, ← endOfLine? (← mark? ']' rest))

def pairLine? : Reader Statement := fun cs => do
  let ((keys, value), rest) ← pair? (value? maxDepth) cs
  some (.pair keys value, ← endOfLine? rest)

def statements? : (fuel : Nat) → List Char → Option (List Statement)
  | 0, _ => none
  | fuel + 1, cs =>
    match skipBlanks cs with
    | [] => some []
    | '#' :: rest => (endOfLine? ('#' :: rest)).bind (statements? fuel)
    | '[' :: rest => do
      let (statement, rest) ← header? rest
      some (statement :: (← statements? fuel rest))
    | c :: rest =>
      if c = '\n' || c = '\r' then (lineEnd? (c :: rest)).bind (statements? fuel)
      else do
        let (statement, rest) ← pairLine? (c :: rest)
        some (statement :: (← statements? fuel rest))

/-- The tables of a document, and the keys of the table that pairs are added to. -/
structure Document where
  entries : Entries := []
  current : List String := []

/-- Pairs belong to the table named last. A pair in it is one below the path of the table. -/
def Document.add (d : Document) : Statement → Option Document
  | .header keys => do
    let entries ← d.entries.openTable keys.dropLast (← keys.getLast?)
    some ⟨entries, keys⟩
  | .nextHeader keys => do
    let entries ← d.entries.openNextTable keys.dropLast (← keys.getLast?)
    some ⟨entries, keys⟩
  | .pair keys value => do
    let entries ← Entries.change false (fun _ inner => Entries.add inner keys value) d.current
      .header d.entries
    some { d with entries }

/-- The table of a whole document, which may begin with a byte order mark. -/
def read? (text : String) : Option (List (String × Value)) := do
  let cs := match text.toList with
    | '\ufeff' :: rest => rest
    | cs => cs
  let statements ← statements? (cs.length + 1) cs
  let d ← statements.foldlM Document.add {}
  some (Item.entryValues d.entries)

end Flowchart.Toml
