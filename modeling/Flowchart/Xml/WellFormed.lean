/-! Is a text a well-formed XML document? Tags have to be nested, attributes quoted and different,
prefixes declared, references known and characters allowed. Attributes differ when their names do
after each prefix is replaced by the address that it stands for. -/
namespace Flowchart.Xml

def isSpace (c : Char) : Bool := c == ' ' || c == '\n' || c == '\t' || c == '\r'

def skipSpaces (cs : List Char) : List Char := cs.dropWhile isSpace

def isAllowed (c : Char) : Bool :=
  if c.toNat < 0x20 then isSpace c else c.toNat != 0xfffe && c.toNat != 0xffff

def within (ranges : List (Nat × Nat)) (c : Char) : Bool :=
  ranges.any fun (low, high) => low ≤ c.toNat && c.toNat ≤ high

def isNameStart : Char → Bool :=
  within [(0x41, 0x5a), (0x61, 0x7a), (0x5f, 0x5f), (0x3a, 0x3a), (0xc0, 0xd6), (0xd8, 0xf6),
    (0xf8, 0x2ff), (0x370, 0x37d), (0x37f, 0x1fff), (0x200c, 0x200d), (0x2070, 0x218f),
    (0x2c00, 0x2fef), (0x3001, 0xd7ff), (0xf900, 0xfdcf), (0xfdf0, 0xfffd), (0x10000, 0xeffff)]

def isNameChar (c : Char) : Bool :=
  isNameStart c || within [(0x2d, 0x2e), (0x30, 0x39), (0xb7, 0xb7), (0x300, 0x36f),
    (0x203f, 0x2040)] c

structure Name where
  space : List Char
  part : List Char
  deriving DecidableEq, Repr

def isPart (cs : List Char) : Bool :=
  match cs with
  | c :: _ => isNameStart c
  | [] => false

def name? (cs : List Char) : Option (Name × List Char) :=
  let word := cs.takeWhile isNameChar
  let rest := cs.drop word.length
  match word.dropWhile (· != ':') with
  | [] => if isPart word then some (⟨[], word⟩, rest) else none
  | _ :: behind =>
    let front := word.takeWhile (· != ':')
    if (front.isEmpty || isPart front) && isPart behind && !behind.contains ':' then
      some (⟨front, behind⟩, rest)
    else none

def entity? (name : List Char) : Option Char :=
  [("amp".toList, '&'), ("lt".toList, '<'), ("gt".toList, '>'), ("quot".toList, '"'),
    ("apos".toList, '\'')].lookup name

def digitValue? (base : Nat) (c : Char) : Option Nat :=
  let value :=
    if '0' ≤ c && c ≤ '9' then c.toNat - 48
    else if 'a' ≤ c && c ≤ 'f' then c.toNat - 87
    else if 'A' ≤ c && c ≤ 'F' then c.toNat - 55
    else base
  if value < base then some value else none

/-- The character with a number. A number beyond all characters stands for one that may be in a
document, but not one that takes more than 32 bits. -/
def numbered? (base : Nat) (digits : List Char) : Option Char := do
  let values ← digits.mapM (digitValue? base)
  let value := values.foldl (fun n d => base * n + d) 0
  let c := if value < 0xd800 || (0xe000 ≤ value && value < 0x110000) then Char.ofNat value
    else '\ufffd'
  if !digits.isEmpty && value < Nat.pow 2 32 && isAllowed c then some c else none

def reference? : List Char → Option Char
  | '#' :: 'x' :: digits => numbered? 16 digits
  | '#' :: digits => numbered? 10 digits
  | name => entity? name

/-- The text that is written between tags or between quotes, if its characters and references are
right. -/
def text? : (fuel : Nat) → List Char → Option (List Char)
  | 0, _ => none
  | _ + 1, [] => some []
  | fuel + 1, c :: cs =>
    if c = '&' then
      match cs.dropWhile (· != ';') with
      | ';' :: rest => do return (← reference? (cs.takeWhile (· != ';'))) :: (← text? fuel rest)
      | _ => none
    else if isAllowed c then (text? fuel cs).map (c :: ·)
    else none

/-- A line end or a tab in a value counts as a blank. -/
def blankLines : List Char → List Char
  | [] => []
  | '\r' :: '\n' :: cs => ' ' :: blankLines cs
  | c :: cs => (if isSpace c then ' ' else c) :: blankLines cs

def splitAt? (mark : List Char) : List Char → Option (List Char × List Char)
  | [] => none
  | c :: cs =>
    if mark.isPrefixOf (c :: cs) then some ([], (c :: cs).drop mark.length)
    else (splitAt? mark cs).map fun (before, rest) => (c :: before, rest)

def contains (mark cs : List Char) : Bool := (splitAt? mark cs).isSome

def comment? (cs : List Char) : Option (List Char) := do
  let (text, rest) ← splitAt? "-->".toList cs
  if text.all isAllowed && !contains "--".toList text && text.getLast? != some '-' then some rest
  else none

def literal? (cs : List Char) : Option (List Char) := do
  let (text, rest) ← splitAt? "]]>".toList cs
  if text.all isAllowed then some rest else none

def instruction? (cs : List Char) : Option (List Char) := do
  if "xml ".toList.isPrefixOf cs then none
  else
    let word := cs.takeWhile isNameChar
    let (text, rest) ← splitAt? "?>".toList (cs.drop word.length)
    if isPart word && text.all isAllowed then some rest else none

structure Attribute where
  name : Name
  value : List Char
  deriving DecidableEq, Repr

def attribute? (cs : List Char) : Option (Attribute × List Char) := do
  let (name, rest) ← name? cs
  match skipSpaces rest with
  | '=' :: rest =>
    match skipSpaces rest with
    | quote :: rest =>
      if quote = '"' || quote = '\'' then
        let written := rest.takeWhile fun c => c != quote && c != '<'
        let value ← text? (written.length + 1) (blankLines written)
        match rest.drop written.length with
        | close :: rest => if close = quote then some (⟨name, value⟩, rest) else none
        | [] => none
      else none
    | [] => none
  | _ => none

structure Tag where
  name : Name
  attributes : List Attribute
  empty : Bool

/-- The attributes of a tag up to its end; each has space in front. -/
def attributes? : (fuel : Nat) → List Char → Option (List Attribute × Bool × List Char)
  | 0, _ => none
  | fuel + 1, cs =>
    match skipSpaces cs with
    | '/' :: '>' :: rest => some ([], true, rest)
    | '>' :: rest => some ([], false, rest)
    | rest => do
      if rest.length = cs.length then none
      else
        let (a, rest) ← attribute? rest
        let (others, empty, rest) ← attributes? fuel rest
        some (a :: others, empty, rest)

def tag? (cs : List Char) : Option (Tag × List Char) := do
  let (name, rest) ← name? cs
  let (attributes, empty, rest) ← attributes? (rest.length + 1) rest
  some (⟨name, attributes, empty⟩, rest)

/-- Prefixes and the addresses that they stand for; the prefix of names without one is empty. -/
abbrev Scope := List (List Char × List Char)

/-- The address of the prefix `xml`, which needs no declaration. -/
def xmlAddress : List Char := "http://www.w3.org/XML/1998/namespace".toList

/-- The address of declarations themselves, which no prefix may stand for. -/
def declarationAddress : List Char := "http://www.w3.org/2000/xmlns/".toList

/-- Prefixes declared by a tag, and its other attributes, if no declaration is wrong. -/
def declarations? : List Attribute → Option (Scope × List Attribute)
  | [] => some ([], [])
  | a :: as => do
    let (scope, others) ← declarations? as
    let isXml := a.value == xmlAddress
    if a.name.space = "xmlns".toList then
      if a.value == declarationAddress || isXml != (a.name.part == "xml".toList)
          || scope.any (·.1 == a.name.part) then none
      else some (if isXml then scope else (a.name.part, a.value) :: scope, others)
    else if a.name.part = "xmlns".toList then
      if a.value == declarationAddress || isXml then none else some (([], a.value) :: scope, others)
    else some (scope, a :: others)

abbrev FullName := Option (List Char) × List Char

/-- The full name of an attribute. Without a prefix it has no address. -/
def fullName? (scope : Scope) (name : Name) : Option FullName :=
  if name.space.isEmpty then some (none, name.part)
  else if name.space = "xml".toList then some (some xmlAddress, name.part)
  else (scope.lookup name.space).map fun address => (some address, name.part)

def distinct : List FullName → Bool
  | [] => true
  | n :: ns => !ns.contains n && distinct ns

structure Element where
  name : Name
  scope : Scope

/-- The element that a tag opens inside a scope, if its names are right. -/
def element? (outer : Scope) (tag : Tag) : Option Element := do
  let (declared, others) ← declarations? tag.attributes
  let scope := declared ++ outer
  let names ← others.mapM fun a => fullName? scope a.name
  let known := tag.name.space.isEmpty || (scope.lookup tag.name.space).isSome
  if known && distinct names then some ⟨tag.name, scope⟩ else none

def content? : (fuel : Nat) → (opened : List Element) → List Char → Option (List Char)
  | 0, _, _ => none
  | _ + 1, [], cs => some cs
  | fuel + 1, e :: es, cs =>
    match cs with
    | [] => none
    | '<' :: '/' :: rest => do
      let (name, rest) ← name? rest
      match skipSpaces rest with
      | '>' :: rest => if name = e.name then content? fuel es rest else none
      | _ => none
    | '<' :: '!' :: '-' :: '-' :: rest => (comment? rest).bind (content? fuel (e :: es))
    | '<' :: '!' :: rest =>
      if "[CDATA[".toList.isPrefixOf rest then
        (literal? (rest.drop 7)).bind (content? fuel (e :: es))
      else none
    | '<' :: '?' :: rest => (instruction? rest).bind (content? fuel (e :: es))
    | '<' :: rest => do
      let (tag, rest) ← tag? rest
      let inner ← element? e.scope tag
      content? fuel (if tag.empty then e :: es else inner :: e :: es) rest
    | c :: rest =>
      let text := (c :: rest).takeWhile (· != '<')
      if (text? (text.length + 1) text).isSome && !contains "]]>".toList text then
        content? fuel (e :: es) ((c :: rest).drop text.length)
      else none

/-- Is nothing left but comments, instructions and space? -/
def isRest : (fuel : Nat) → List Char → Bool
  | 0, _ => false
  | fuel + 1, cs =>
    match skipSpaces cs with
    | [] => true
    | '<' :: '!' :: '-' :: '-' :: rest =>
      match comment? rest with
      | some rest => isRest fuel rest
      | none => false
    | '<' :: '?' :: rest =>
      match instruction? rest with
      | some rest => isRest fuel rest
      | none => false
    | _ => false

def body (cs : List Char) : List Char :=
  if "<?xml ".toList.isPrefixOf cs then ((splitAt? "?>".toList cs).map (·.2)).getD cs else cs

/-- One element, and nothing of weight around it. -/
def isWellFormed (text : String) : Bool :=
  match skipSpaces (body text.toList) with
  | '<' :: rest =>
    let behind := do
      let (tag, rest) ← tag? rest
      let root ← element? [] tag
      content? (rest.length + 1) (if tag.empty then [] else [root]) rest
    match behind with
    | some rest => isRest (rest.length + 1) rest
    | none => false
  | _ => false

end Flowchart.Xml
