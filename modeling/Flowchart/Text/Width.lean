import Flowchart.Text.Table
/-! Display width: how many columns a text takes. Most characters count on their own. Pictures,
selectors, flags and joined letters depend on what stands behind them, so a text is read from its
end, and each character is told what begins there. -/
namespace Flowchart.Text

/-- What the text behind a character begins with, as far as the character can depend on it. -/
inductive Follower where
  | plain
  | lineFeed
  | picture
  | skinTone
  | flagLetter
  | flagLetters
  | joined
  /-- A keycap or a flag in front of a joiner and a picture; a run of flag letters there. -/
  | joinedKeycap
  | joinedFlag (even : Bool)
  | joinedFlagLetter
  /-- The end of a tagged flag and `letters` of its letters, in front of a joiner and a picture. -/
  | joinedTags (letters : Nat)
  /-- As many digits of a tagged flag, in front of its letters. -/
  | joinedDigits (digits : Nat)
  | alef
  | lamed
  | coengLetter
  | ya
  | vowelYa
  | tifinagh
  | tifinaghPair
  | lisuTone
  | orkhonI
  | kiratE
  | kiratAi
  deriving DecidableEq

/-- A variation selector in front of the follower: it asks for a letter, for a picture or for a wide
quotation mark. -/
inductive Selector where
  | none
  | letter
  | picture
  | quote
  deriving DecidableEq

structure Context where
  follower : Follower := .plain
  joiner : Bool := false
  selector : Selector := .none
  deriving DecidableEq

namespace Follower

/-- Letters that combine with the letter in front of them, also across marks. -/
def isLetter : Follower → Bool
  | .alef | .lamed | .coengLetter | .ya | .vowelYa | .tifinagh | .tifinaghPair | .lisuTone
  | .orkhonI => true
  | _ => false

/-- Pictures that are joined to the one in front of them, also when it is asked to be a picture. -/
def isJoined : Follower → Bool
  | .joined | .joinedKeycap => true
  | _ => false

end Follower

/-- Put a selector in front; it hides all but joined pictures and combining letters. -/
def Context.select (x : Context) (selector : Selector) : Context :=
  if x.follower.isLetter || (selector == .picture && x.follower.isJoined) then
    { x with selector }
  else { selector }

/-- What is left of a selector that the character in front does not heed: only combining letters are
seen behind it. -/
def Context.unselect (x : Context) : Context :=
  if x.selector == .none then x
  else if x.follower.isLetter then { x with selector := .none }
  else {}

def between (c : Char) (first last : Nat) : Bool := first ≤ c.toNat && c.toNat ≤ last

def isFlagLetter (c : Char) : Bool := between c 0x1F1E6 0x1F1FF

def isSkinTone (c : Char) : Bool := between c 0x1F3FB 0x1F3FF

def isTagDigit (c : Char) : Bool := between c 0xE0030 0xE0039

def isTagLetter (c : Char) : Bool := between c 0xE0061 0xE007A

def isQuote (c : Char) : Bool := between c 0x2018 0x2019 || between c 0x201C 0x201D

def isTifinaghLetter (c : Char) : Bool := between c 0x2D31 0x2D65 || c.toNat == 0x2D6F

def isAlef (c : Char) : Bool :=
  [0x622, 0x623, 0x625, 0x627, 0x671, 0x672, 0x673, 0x675, 0x773, 0x774].contains c.toNat ||
    between c 0x870 0x882

def isLam (c : Char) : Bool :=
  c.toNat == 0x644 || between c 0x6B5 0x6B8 || [0x76A, 0x8A6, 0x8C7].contains c.toNat

def isCoengLetter (c : Char) : Bool :=
  between c 0x1780 0x1782 || between c 0x1784 0x1787 || between c 0x1789 0x178C ||
    between c 0x178E 0x1793 || between c 0x1795 0x1798 || between c 0x179B 0x179D ||
    [0x17A0, 0x17A2, 0x17A7, 0x17AB, 0x17AC, 0x17AF].contains c.toNat

/-- Ignorable marks that letters combine across. -/
def isIgnoredMark (c : Char) : Bool :=
  c.toNat == 0x34F || between c 0x17B4 0x17B5 || between c 0x180B 0x180D || c.toNat == 0x180F ||
    between c 0xFE00 0xFE0F || between c 0xE0100 0xE01EF

def isPicture (c : Char) : Bool := Table.covers Table.pictures c.toNat

/-- Width of a character on its own, and what it is to the character in front of it. -/
def alone (c : Char) : Nat × Follower :=
  let n := c.toNat
  if n < 0xA1 then (1, if c = '\n' then .lineFeed else .plain)
  else if isFlagLetter c then (1, .flagLetter)
  else if isSkinTone c then (2, .skinTone)
  else if isPicture c then (2, .picture)
  else if isAlef c then (1, .alef)
  else if isCoengLetter c then (1, .coengLetter)
  else if isTifinaghLetter c then (1, .tifinagh)
  else if n == 0x5DC then (1, .lamed)
  else if n == 0x1A10 then (1, .ya)
  else if between c 0xA4FC 0xA4FD then (1, .lisuTone)
  else if n == 0x10C03 then (1, .orkhonI)
  else if n == 0x16D67 then (1, .kiratE)
  else if n == 0x16D68 then (1, .kiratAi)
  else if n == 0x17D8 then (3, .plain)
  else if Table.covers Table.invisible n then (0, .plain)
  else if Table.covers Table.wide n then (2, .plain)
  else (1, .plain)

/-- A letter or picture and what it combines with: the columns it adds and its own role. -/
def combined? (c : Char) (x : Context) : Option (Int × Follower) :=
  let n := c.toNat
  match x.follower with
  | .alef =>
    if isLam c then some (0, .plain)
    else if Table.covers Table.transparent n then some (0, .alef)
    else none
  | .lamed => if x.joiner && n == 0x5D0 then some (0, .plain) else none
  | .coengLetter => if n == 0x17D2 then some (-1, .plain) else none
  | .ya => if x.joiner && n == 0x1A17 then some (0, .vowelYa) else none
  | .vowelYa => if n == 0x1A15 then some (0, .plain) else none
  | .tifinagh =>
    if n == 0x2D7F then some (1, .tifinaghPair)
    else if x.joiner && isTifinaghLetter c then some (0, .plain)
    else none
  | .tifinaghPair => if isTifinaghLetter c then some (-1, .plain) else none
  | .lisuTone => if between c 0xA4F8 0xA4FB then some (0, .plain) else none
  | .orkhonI => if x.joiner && n == 0x10C32 then some (0, .plain) else none
  | .kiratE =>
    if n == 0x16D63 then some (0, .plain)
    else if n == 0x16D67 then some (0, .kiratAi)
    else if n == 0x16D68 then some (1, .kiratE)
    else if n == 0x16D69 then some (0, .plain)
    else none
  | .kiratAi => if n == 0x16D63 then some (0, .plain) else none
  | .skinTone =>
    if Table.covers Table.takesSkinTone n then some (0, .picture)
    else if n == 0x200D then some (0, .joined)
    else none
  | .flagLetter => if isFlagLetter c then some (1, .flagLetters) else none
  | .flagLetters =>
    if isFlagLetter c then some (1, .flagLetters)
    else if n == 0x200D then some (0, .joined)
    else none
  | .picture => if n == 0x200D then some (0, .joined) else none
  | .joined =>
    if n == 0x20E3 then some (0, .joinedKeycap)
    else if isFlagLetter c then some (1, .joinedFlagLetter)
    else if isSkinTone c then some (0, .skinTone)
    else if n == 0xE007F then some (0, .joinedTags 0)
    else if isPicture c then some (0, .picture)
    else none
  | .joinedFlagLetter => if isFlagLetter c then some (-1, .joinedFlag true) else none
  | .joinedFlag even =>
    if isFlagLetter c then some (if even then 3 else -1, .joinedFlag !even)
    else if n == 0x200D then some (0, .joined)
    else none
  | .joinedTags letters =>
    if isTagLetter c && letters < 6 then some (0, .joinedTags (letters + 1))
    else if isTagDigit c && letters < 5 then some (0, .joinedDigits 1)
    else if n == 0x1F3F4 && 3 ≤ letters then some (0, .picture)
    else none
  | .joinedDigits digits =>
    if isTagDigit c && digits < 3 then some (0, .joinedDigits (digits + 1))
    else if n == 0x1F3F4 && digits = 3 then some (0, .picture)
    else none
  | .plain | .lineFeed | .joinedKeycap => none

def extendPlain (c : Char) (x : Context) : Int × Context :=
  let n := c.toNat
  if c = '\r' && x.follower == .lineFeed then (0, {})
  else if n < 0xA1 then (1, { follower := (alone c).2 })
  else if n == 0xFE0F then (0, x.select .picture)
  else if n == 0xFE0E then (0, x.select .letter)
  else if n == 0xFE01 then (0, x.select .quote)
  else if x.selector == .letter && Table.covers Table.letterOnRequest n then (1, {})
  else if x.selector == .quote && isQuote c then (2, {})
  else
    let x := x.unselect
    if x.follower.isLetter && x.follower != .alef && n == 0x200D then (0, { x with joiner := true })
    else if x.follower.isLetter && x.follower != .alef && isIgnoredMark c then (0, x)
    else match combined? c x with
      | some (columns, follower) => (columns, { follower })
      | none => let (columns, follower) := alone c; (columns, { follower })

/-- The columns that `c` adds in front of a text, and its context for the next character. -/
def extend (c : Char) (x : Context) : Int × Context :=
  if x.selector == .picture then
    if Table.covers Table.pictureOnRequest c.toNat then
      (if x.follower.isJoined then 0 else 2, { follower := .picture })
    else extendPlain c x.unselect
  else extendPlain c x

def measure (cs : List Char) : Int × Context :=
  cs.foldr (fun c (sum, x) => let (columns, x) := extend c x; (sum + columns, x)) (0, {})

def columns (cs : List Char) : Nat := (measure cs).1.toNat

end Flowchart.Text
