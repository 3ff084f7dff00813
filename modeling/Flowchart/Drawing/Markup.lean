import Flowchart.Text.Escape
/-! Markup as a list of lines, each made of tags and texts. -/
namespace Flowchart.Drawing

/-- An attribute with the text between its quotes, as it is written. -/
structure Attribute where
  name : String
  value : String
  deriving DecidableEq, Repr

/-- An attribute whose value may hold any characters. -/
def Attribute.ofText (name text : String) : Attribute := ⟨name, Text.escaped text⟩

def Attribute.write (a : Attribute) : String := " " ++ a.name ++ "=\"" ++ a.value ++ "\""

inductive Piece where
  | declaration
  /-- A start tag. `more` is written behind the attributes as it is. -/
  | opening (name : String) (attributes : List Attribute) (more : String)
  | closing (name : String)
  | empty (name : String) (attributes : List Attribute)
  | characters (text : String)
  deriving DecidableEq, Repr

namespace Piece

def writeAttributes (attributes : List Attribute) : String :=
  String.join (attributes.map Attribute.write)

def write : Piece → String
  | .declaration => "<?xml version=\"1.0\" encoding=\"UTF-8\"?>"
  | .opening name attributes more => "<" ++ name ++ writeAttributes attributes ++ more ++ ">"
  | .closing name => "</" ++ name ++ ">"
  | .empty name attributes => "<" ++ name ++ writeAttributes attributes ++ "/>"
  | .characters text => text

end Piece

def textElement (name : String) (attributes : List Attribute) (text : String) : List Piece :=
  [.opening name attributes "", .characters (Text.escaped text), .closing name]

structure Line where
  margin : String
  pieces : List Piece
  deriving DecidableEq, Repr

def Line.write (l : Line) : String := l.margin ++ String.join (l.pieces.map Piece.write)

/-- Join lines, with a line break between two or with nothing. -/
def writeLines (pretty : Bool) (ls : List Line) : String :=
  String.intercalate (if pretty then "\n" else "") (ls.map Line.write)

end Flowchart.Drawing
