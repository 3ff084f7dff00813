/-! Blocks of a chart: their kinds, the labels of composite blocks and the colors of a drawing. -/
namespace Flowchart

inductive BlockKind where
  | terminatorStart
  | terminatorEnd
  | terminator
  | process
  | decision
  | io
  | connector
  | subBlock
  deriving DecidableEq, Repr, Inhabited

namespace BlockKind

def all : List BlockKind :=
  [.terminatorStart, .terminatorEnd, .terminator, .process, .decision, .io, .connector, .subBlock]

def name : BlockKind → String
  | .terminatorStart => "terminator_start"
  | .terminatorEnd => "terminator_end"
  | .terminator => "terminator"
  | .process => "process"
  | .decision => "decision"
  | .io => "io"
  | .connector => "connector"
  | .subBlock => "sub_block"

def ofName? (name : String) : Option BlockKind := all.find? fun kind => kind.name == name

/-- Can a new label be written back into the notation of the block? -/
def hasEditableText : BlockKind → Bool
  | .terminator | .process | .decision | .io => true
  | .terminatorStart | .terminatorEnd | .connector | .subBlock => false

def wrapsText : BlockKind → Bool
  | .terminator | .process | .decision | .io => true
  | .terminatorStart | .terminatorEnd | .connector | .subBlock => false

theorem mem_all (kind : BlockKind) : kind ∈ all := by cases kind <;> decide

theorem ofName?_name (kind : BlockKind) : ofName? kind.name = some kind := by cases kind <;> rfl

end BlockKind

inductive Field where
  | topMiddle
  | bottomMiddle
  | topLeft
  | topRight
  | bottomLeft
  | bottomRight
  deriving DecidableEq, Repr

namespace Field

def all : List Field := [.topMiddle, .bottomMiddle, .topLeft, .topRight, .bottomLeft, .bottomRight]

def tag : Field → String
  | .topMiddle => "tm"
  | .bottomMiddle => "bm"
  | .topLeft => "tl"
  | .topRight => "tr"
  | .bottomLeft => "bl"
  | .bottomRight => "br"

def name : Field → String
  | .topMiddle => "top_middle"
  | .bottomMiddle => "bottom_middle"
  | .topLeft => "top_left"
  | .topRight => "top_right"
  | .bottomLeft => "bottom_left"
  | .bottomRight => "bottom_right"

def ofTag? (tag : String) : Option Field := all.find? fun field => field.tag == tag

def ofName? (name : String) : Option Field := all.find? fun field => field.name == name

theorem ofTag?_tag (field : Field) : ofTag? field.tag = some field := by cases field <;> rfl

end Field

/-- The labels of a composite block, at most one for each position. -/
structure Labels where
  topMiddle : Option String := none
  bottomMiddle : Option String := none
  topLeft : Option String := none
  topRight : Option String := none
  bottomLeft : Option String := none
  bottomRight : Option String := none
  deriving DecidableEq, Repr

namespace Labels

def get? (labels : Labels) : Field → Option String
  | .topMiddle => labels.topMiddle
  | .bottomMiddle => labels.bottomMiddle
  | .topLeft => labels.topLeft
  | .topRight => labels.topRight
  | .bottomLeft => labels.bottomLeft
  | .bottomRight => labels.bottomRight

def set (labels : Labels) (field : Field) (text : String) : Labels :=
  match field with
  | .topMiddle => { labels with topMiddle := some text }
  | .bottomMiddle => { labels with bottomMiddle := some text }
  | .topLeft => { labels with topLeft := some text }
  | .topRight => { labels with topRight := some text }
  | .bottomLeft => { labels with bottomLeft := some text }
  | .bottomRight => { labels with bottomRight := some text }

def toList (labels : Labels) : List (Field × String) :=
  Field.all.filterMap fun field => (labels.get? field).map (field, ·)

def isEmpty (labels : Labels) : Bool := labels.toList.isEmpty

theorem get?_set (labels : Labels) (field other : Field) (text : String) :
    (labels.set field text).get? other =
      if other = field then some text else labels.get? other := by
  cases field <;> cases other <;> rfl

end Labels

structure Palette where
  background : String
  border : String
  text : String
  glow : String
  deriving DecidableEq, Repr

/-- A declared block. `token` is the text that declares it. -/
structure Block where
  kind : BlockKind
  text : String
  token : String
  labels : Option Labels := none
  deriving DecidableEq, Repr

end Flowchart
