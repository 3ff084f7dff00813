import Flowchart.CommandLine.Program
/-!
A folder of files in memory, and what a program does when it runs there.
-/
namespace Flowchart.CommandLine

abbrev Steps := List String

/-- Files by the names that lead to them. A folder is there as soon as a file is in it. -/
structure Folder where
  files : List (Steps × Content) := []
  deriving DecidableEq, Repr

namespace Folder

def isFile (folder : Folder) (place : Steps) : Bool := folder.files.any (·.1 == place)

def isFolder (folder : Folder) (place : Steps) : Bool :=
  place.isEmpty || folder.files.any fun (steps, _) => place.isPrefixOf steps && place != steps

/-- No name is longer, in bytes. -/
def maxName : Nat := 255

/-- No path is as long, in bytes. -/
def pathLimit : Nat := 4096

/-- Follow names from a place on. Only the last of them may name what is not there, and there is
no way out of the folder. -/
def walk (folder : Folder) (place : Steps) : Steps → Except FileError Steps
  | [] => .ok place
  | name :: names =>
    if folder.isFile place then .error .notFolder
    else if !folder.isFolder place then .error .missing
    else if maxName < name.utf8ByteSize then .error .nameTooLong
    else if name = "" || name = "." then folder.walk place names
    else if name = ".." then folder.walk place.dropLast names
    else folder.walk (place ++ [name]) names

/-- The place that names lead to. A path that begins with a slash lies outside. -/
def follow (folder : Folder) : Steps → Except FileError Steps
  | "" :: _ => .error .missing
  | names => folder.walk [] names

def resolve (folder : Folder) (path : String) (part : Steps → Steps) : Except FileError Steps :=
  if pathLimit ≤ path.utf8ByteSize then .error .nameTooLong
  else folder.follow (part (path.splitOn "/"))

def read (folder : Folder) (path : String) : Except FileError String :=
  match folder.resolve path id with
  | .error e => .error e
  | .ok place =>
    match folder.files.lookup place with
    | some (.text text) => .ok text
    | some (.image _ _) => .error .notText
    | none => .error (if folder.isFolder place then .isFolder else .missing)

/-- Write a file, in place of the one that was there. A path that ends with a slash can only be that
of a folder. -/
def write (folder : Folder) (path : String) (content : Content) : Except FileError Folder :=
  match folder.resolve path fun names => (names.reverse.dropWhile (·.isEmpty)).reverse with
  | .error e => .error e
  | .ok place =>
    if folder.isFolder place || path.endsWith "/" then .error .isFolder
    else .ok ⟨(place, content) :: folder.files.filter (·.1 != place)⟩

def ofFiles (files : List (String × String)) : Folder :=
  ⟨files.map fun (path, text) => (path.splitOn "/", .text text)⟩

end Folder

structure Ending where
  code : UInt32
  output : List Content
  errors : String
  folder : Folder
  deriving DecidableEq, Repr

def Program.runIn (input : Except FileError String) : Program → Folder → Ending
  | read none next, folder => (next input).runIn input folder
  | read (some path) next, folder => (next (folder.read path)).runIn input folder
  | write none content next, folder =>
    let ending := (next (.ok ())).runIn input folder
    { ending with output := content :: ending.output }
  | write (some path) content next, folder =>
    match folder.write path content with
    | .ok changed => (next (.ok ())).runIn input changed
    | .error e => (next (.error e)).runIn input folder
  | tell text next, folder =>
    let ending := next.runIn input folder
    { ending with errors := text ++ ending.errors }
  | exit code, folder => ⟨code, [], "", folder⟩

end Flowchart.CommandLine
