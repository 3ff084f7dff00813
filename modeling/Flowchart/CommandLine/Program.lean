import Flowchart.CommandLine.Arguments
import Flowchart.CommandLine.Guide
import Flowchart.Json.Diagram
import Flowchart.Json.Writer
import Flowchart.Raster
import Flowchart.Report
import Flowchart.Theme.Reader
/-!
The command line as a tree of requests to its surroundings. A theme is read before the script, and
nothing is written before the whole picture is known.
-/
namespace Flowchart.CommandLine

inductive FileError where
  | system (reason : String) (code : Nat)
  /-- The bytes are not the UTF-8 form of a text. -/
  | notText
  deriving DecidableEq, Repr

def FileError.message : FileError → String
  | system reason code => reason ++ " (os error " ++ toString code ++ ")"
  | notText => "stream did not contain valid UTF-8"

namespace FileError

def missing : FileError := system "No such file or directory" 2
def denied : FileError := system "Permission denied" 13
def notFolder : FileError := system "Not a directory" 20
def isFolder : FileError := system "Is a directory" 21
def nameTooLong : FileError := system "File name too long" 36

end FileError

inductive Content where
  | text (text : String)
  | image (size : PixelSize) (drawing : String)
  deriving DecidableEq, Repr

/-- A program asks for one thing at a time and goes on with the answer. Without a path it reads
standard input and writes standard output. -/
inductive Program where
  | read (path : Option String) (next : Except FileError String → Program)
  | write (path : Option String) (content : Content) (next : Except FileError Unit → Program)
  | tell (text : String) (next : Program)
  | exit (code : UInt32)

structure Terminals where
  input : Bool := false
  errors : Bool := false
  deriving DecidableEq, Repr

namespace Program

def fail (code : UInt32) (message : String) : Program := tell (message ++ "\n") (exit code)

def finish (path : Option String) (content : Content) : Program :=
  write path content fun
    | .ok () => exit 0
    | .error e => fail 1 ("Error writing output: " ++ e.message)

def tellAll : List String → Program → Program
  | [], next => next
  | text :: more, next => tell text (tellAll more next)

def withTheme (order : Theme.VisitOrder) (path : Option String) (next : Theme → Program) :
    Program :=
  match path with
  | none => next .standard
  | some path =>
    let fault (message : String) := fail 1 ("Error loading theme '" ++ path ++ "': " ++ message)
    read (some path) fun
      | .error e => fault ("Failed to read theme file: " ++ e.message)
      | .ok text =>
        match Theme.ofText order text with
        | .ok theme => next theme
        | .error e => fault e.message

def withScript (path : Option String) (next : String → String → Program) : Program :=
  match path with
  | none => read none fun
    | .ok source => next "<stdin>" source
    | .error e => fail 1 ("Error reading from stdin: " ++ e.message)
  | some path => read (some path) fun
    | .ok source => next path source
    | .error e => fail 1 ("Error reading file '" ++ path ++ "': " ++ e.message)

/-- A text ends its last line on standard output; in a file it stands as it is. -/
def closed (path : Option String) (text : String) : Content :=
  .text (if path.isNone && !text.endsWith "\n" then text ++ "\n" else text)

def pixelRatio : Float32 := 2

def output (o : Options) (settings : Settings Float) (scene : Scene Float) : Program :=
  match o.format.getD .svg with
  | .svg => finish o.output (closed o.output (Picture.document settings scene))
  | .json => finish o.output (closed o.output (Json.writeDiagram scene.diagram))
  | .png =>
    match Raster.sceneSize pixelRatio settings scene with
    | .ok size => finish o.output (.image size (Picture.document settings scene))
    | .error e => fail 1 ("Error: " ++ e.message)

/-- Draw a script; what is wrong with it is told before the picture is written. -/
def draw (order : Theme.VisitOrder) (terminals : Terminals) (o : Options) : Program :=
  withTheme order o.theme fun theme =>
    withScript o.input fun name source =>
      let settings : Settings Float := { Settings.standard with theme }
      match Picture.scene settings.layout source with
      | .ok (scene, diagnostics) =>
        tellAll (diagnostics.map (Report.text terminals.errors name source))
          (output o settings scene)
      | .error .empty =>
        fail 2 "Nothing to draw: the input declares no blocks. Run --grammar for the notation."
      | .error e => fail 1 ("Error: " ++ e.message)

def ofRequest (order : Theme.VisitOrder) (terminals : Terminals) : Request → Program
  | .help => finish none (.text help)
  | .run o =>
    if o.grammar then finish none (.text grammar)
    else if o.input.isNone && terminals.input then finish none (.text introduction)
    else draw order terminals o

def ofArguments (order : Theme.VisitOrder) (terminals : Terminals) (arguments : List String) :
    Program :=
  match Request.ofArguments arguments with
  | .ok request => ofRequest order terminals request
  | .error e =>
    fail 2 ("error: " ++ e.message ++ "\n\n" ++ usage ++ "\nFor more information, try '--help'.")

end Program
end Flowchart.CommandLine
