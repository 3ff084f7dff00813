/-!
The arguments of the command line. They are read from left to right, and the first that cannot be
read decides the complaint.
-/
namespace Flowchart.CommandLine

inductive Format where
  | svg
  | png
  | json
  deriving DecidableEq, Repr

def Format.all : List Format := [.svg, .png, .json]

def Format.name : Format → String
  | .svg => "svg"
  | .png => "png"
  | .json => "json"

def Format.ofName? (name : String) : Option Format := Format.all.find? (·.name == name)

structure Options where
  /-- The file to read; without it, standard input. -/
  input : Option String := none
  /-- The file to write; without it, standard output. -/
  output : Option String := none
  format : Option Format := none
  theme : Option String := none
  grammar : Bool := false
  deriving DecidableEq, Repr

inductive Request where
  | help
  | run (options : Options)
  deriving DecidableEq, Repr

inductive Flag where
  | output
  | format
  | theme
  | grammar
  | help
  deriving DecidableEq, Repr

namespace Flag

def all : List Flag := [.output, .format, .theme, .grammar, .help]

def longName : Flag → String
  | output => "output"
  | format => "format"
  | theme => "theme"
  | grammar => "grammar"
  | help => "help"

def shortName : Flag → Char
  | output => 'o'
  | format => 'f'
  | theme => 't'
  | grammar => 'g'
  | help => 'h'

def ofLong? (name : String) : Option Flag := all.find? (·.longName == name)

def ofShort? (c : Char) : Option Flag := all.find? (·.shortName == c)

def takesValue : Flag → Bool
  | output | format | theme => true
  | grammar | help => false

def shown (flag : Flag) : String :=
  "--" ++ flag.longName ++
    if flag.takesValue then " <" ++ String.ofList (flag.longName.toList.map Char.toUpper) ++ ">"
    else ""

end Flag

inductive ArgumentError where
  | unexpected (argument : String)
  | missingValue (flag : Flag)
  | unwantedValue (flag : Flag) (value : String)
  | repeated (flag : Flag)
  | unknownFormat (value : String)
  | emptyInput
  deriving DecidableEq, Repr

def ArgumentError.message : ArgumentError → String
  | unexpected argument => "unexpected argument '" ++ argument ++ "' found"
  | missingValue flag =>
    "a value is required for '" ++ flag.shown ++ "' but none was supplied"
  | unwantedValue flag value =>
    "unexpected value '" ++ value ++ "' for '" ++ flag.shown ++ "' found; no more were expected"
  | repeated flag => "the argument '" ++ flag.shown ++ "' cannot be used multiple times"
  | unknownFormat value =>
    "invalid value '" ++ value ++ "' for '" ++ Flag.format.shown ++ "'\n  [possible values: "
      ++ String.intercalate ", " (Format.all.map Format.name) ++ "]"
  | emptyInput => "a value is required for '[INPUT]' but none was supplied"

namespace Options

def path (flag : Flag) (known : Option String) (value : String) :
    Except ArgumentError (Option String) :=
  if known.isSome then .error (.repeated flag)
  else if value.isEmpty then .error (.missingValue flag)
  else .ok (some value)

def setValue (o : Options) (flag : Flag) (value : String) : Except ArgumentError Options :=
  match flag with
  | .output => (path .output o.output value).map fun output => { o with output }
  | .theme => (path .theme o.theme value).map fun theme => { o with theme }
  | .format =>
    if o.format.isSome then .error (.repeated .format)
    else match Format.ofName? value with
      | some format => .ok { o with format := some format }
      | none => .error (.unknownFormat value)
  | .grammar | .help => .error (.unwantedValue flag value)

/-- The file to read may be named once. -/
def setInput (o : Options) (value : String) : Except ArgumentError Options :=
  if o.input.isSome then .error (.unexpected value)
  else if value.isEmpty then .error .emptyInput
  else .ok { o with input := some value }

end Options

inductive Progress where
  | done (options : Options)
  | pending (flag : Flag) (options : Options)
  | help
  deriving DecidableEq, Repr

def Options.setFlag (o : Options) : Flag → Except ArgumentError Progress
  | .help => .ok .help
  | .grammar =>
    if o.grammar then .error (.repeated .grammar) else .ok (.done { o with grammar := true })
  | flag => .ok (.pending flag o)

/-- Short flags behind one dash. What follows a flag with a value is its value, less an equals sign
at its start. -/
def readShort : List Char → Options → Except ArgumentError Progress
  | [], o => .ok (.done o)
  | c :: cs, o =>
    match Flag.ofShort? c with
    | none => .error (.unexpected (String.ofList ['-', c]))
    | some flag =>
      match o.setFlag flag with
      | .ok (.done o) => readShort cs o
      | .ok (.pending flag o) =>
        match cs with
        | [] => .ok (.pending flag o)
        | '=' :: value => (o.setValue flag (String.ofList value)).map .done
        | value => (o.setValue flag (String.ofList value)).map .done
      | other => other

def readLong (text : List Char) (o : Options) : Except ArgumentError Progress :=
  let name := text.takeWhile (· != '=')
  match Flag.ofLong? (String.ofList name), text.dropWhile (· != '=') with
  | none, _ => .error (.unexpected ("--" ++ String.ofList name))
  | some flag, [] => o.setFlag flag
  | some flag, _ :: value => (o.setValue flag (String.ofList value)).map .done

def readArgument (argument : String) (o : Options) : Except ArgumentError Progress :=
  match argument.toList with
  | '-' :: '-' :: text => readLong text o
  | ['-'] => (o.setInput argument).map .done
  | '-' :: text => readShort text o
  | _ => (o.setInput argument).map .done

/-- Whether an argument begins like a flag. A dash alone is a name. -/
def isFlagLike (argument : String) : Bool :=
  argument != "-" && argument.startsWith "-"

/-- Read all arguments. Behind two dashes there are no flags. -/
def readArguments : List String → Options → Except ArgumentError Request
  | [], o => .ok (.run o)
  | "--" :: inputs, o => (inputs.foldlM Options.setInput o).map .run
  | argument :: more, o =>
    match readArgument argument o with
    | .error e => .error e
    | .ok .help => .ok .help
    | .ok (.done o) => readArguments more o
    | .ok (.pending flag o) =>
      match more with
      | value :: more =>
        if isFlagLike value then .error (.missingValue flag)
        else match o.setValue flag value with
          | .ok o => readArguments more o
          | .error e => .error e
      | [] => .error (.missingValue flag)

def Request.ofArguments (arguments : List String) : Except ArgumentError Request :=
  readArguments arguments {}

end Flowchart.CommandLine
