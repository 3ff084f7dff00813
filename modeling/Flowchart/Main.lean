import Flowchart.CommandLine.Program
/-!
The program on a real machine. It hands texts to files and streams; there is nothing here that
paints pixels, so the writing of an image fails.
-/
namespace Flowchart.CommandLine

/-- The cause with a number. A number may come with its sign turned, in the upper half of a word. -/
def FileError.ofCode (code : UInt32) (reason : String) : FileError :=
  match (if code.toNat < Nat.pow 2 31 then code else -code).toNat with
  | 2 => missing
  | 13 => denied
  | 20 => notFolder
  | 21 => isFolder
  | 36 => nameTooLong
  | number => .system reason number

def FileError.ofError : IO.Error → FileError
  | .alreadyExists _ code reason | .interrupted _ code reason | .noFileOrDirectory _ code reason
  | .invalidArgument _ code reason | .permissionDenied _ code reason
  | .resourceExhausted _ code reason | .inappropriateType _ code reason
  | .noSuchThing _ code reason | .otherError code reason | .resourceBusy code reason
  | .resourceVanished code reason | .unsupportedOperation code reason | .hardwareFault code reason
  | .unsatisfiedConstraints code reason | .illegalOperation code reason | .protocolError code reason
  | .timeExpired code reason => ofCode code reason
  | .unexpectedEof => .system "unexpected end of file" 0
  | .userError reason => .system reason 0

def attempt {β : Type} (act : IO β) : IO (Except FileError β) := do
  try return .ok (← act)
  catch e => return .error (.ofError e)

def readBytes : Option String → IO ByteArray
  | some path => IO.FS.readBinFile path
  | none => do (← IO.getStdin).readBinToEnd

def readText (path : Option String) : IO (Except FileError String) := do
  match ← attempt (readBytes path) with
  | .error e => return .error e
  | .ok bytes =>
    match String.fromUTF8? bytes with
    | some text => return .ok text
    | none => return .error .notText

def writeContent (path : Option String) : Content → IO Unit
  | .text text =>
    match path with
    | some path => IO.FS.writeFile path text
    | none => do
      let out ← IO.getStdout
      out.putStr text
      out.flush
  | .image _ _ => throw (.unsupportedOperation 95 "Operation not supported")

def Program.run : Program → IO UInt32
  | read path next => do (next (← readText path)).run
  | write path content next => do (next (← attempt (writeContent path content))).run
  | tell text next => do
    IO.eprint text
    next.run
  | exit code => return code

end Flowchart.CommandLine

open Flowchart.CommandLine

def main (arguments : List String) : IO UInt32 := do
  let terminals : Terminals :=
    { input := ← (← IO.getStdin).isTty, errors := ← (← IO.getStderr).isTty }
  (Program.ofArguments .listed terminals arguments).run
