import ScriptService.Files.Tree
import ScriptService.Text.Lines
import ScriptService.Value.Basic
import ScriptService.Value.ReadError

/-!
# What a program finds around it

The files, the standard input and the programs that can be started are those of the system; how values
are written in files of some format is told by what reads and writes that format.
-/

namespace ScriptService

/-- The text of some bytes that are read as text, with line ends unified. -/
def decodeText? (bytes : List UInt8) : Option String :=
  (Text.decodeUtf8? bytes).map fun cs => String.ofList (Text.unifyNewlines cs)

/-- A format of files that hold a value: how one is read and how one is written. -/
structure ValueFormat where
  read : List UInt8 → Except ReadError Value
  write : Value → String

/-- What a process that was started has printed and how it ended. -/
structure ProcessEnd where
  stdout : List UInt8 := []
  stderr : List UInt8 := []
  status : Int := 0
  /-- Whether its time ran out and it was stopped. -/
  timedOut : Bool := false

/-- Starts a program with some arguments in a directory and waits for its end, for a number of seconds
at most. There is no end if it cannot be started; else the files are those that it leaves. -/
abbrev Launcher := Files → Path → String → List String → Option Float → Option (ProcessEnd × Files)

/-- What a program finds around it. -/
structure Environment where
  files : Files
  home : Path
  /-- The configuration file that the environment names; an empty name counts for none. -/
  configFile : String
  /-- What is left of the standard input. -/
  input : List UInt8 := []
  /-- How YAML files are read and written. -/
  yaml : ValueFormat
  /-- How other programs are started; there may be none. -/
  launch : Launcher := fun _ _ _ _ _ => none
  /-- How many values inside one another can be written in a message. -/
  room : Nat

end ScriptService
