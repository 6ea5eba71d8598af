import ScriptService.Environment
import ScriptService.Failure
import ScriptService.Language

/-!
# Compiler commands

The command line that compiles a file, run in the file's directory. Settings hold command lines, which
are cut into words; the file's name is one word, whatever it holds.
-/

namespace ScriptService

/-- A command line and the directory to run it in. The words come from settings, so one of them may
be something else than a text. -/
structure Command where
  args : List Value
  cwd : Path

/-- A compiler's run: what it printed and how it ended. -/
structure RunOutput where
  stdout : String := ""
  stderr : String := ""
  status : Int := 0
  timedOut : Bool := false
deriving DecidableEq

/-- A process's run: what it printed, as text. -/
def RunOutput.ofEnd (e : ProcessEnd) : RunOutput where
  stdout := String.ofList (Text.decodeUtf8Lossy e.stdout)
  stderr := String.ofList (Text.decodeUtf8Lossy e.stderr)
  status := e.status
  timedOut := e.timedOut

/-- Whether a compiler was content. -/
def RunOutput.ok (o : RunOutput) : Bool :=
  o.status = 0 && !o.timedOut

namespace Command

/-- The words of a setting that holds a command line. Without one they are those of what is left of the
standard input, which is then read to its end. -/
def words (input : List UInt8) : Value → Except Failure (List Value)
  | .text s => asFailure .words ((Words.split s).map (·.map Value.text))
  | .null =>
    match decodeText? input with
    | some s => asFailure .words ((Words.split s).map (·.map Value.text))
    | none => .error .undecodable
  | _ => .error .notCommandLine

/-- What is left of the standard input once the words of a setting are taken. -/
def inputAfter (input : List UInt8) : Value → List UInt8
  | .null => []
  | _ => input

/-- The path that a setting holds. -/
def path : Value → Except Failure Path
  | .text s => .ok (Path.ofString s)
  | _ => .error .notText

/-- The command that compiles a Fallout script into the output directory. -/
def fallout (input : List UInt8) (file : Path) (s : FalloutSettings) : Except Failure Command := do
  let dir ← path s.outputDirectory
  let destination := dir.join (Path.ofString (file.stem ++ ".int"))
  let program ← words input s.compilePath
  let options ← words (inputAfter input s.compilePath) s.compileOptions
  .ok ⟨program ++ options ++ [.text file.name, .text "-o", .text destination.text], file.parent⟩

/-- The command that has WeiDU check a file, if it checks such files. -/
def weidu (input : List UInt8) (file : Path) (s : WeiduSettings) : Except Failure (Option Command) :=
  match ParseKind.of? file with
  | none => .ok none
  | some kind => do
    let program ← words input s.path
    let game := if s.gamePath.isGiven then [.text "--game", s.gamePath] else []
    .ok (some ⟨program ++ [.text "--no-exit-pause", .text "--noautoupdate", .text "--debug-assign"] ++
      game ++ [.text "--parse-check", .text kind.text, .text file.name], file.parent⟩)

/-- The words of a command, all of which must be texts. -/
def texts (c : Command) : Except Failure (List String) :=
  c.args.mapM fun
    | .text s => .ok s
    | _ => .error .notText

/-- The program of a command and its arguments, which all a process takes. -/
def processWords (c : Command) : Except Failure (String × List String) := do
  match ← c.texts with
  | [] => .error .emptyCommand
  | program :: args =>
    if (c.cwd.text :: program :: args).any (·.toList.contains '\x00') then .error (.file .nulInPath)
    else .ok (program, args)

/-- A command as one line. -/
def line (c : Command) : Except Failure String := do
  let ws ← c.texts
  .ok (" ".intercalate (ws.map Words.quote))

end Command

end ScriptService
