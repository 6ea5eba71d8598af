import ScriptService.CommandLine.Program
import ScriptService.Shell.Launch
import ScriptService.Yaml.Format

/-!
# The command line

Reads the files that the arguments name and those that may hold the configuration, runs the program on
them, prints what it prints and saves the files that it changed. A directory is known to be one, but
its entries are not listed, so the headers of a workspace are those among the files that were read. Of
compilers only the shell's own programs can be started.
-/

namespace ScriptService.CommandLine

/-- What the system has at a path. -/
def nodeAt (p : Path) : IO (Option Node) := do
  match ← (IO.FS.readBinFile p.text).toBaseIO with
  | .ok bytes => return some (.file bytes.toList)
  | .error (.inappropriateType ..) => return some (.directory [])
  | .error _ => return none

/-- The files with what the system has at a path, unless something is known of it. -/
def addPath (files : Files) (p : Path) : IO Files := do
  if (files.stat p).toBool then return files
  else match ← nodeAt p with
    | some n => return files.put p n
    | none => return files

/-- How many calls inside one another there is room for. -/
def room : Nat := 900

/-- The directory that the system is in and the user's own, without any file. -/
def emptyEnvironment : IO Environment := do
  let cwd := Path.ofString ((← IO.getEnv "PWD").getD "/")
  let home := Path.ofString ((← IO.getEnv "HOME").getD "/")
  let configFile := (← IO.getEnv "BGFORGE_MLS_CONFIG").getD ""
  let files : Files := ⟨.directory [], Path.ofString "/", room⟩
  return {
    files := { files.put cwd (.directory []) with cwd }
    home, configFile, room
    yaml := Yaml.format
    launch := Shell.launch }

/-- Runs the program and gives its status. -/
def runSystem (args : List String) : IO UInt32 := do
  let env ← emptyEnvironment
  let files ← (inputPaths env args).foldlM addPath env.files
  let input ← if readsInput { env with files } args then (← IO.getStdin).readBinToEnd else pure ⟨#[]⟩
  let out := outcome { env with files, input := input.toList } args
  IO.print out.stdout
  IO.eprint out.stderr
  if let some e := out.failure then
    IO.eprintln ("Error: " ++ e.message?.getD "the request has no answer")
  for (p, bytes) in changedFiles files out.files do
    IO.FS.writeBinFile p.text ⟨bytes.toArray⟩
  return out.status.toUInt32

end ScriptService.CommandLine

/-- Runs the program with the arguments of the command line. -/
def main (args : List String) : IO UInt32 :=
  ScriptService.CommandLine.runSystem args
