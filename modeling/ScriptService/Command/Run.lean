import ScriptService.Command.Basic

/-!
# Running a command

A command is run in its directory by whatever starts programs. What the program prints is kept also
when its time runs out and it is stopped.
-/

namespace ScriptService.Command

/-- Runs a command, for a number of seconds at most. -/
def run (c : Command) (env : Environment) (timeout : Option Float) : Except Failure (RunOutput × Files) := do
  let (program, args) ← c.processWords
  match env.launch env.files c.cwd program args timeout with
  | some (e, files) => .ok (.ofEnd e, files)
  | none => .error (.noCompiler program)

end ScriptService.Command
