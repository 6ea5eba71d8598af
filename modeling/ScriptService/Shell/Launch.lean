import ScriptService.Command.Words
import ScriptService.Environment
import ScriptService.Shell.Run

/-!
# Starting the shell's programs

The shell's own programs are started with an empty input. What a program prints is kept also when its
time runs out and it is stopped. A program that left something running in the background, which may
still print, has not ended either.
-/

namespace ScriptService.Shell

/-- The program that a word names, if it can be started. -/
def program? (word : String) : Option String :=
  let name := ["/bin/", "/usr/bin/"].findSome? fun dir =>
    (dir.toList.isPrefixOf? word.toList).map String.ofList
  let name := name.getD word
  if programs.contains name then some name else none

/-- The status of a program that was stopped. -/
def stoppedStatus : Int := -9

/-- When a program is stopped that may run for a number of seconds; what is not a number leaves it no
time. -/
def deadlineAfter (seconds : Float) : Float :=
  if seconds.isNaN then 0 else seconds

/-- What a run leaves behind. -/
def endOf (m : Machine) : ProcessEnd where
  stdout := toBytes m.stdout.reverse
  stderr := toBytes m.stderr.reverse
  status := if m.flow = .killed then stoppedStatus else m.status
  timedOut := m.flow = .killed || m.deadline.any (m.busyUntil ≥ ·)

/-- Starts one of the shell's programs in a directory that exists. -/
def launch : Launcher := fun files dir program args timeout =>
  match files.isDirectory dir, program? program with
  | .ok true, some name =>
    let cwd := Path.resolve files.cwd dir
    let m : Machine := { files := { files with cwd }, deadline := timeout.map deadlineAfter }
    let quoted := (name :: args).map fun w => bytesOf (Words.quote w)
    let m := run maxSteps (.simple quoted []) m
    some (endOf m, { m.files with cwd := files.cwd })
  | _, _ => none

end ScriptService.Shell
