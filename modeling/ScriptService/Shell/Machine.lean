import ScriptService.Files.Tree

/-!
# The state of a running script

What a script has printed, its variables and parameters, the files it sees and the time that has
passed. Characters stand for bytes.
-/

namespace ScriptService.Shell

/-- Where an output goes. -/
inductive Sink where
  | stdout
  | stderr
  | nowhere
  | file (path : String)
deriving DecidableEq

/-- How a script goes on. -/
inductive Flow where
  | on
  | exited
  | breaking (loops : Nat)
  | continuing (loops : Nat)
  /-- Stopped from outside because its time was up. -/
  | killed
deriving DecidableEq

/-- The state of a running script. -/
structure Machine where
  files : Files
  bindings : List (List Char × List Char) := []
  /-- What the script is called. -/
  name : List Char := "sh".toList
  params : List (List Char) := []
  stdin : List Char := []
  /-- What was printed, in reverse. -/
  stdout : List Char := []
  stderr : List Char := []
  out : Sink := .stdout
  err : Sink := .stderr
  status : Nat := 0
  flow : Flow := .on
  /-- Seconds since the start. -/
  clock : Float := 0
  deadline : Option Float := none
  /-- When the last command in the background that holds an output ends. -/
  busyUntil : Float := 0

/-- The bytes of a text as characters. -/
def bytesOf (s : String) : List Char :=
  (Text.encodeUtf8 s.toList).map fun b => Char.ofNat b.toNat

/-- The bytes that characters stand for. -/
def toBytes (cs : List Char) : List UInt8 :=
  cs.map fun c => c.toNat.toUInt8

/-- The path that bytes name. -/
def pathOf (cs : List Char) : Path :=
  Path.ofString (String.ofList (Text.decodeUtf8Lossy (toBytes cs)))

namespace Machine

/-- The value of a variable. -/
def valueOf (m : Machine) (name : List Char) : List Char :=
  (m.bindings.lookup name).getD []

/-- The state once a variable has a value. -/
def assign (m : Machine) (name value : List Char) : Machine :=
  { m with bindings := (name, value) :: m.bindings.filter (·.1 ≠ name) }

/-- The state once something was written to a sink. -/
def write (m : Machine) (cs : List Char) : Sink → Machine
  | .stdout => { m with stdout := cs.reverse ++ m.stdout }
  | .stderr => { m with stderr := cs.reverse ++ m.stderr }
  | .nowhere => m
  | .file path =>
    let p := Path.ofString path
    let old := match m.files.read p with
      | .ok bytes => bytes
      | .error _ => []
    { m with files := m.files.put p (.file (old ++ toBytes cs)) }

/-- The state once something was printed. -/
def print (m : Machine) (cs : List Char) : Machine :=
  m.write cs m.out

/-- The state once a complaint was printed. -/
def complain (m : Machine) (text : String) (status : Nat) : Machine :=
  { m.write (text.toList ++ ['\n']) m.err with status }

/-- A complaint of the shell itself. -/
def shellError (m : Machine) (text : List Char) (status : Nat) : Machine :=
  m.complain (String.ofList (m.name ++ ": 1: ".toList ++ text)) status

/-- The state after a command that ended with a status. -/
def ended (m : Machine) (status : Nat) : Machine :=
  { m with status }

/-- The state some seconds later; the script is stopped when its time is up. -/
def wait (m : Machine) (seconds : Float) : Machine :=
  let later := m.clock + seconds
  match m.deadline with
  | some d => if later ≥ d then { m with clock := d, flow := .killed } else { m with clock := later }
  | none => { m with clock := later }

end Machine

end ScriptService.Shell
