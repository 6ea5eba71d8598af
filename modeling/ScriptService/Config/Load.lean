import ScriptService.Environment
import ScriptService.Failure
import ScriptService.Json.Reader

/-!
# Configuration files

The first file that exists among some candidates holds the configuration: one that is asked for, one
that the environment names, those of a search, and those at the usual places. Files that end in
`.yaml` or `.yml` are YAML, all others JSON.
-/

namespace ScriptService

namespace Config

/-- The name of a workspace's configuration file. -/
def fileName : String := ".bgforge.yml"

/-- Where a configuration may be, best first. -/
def candidates (env : Environment) (asked : Option String) (search : List Path) : List Path :=
  let named := fun (s : String) => if s.isEmpty then [] else [Path.ofString s]
  let cwd := env.files.cwd
  asked.elim [] named ++ named env.configFile ++ search ++
    [cwd.join (Path.ofString fileName), cwd.join (Path.ofString ".bgforge.yaml"),
     env.home.join (Path.ofString ".bgforge/mls.yaml")]

/-- The first file among some paths. -/
def firstFile (files : Files) : List Path → Except FileError (Option Path)
  | [] => .ok none
  | p :: ps => do if ← files.isFile p then .ok (some p) else firstFile files ps

/-- Whether a path is that of a YAML file. -/
def isYaml (p : Path) : Bool :=
  p.suffix = ".yaml" || p.suffix = ".yml"

/-- The value that a file's bytes stand for. JSON is decoded as a whole before it is read. -/
def readValue (yaml : ValueFormat) (p : Path) (bytes : List UInt8) : Except ReadError Value :=
  if isYaml p then yaml.read bytes
  else
    match decodeText? bytes with
    | some text => Json.read text
    | none => .error .undecodable

/-- The configuration in a file. A file that holds nothing, or something empty, has the default one. -/
def readFile (env : Environment) (p : Path) : Except Failure Config := do
  let bytes ← asFailure .file (env.files.read p)
  match readValue env.yaml p bytes with
  | .error .malformed => .error (.config (.unreadable p.text))
  | .error .undecodable => .error .undecodable
  | .error e => .error (.value e)
  | .ok v => asFailure .ofConfigError (Config.ofValue env.room (if v.isGiven then v else .mapping []))

/-- The configuration in the first candidate that is a file, the default one if none is. -/
def load (env : Environment) (asked : Option String) (search : List Path) : Except Failure Config := do
  match ← asFailure .file (firstFile env.files (candidates env asked search)) with
  | none => .ok {}
  | some p => readFile env p

/-- The configuration of a workspace, whose own file comes before those at the usual places. -/
def loadWorkspace (env : Environment) (root : Path) : Except Failure Config :=
  load env none [root.join (Path.ofString fileName)]

/-- The text of a configuration file. -/
def fileText (c : Config) (yaml : ValueFormat) : String :=
  yaml.write c.toValue

/-- The files once a configuration is saved. -/
def save (c : Config) (env : Environment) (p : Path) : Except FileError Files :=
  env.files.save p (Text.encodeUtf8 (c.fileText env.yaml).toList)

end Config

end ScriptService
