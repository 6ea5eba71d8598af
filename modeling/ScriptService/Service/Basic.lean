import ScriptService.Command.Basic
import ScriptService.Command.Stamps
import ScriptService.Config.Load
import ScriptService.Diagnostic.Basic
import ScriptService.Header.Load

/-!
# The language service

The service of one workspace: its configuration, the index of its symbols and the stamps of its
compiles. Requests take the service to a next one and may tell the editor something on the way.
-/

namespace ScriptService

/-- What the service tells the editor. -/
inductive HostEvent where
  /-- The diagnostics of a document, in place of all that it had. -/
  | publish (uri : String) (diagnostics : List Diagnostic)
  | info (message : String)
  | error (message : String)
deriving DecidableEq

/-- The service of a workspace. -/
structure Service where
  /-- The workspace's directory, absolute and without double dots. -/
  root : Path
  config : Config := {}
  index : Index := {}
  stamps : Stamps := []
  isInitialized : Bool := false

/-- What comes of a request: the service after it, what the editor was told, and the answer. The
service may have changed although there is no answer. -/
structure Reply (α : Type) where
  service : Service
  events : List HostEvent := []
  result : Except Failure α

namespace Service

/-- The configuration of a workspace; the default one if its file is faulty. -/
def initialConfig (env : Environment) (root : Path) : Except Failure Config :=
  match Config.loadWorkspace env root with
  | .error (.config _) => .ok {}
  | r => r

/-- The service of a workspace, with a given configuration or the workspace's own. -/
def start (env : Environment) (root : String) (config : Option Config) : Except Failure Service :=
  if root.toList.contains '\x00' then .error (.file .nulInPath)
  else do
    let root := Path.resolve env.files.cwd (Path.ofString root)
    let config ← match config with
      | some c => .ok c
      | none => initialConfig env root
    .ok { root, config }

/-- The service with its configuration read anew; a faulty file changes nothing. -/
def reloadConfig (s : Service) (env : Environment) : Except Failure Service :=
  match Config.loadWorkspace env s.root with
  | .ok c => .ok { s with config := c }
  | .error (.config _) => .ok s
  | .error e => .error e

/-- The service with the headers outside the workspace loaded into the static tier. -/
def loadStatic (s : Service) (env : Environment) : Except Failure Service := do
  let (_, index) ← s.index.loadExternal env.files s.root.text s.config.fallout.headersDirectory
    Language.falloutSsl.id
  .ok { s with index }

/-- The service with the dynamic tier built from the workspace's headers. -/
def loadDynamic (s : Service) (env : Environment) : Except Failure Service :=
  Language.all.foldlM (fun s l => do
    let (_, index) ← s.index.loadWorkspace env.files s.root l.id
    .ok { s with index }) s

/-- The service with all headers loaded. -/
def loadAll (s : Service) (env : Environment) : Except Failure Service := do
  let s ← s.loadStatic env
  let s ← s.loadDynamic env
  .ok { s with isInitialized := true }

/-- The key of a document: its path from the workspace, if it is absolute. -/
def relativePath (s : Service) (uri : String) : Except Failure String := do
  let p ← asFailure .uri (Uri.toPath uri)
  if p.isAbsolute then .ok (Path.relativeTo (Path.resolve ⟨.root, []⟩ p) s.root).text else .ok p.text

/-- The service once a file has changed: a header's symbols are replaced in the dynamic tier of its
language, those of any other file in its own. -/
def reloadFile (s : Service) (path language text : String) : Service :=
  match Language.serving? language with
  | none => s
  | some l =>
    let reload := fun b => Bucket.reload b path text l.extractor
    if l.isHeader (Path.ofString path) then
      { s with index := s.index.setDynamic l.id (reload (s.index.getDynamic l.id)) }
    else { s with index := s.index.setSelf path (reload (s.index.getSelf path)) }

/-- The service once a document was opened. -/
def onOpen (s : Service) (uri language text : String) : Except Failure Service := do
  .ok (s.reloadFile (← s.relativePath uri) language text)

/-- The service once a document was closed. -/
def onClose (s : Service) (uri : String) : Except Failure Service := do
  .ok { s with index := s.index.dropSelf (← s.relativePath uri) }

end Service

end ScriptService
