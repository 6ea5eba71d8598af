import ScriptService.Diagnostic.Fallout
import ScriptService.Diagnostic.Weidu
import ScriptService.Service.Query

/-!
# Compiling

A compile starts by clearing the document's diagnostics and taking a stamp; it ends when its compiler
has run. One that ends after a newer compile of the document has started says nothing.
-/

namespace ScriptService

/-- A request to compile a document. -/
structure CompileRequest where
  uri : String
  language : String
  text : Option String := none
  /-- Whether a person asked for it and wants to hear how it went. -/
  interactive : Bool := false
deriving DecidableEq

/-- A compile that waits for its compiler. -/
structure Pending where
  request : CompileRequest
  file : Path
  command : Command
  stamp : Nat

/-- How a compile went on: it ended at once, or it waits for its compiler. -/
inductive Progress where
  | done (diagnostics : Option (List Diagnostic))
  | waiting (p : Pending)

/-- How a compiler's run ended. -/
inductive CompilerEnd where
  | notStarted
  | ran (output : RunOutput)

namespace Service

/-- The diagnostics in what a compiler printed. -/
def diagnosticsIn (language stdout : String) (text : Option String) : List Diagnostic :=
  if (DataLanguage.serving language).isWeidu then (Weidu.report stdout).diagnostics
  else (Fallout.report stdout text).diagnostics

/-- The command that compiles a file, and what the editor is told if there is none. -/
def compileCommand (s : Service) (input : List UInt8) (file : Path) (language : String) (interactive : Bool) :
    Except Failure (Option Command) × List HostEvent :=
  let told := fun message => if interactive then [HostEvent.info message] else []
  let data := DataLanguage.serving language
  if data.isWeidu then (Command.weidu input file s.config.weidu, [])
  else if data = .falloutSsl then
    if file.lowerSuffix ≠ ".ssl" then (.ok none, told "Please focus a Fallout SSL file to compile!")
    else ((Command.fallout input file s.config.fallout).map some, [])
  else (.ok none, told ("Can't compile " ++ file.name ++ "."))

/-- Starts a compile, with what is left of the standard input. -/
def startCompile (s : Service) (input : List UInt8) (r : CompileRequest) : Reply Progress :=
  match Uri.toPath r.uri with
  | .error e => { service := s, result := .error (.uri e) }
  | .ok file =>
    match s.compileCommand input file r.language r.interactive with
    | (.error e, events) => { service := s, events, result := .error e }
    | (.ok none, events) => { service := s, events, result := .ok (.done none) }
    | (.ok (some command), events) =>
      let (stamp, stamps) := s.stamps.next r.uri
      { service := { s with stamps }
        events := events ++ [.publish r.uri []]
        result := .ok (.waiting ⟨r, file, command, stamp⟩) }

/-- What the editor is told of a compile that a person asked for. -/
def verdict (p : Pending) (ok : Bool) : List HostEvent :=
  if !p.request.interactive then []
  else if ok then [.info ("Successfully compiled " ++ p.file.name ++ ".")]
  else [.error ("Failed to compile " ++ p.file.name ++ "!")]

/-- Ends a compile: what the editor is told, and the diagnostics if they were published. -/
def finishCompile (s : Service) (p : Pending) : CompilerEnd → List HostEvent × Option (List Diagnostic)
  | .notStarted => (verdict p false, none)
  | .ran output =>
    if s.stamps.isLatest p.request.uri p.stamp then
      let diagnostics := diagnosticsIn p.request.language output.stdout p.request.text
      (verdict p output.ok ++ [.publish p.request.uri diagnostics], some diagnostics)
    else ([], none)

/-- Starts what a saved document asks for: its symbols are read anew; the configuration file is read
anew, and any other document is compiled if the configuration says so. -/
def startSave (s : Service) (env : Environment) (uri language text : String) : Reply Progress :=
  match s.relativePath uri with
  | .error e => { service := s, result := .error e }
  | .ok path =>
    let s := s.reloadFile path language text
    if path = Config.fileName then
      match s.reloadConfig env with
      | .ok s => { service := s, result := .ok (.done none) }
      | .error e => { service := s, result := .error e }
    else if s.config.validateOnSave || s.config.validateOnChange then
      s.startCompile env.input { uri, language, text := some text }
    else { service := s, result := .ok (.done none) }

end Service

end ScriptService
