import ScriptService.Command.Run
import ScriptService.CommandLine.Parameter
import ScriptService.Json.Writer
import ScriptService.Service.Compile

/-!
# Commands

What each command does: writing a configuration, listing symbols, showing what a word stands for,
listing completions, reading a compiler's output, and compiling.
-/

namespace ScriptService.CommandLine

/-- A command. -/
inductive Name where
  | init
  | symbols
  | hover
  | complete
  | diagnostics
  | compile
deriving DecidableEq

/-- All commands. -/
def Name.all : List Name := [.init, .symbols, .hover, .complete, .diagnostics, .compile]

/-- How a command is called. -/
def Name.text : Name → String
  | .init => "init"
  | .symbols => "symbols"
  | .hover => "hover"
  | .complete => "complete"
  | .diagnostics => "diagnostics"
  | .compile => "compile"

/-- The file that a command is about. -/
def fileArgument : Parameter := ⟨"FILE", [], .file⟩

/-- The word to look up. -/
def wordArgument : Parameter := ⟨"WORD", [], .text⟩

/-- The workspace, the current directory if none is given. -/
def workspaceOption : Parameter := ⟨"workspace", ["--workspace", "-w"], .directory⟩

/-- The file's language, where its extension does not tell it. -/
def languageOption : Parameter := ⟨"lang", ["--lang", "-l"], .text⟩

/-- Whether an existing configuration is replaced. -/
def forceOption : Parameter := ⟨"force", ["--force", "-f"], .switch⟩

/-- Whether the answer is written as JSON. -/
def jsonOption : Parameter := ⟨"json", ["--json"], .switch⟩

/-- What the labels of completions have to start with. -/
def leadOption : Parameter := ⟨"prefix", ["--prefix", "-p"], .text⟩

/-- Where a compiler's output is read from. -/
def inputOption : Parameter := ⟨"input", ["--input", "-i"], .input⟩

/-- The document that a compiler's output is about. -/
def documentOption : Parameter := ⟨"document", ["--document", "-d"], .file⟩

/-- Whether the output is that of WeiDU. -/
def weiduOption : Parameter := ⟨"weidu", ["--weidu"], .switch⟩

/-- How many seconds a compiler may run. -/
def timeoutOption : Parameter := ⟨"timeout", ["--timeout"], .number⟩

/-- The parameters of a command. -/
def Name.parameters : Name → List Parameter
  | .init => [workspaceOption, forceOption, helpOption]
  | .symbols => [fileArgument, languageOption, jsonOption, helpOption]
  | .hover => [fileArgument, wordArgument, workspaceOption, languageOption, helpOption]
  | .complete => [fileArgument, workspaceOption, languageOption, leadOption, helpOption]
  | .diagnostics => [inputOption, documentOption, weiduOption, jsonOption, helpOption]
  | .compile => [fileArgument, workspaceOption, languageOption, timeoutOption, helpOption]

/-- What a command prints, the status it ends with, and the files after it. -/
structure Outcome where
  stdout : String := ""
  stderr : String := ""
  status : Nat := 0
  failure : Option Failure := none
  files : Files

/-- The values that a command was given. -/
structure Call where
  env : Environment
  values : List (Parameter × String)

/-- Lines with their ends. -/
def asLines (ls : List String) : String :=
  String.join (ls.map (· ++ "\n"))

namespace Call

/-- The value of a parameter, if it was given. -/
def get? (c : Call) (p : Parameter) : Option String :=
  (c.values.find? (·.1 = p)).map Prod.snd

/-- Whether a parameter was given. -/
def has (c : Call) (p : Parameter) : Bool :=
  (c.get? p).isSome

/-- The file that a command is about. -/
def file (c : Call) : Path :=
  Path.ofString ((c.get? fileArgument).getD "")

/-- The workspace of a command. -/
def workspace (c : Call) : Path :=
  Path.ofString ((c.get? workspaceOption).getD ".")

/-- A failure as a reason to stop. -/
def lift {α : Type} : Except Failure α → Except Stop α
  | .ok a => .ok a
  | .error e => .error (.failure e)

/-- The text of a file, with line ends unified; bytes that are no UTF-8 are replaced. -/
def readText (c : Call) (p : Path) : Except Stop String := do
  let bytes ← lift (asFailure .file (c.env.files.read p))
  .ok (String.ofList (Text.unifyNewlines (Text.decodeUtf8Lossy bytes)))

/-- The language of the file: the one asked for, or the one that its extension tells. -/
def language (c : Call) : Except Stop String :=
  match c.get? languageOption, guessLanguage? c.file with
  | some l, guess =>
    if !l.isEmpty then .ok l
    else guess.elim (.error (.usage (.unknownLanguage c.file.name))) .ok
  | none, some l => .ok l
  | none, none => .error (.usage (.unknownLanguage c.file.name))

/-- The configuration of the workspace; a faulty one is reported. -/
def config (c : Call) : Except Stop Config :=
  match Config.loadWorkspace c.env c.workspace with
  | .ok config => .ok config
  | .error (.config e) => .error (.fault e.message)
  | .error e => .error (.failure e)

/-- The service of the workspace with its headers loaded and the file open, and the file's key. -/
def openWorkspace (c : Call) (language : String) : Except Stop (Service × String) := do
  let config ← c.config
  let s ← lift (Service.start c.env c.workspace.text (some config))
  let s ← lift (s.loadAll c.env)
  let key ← lift (s.relativePath (Path.resolve c.env.files.cwd c.file).text)
  let text ← c.readText c.file
  .ok (s.reloadFile key language text, key)

/-- Writes the default configuration into the workspace. -/
def init (c : Call) : Except Stop Outcome := do
  let target := (Path.resolve c.env.files.cwd c.workspace).join (Path.ofString Config.fileName)
  let found ← lift (asFailure .file (c.env.files.probe target))
  if found.isSome && !c.has forceOption then
    .error (.fault (target.text ++ " already exists (use --force to overwrite)"))
  else
    let files ← lift (asFailure .file (({} : Config).save c.env target))
    .ok { stdout := asLines ["Configuration saved to: " ++ target.text], files }

/-- A symbol as JSON. -/
def symbolValue (s : Symbol) : Value :=
  Config.textMapping [("name", .text s.name), ("kind", .text s.kind.name), ("line", .int (s.line + 1)),
    ("detail", .text s.displayLine)]

/-- A symbol on a line. -/
def symbolLine (s : Symbol) : String :=
  toString (s.line + 1) ++ ":" ++ s.kind.name ++ "\t" ++ s.name ++ "\t" ++ s.displayLine

/-- Lists the declarations in the file. -/
def symbols (c : Call) : Except Stop Outcome := do
  let language ← c.language
  match extractor? language with
  | none => .error (.fault ("No symbol extraction for language " ++ language))
  | some extract =>
    let found := (extract (← c.readText c.file) c.file.name).symbols
    let lines := if c.has jsonOption then [Json.write ⟨true, false⟩ (.list (found.map symbolValue))]
      else found.map symbolLine
    .ok { stdout := asLines lines, files := c.env.files }

/-- Shows what a word stands for in the file. -/
def hover (c : Call) : Except Stop Outcome := do
  let language ← c.language
  let word := (c.get? wordArgument).getD ""
  let (s, key) ← c.openWorkspace language
  match s.hover language key word with
  | none => .ok { stderr := asLines ["No symbol named " ++ word], status := 1, files := c.env.files }
  | some h => .ok { stdout := asLines [h.contents], files := c.env.files }

/-- Lists the completions in the file whose labels start with a text. -/
def complete (c : Call) : Except Stop Outcome := do
  let language ← c.language
  let lead := (c.get? leadOption).getD ""
  let (s, key) ← c.openWorkspace language
  let offered := (s.completions language key).filter fun i => lead.toList.isPrefixOf i.label.toList
  .ok
    { stdout := asLines (offered.map fun i => i.label ++ "\t" ++ i.icon.name ++ "\t" ++ i.detail)
      files := c.env.files }

/-- The compiler's output that is asked for. -/
def compilerOutput (c : Call) : Except Stop String :=
  let decode := fun bytes => lift ((decodeText? bytes).elim (.error .undecodable) .ok)
  match (c.get? inputOption).getD "-" with
  | "-" => decode c.env.input
  | name => do decode (← lift (asFailure .file (c.env.files.read (Path.ofString name))))

/-- A position as JSON. -/
def positionValue (p : Position) : Value :=
  Config.textMapping [("line", .int p.line), ("character", .int p.character)]

/-- A diagnostic as JSON. -/
def diagnosticValue (d : Diagnostic) : Value :=
  Config.textMapping [
    ("range", Config.textMapping [("start", positionValue d.start), ("end", positionValue d.stop)]),
    ("message", .text d.message), ("severity", .int d.severity.code), ("source", .text Diagnostic.source)]

/-- A complaint on a line. -/
def complaintLine (c : Complaint) : String :=
  c.file ++ ":" ++ toString c.line ++ ":" ++ toString c.columnStart ++ "-" ++ toString c.columnEnd ++ ": " ++
    c.severity.name ++ ": " ++ c.message

/-- Lists the complaints in a compiler's output. -/
def diagnostics (c : Call) : Except Stop Outcome := do
  let output ← c.compilerOutput
  let report ← if c.has weiduOption then .ok (Weidu.report output) else do
    let document ← (c.get? documentOption).mapM fun d => c.readText (Path.ofString d)
    .ok (Fallout.report output document)
  let lines := if c.has jsonOption then
      [Json.write ⟨true, true⟩ (.list (report.diagnostics.map diagnosticValue))]
    else report.all.map complaintLine
  .ok { stdout := asLines lines, status := if report.errors.isEmpty then 0 else 1, files := c.env.files }

/-- A diagnostic of a file on a line. -/
def diagnosticLine (file : String) (d : Diagnostic) : String :=
  file ++ ":" ++ toString (d.start.line + 1) ++ ":" ++ toString d.start.character ++ ": " ++ d.severity.name ++
    ": " ++ d.message

/-- The end of a compiler's run, and the files after it. -/
def runCompiler (c : Call) (command : Command) : Except Stop (CompilerEnd × Files) :=
  let timeout := (c.get? timeoutOption).bind fun t => Number.float? t.toList
  match command.run c.env timeout with
  | .ok (output, files) => .ok (.ran output, files)
  | .error (.noCompiler _) => .ok (.notStarted, c.env.files)
  | .error e => .error (.failure e)

/-- Compiles the file and lists its diagnostics. -/
def compile (c : Call) : Except Stop Outcome := do
  let language ← c.language
  let config ← c.config
  let s ← lift (Service.start c.env c.workspace.text (some config))
  let text ← c.readText c.file
  let uri ← lift (asFailure .uri (Uri.ofPath c.env.files.cwd c.file))
  let started := s.startCompile c.env.input { uri, language, text := some text, interactive := true }
  match ← lift started.result with
  | .done _ => .ok { status := 2, files := c.env.files }
  | .waiting p =>
    let (stop, files) ← c.runCompiler p.command
    match (started.service.finishCompile p stop).2 with
    | none => .ok { status := 2, files }
    | some ds =>
      .ok
        { stdout := asLines (ds.map (diagnosticLine c.file.name))
          status := if ds.any (·.severity = .error) then 1 else 0
          files }

/-- Does what a command asks for. -/
def perform (c : Call) : Name → Except Stop Outcome
  | .init => c.init
  | .symbols => c.symbols
  | .hover => c.hover
  | .complete => c.complete
  | .diagnostics => c.diagnostics
  | .compile => c.compile

end Call

end ScriptService.CommandLine
