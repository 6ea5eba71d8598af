import ScriptService.CommandLine.Commands

/-!
# The program

The program takes options of its own, then a command with its arguments.
-/

namespace ScriptService.CommandLine

/-- What the program is called. -/
def programName : String := "bgforge-mls"

/-- The version of the program. -/
def version : String := "0.1.0"

/-- Asks which version this is. -/
def versionOption : Parameter := ⟨"version", ["--version"], .switch⟩

/-- Asks for more to be logged; no answer depends on it. -/
def verboseOption : Parameter := ⟨"verbose", ["--verbose", "-v"], .switch⟩

/-- The options of the program itself. -/
def programParameters : List Parameter := [versionOption, verboseOption, helpOption]

/-- What is shown to those who ask for help. -/
def usageLine : String := "Usage: " ++ programName ++ " [OPTIONS] COMMAND [ARGS]..."

/-- What the program's own options ask for at once. -/
def notice? (values : List (Parameter × String)) : Option String :=
  values.findSome? fun (p, _) =>
    if p = versionOption then some (programName ++ ", version " ++ version)
    else if p = helpOption then some usageLine
    else none

/-- Runs a command with its arguments. -/
def runCommand (env : Environment) (name : Name) (args : List String) : Except Stop Outcome := do
  let given ← (matchArguments name.parameters true (args.length + 1) args).mapError Stop.usage
  match notice? given.values with
  | some line => .ok { stdout := asLines [line], files := env.files }
  | none =>
    let values ← values env.files name.parameters given
    ({ env, values } : Call).perform name

/-- Runs the program with its arguments. -/
def runProgram (env : Environment) (args : List String) : Except Stop Outcome := do
  let given ← (matchArguments programParameters false (args.length + 1) args).mapError Stop.usage
  match notice? given.values with
  | some line => .ok { stdout := asLines [line], files := env.files }
  | none =>
    match given.rest with
    | [] =>
      if args.isEmpty then .ok { stdout := asLines [usageLine], files := env.files }
      else .error (.usage .noCommand)
    | command :: rest =>
      match Name.all.find? (·.text = command) with
      | some name => runCommand env name rest
      | none => .error (.usage (.unknownCommand command))

/-- What a run of the program comes to: a wrong use ends with status two, a fault with one. -/
def result (env : Environment) (args : List String) : Outcome :=
  match runProgram env args with
  | .ok o => o
  | .error (.usage e) => { stderr := asLines ["Error: " ++ e.message], status := 2, files := env.files }
  | .error (.fault message) => { stderr := asLines ["Error: " ++ message], status := 1, files := env.files }
  | .error (.failure e) => { status := 1, failure := some e, files := env.files }

/-- What follows a sequence that commands a terminal, if one starts with what is given: an escape,
a bracket, numbers with marks between them, and a letter. -/
def behindSequence? : List Char → Option (List Char)
  | '\x1b' :: '[' :: s =>
    match s.dropWhile fun c => c.isDigit || c == ';' || c == '?' with
    | c :: rest => if c.isAlpha then some rest else none
    | [] => none
  | _ => none

/-- A text without the sequences that command a terminal, of `fuel` characters at most. -/
def dropSequences : Nat → List Char → List Char
  | 0, s => s
  | fuel + 1, s =>
    match s with
    | [] => []
    | c :: t =>
      match behindSequence? s with
      | some rest => dropSequences fuel rest
      | none => c :: dropSequences fuel t

/-- A text with each carriage return in front of a line's end left out. -/
def dropReturns : List Char → List Char
  | '\r' :: '\n' :: s => '\n' :: dropReturns s
  | c :: s => c :: dropReturns s
  | [] => []

/-- A text as it is printed where no terminal shows it. -/
def printed (s : String) : String :=
  String.ofList (dropReturns (dropSequences s.length s.toList))

/-- What a run of the program comes to, with its output as it is printed. -/
def outcome (env : Environment) (args : List String) : Outcome :=
  let o := result env args
  { o with stdout := printed o.stdout, stderr := printed o.stderr }

/-! ## What a run reads and writes -/

/-- The command that some arguments name and the values that they give it, checked or not. -/
def request? (args : List String) : Option (Name × List (Parameter × String)) := do
  let { rest := command :: rest, .. } ← (matchArguments programParameters false (args.length + 1) args).toOption
    | none
  let name ← Name.all.find? (·.text = command)
  let given ← (matchArguments name.parameters true (rest.length + 1) rest).toOption
  some (name, settle given.values ++ (name.parameters.filter (·.names.isEmpty)).zip given.rest)

/-- Whether a compile with a configuration may take the words of a command line from its input. -/
def takesWords (c : Config) : Bool :=
  [c.fallout.compilePath, c.fallout.compileOptions, c.weidu.path].any fun
    | .null => true
    | _ => false

/-- Whether a run reads its standard input. -/
def readsInput (env : Environment) (args : List String) : Bool :=
  match request? args with
  | some (.diagnostics, values) => values.all fun (p, v) => p != inputOption || v == "-"
  | some (.compile, values) =>
    match ({ env, values } : Call).config with
    | .ok config => takesWords config
    | .error _ => false
  | _ => false

/-- The paths that a run may read: those that its arguments name, its workspace, and those where the
configuration may be. -/
def inputPaths (env : Environment) (args : List String) : List Path :=
  let values := (request? args).elim [] Prod.snd
  let paths := fun (kinds : List ParameterKind) =>
    (values.filter (kinds.contains ·.1.kind)).map (Path.ofString ·.2)
  let workspaces := paths [.directory] ++ [Path.ofString "."]
  paths [.file, .input] ++ workspaces ++
    Config.candidates env none (workspaces.map (·.join (Path.ofString Config.fileName)))

/-- The files of one tree that another does not have, or not so, with their bytes. -/
def changedFiles (old new : Files) : List (Path × List UInt8) :=
  new.root.files.filterMap fun parts =>
    let p : Path := ⟨.root, parts⟩
    match old.read p, new.read p with
    | .ok before, .ok after => if before = after then none else some (p, after)
    | .error _, .ok after => some (p, after)
    | _, .error _ => none

end ScriptService.CommandLine
