import ScriptService.Failure
import ScriptService.Number.Numeral
import ScriptService.Text.Similarity

/-!
# Parameters of commands

Each command has parameters with names and a kind. Arguments are matched with them from left to
right; then each value is checked against its kind, in the order in which they were given.
-/

namespace ScriptService.CommandLine

/-- What a value of a parameter has to be. -/
inductive ParameterKind where
  | text
  | number
  /-- The path of a file that exists. -/
  | file
  /-- The path of a directory that exists. -/
  | directory
  /-- The path of a file to read, or a dash for the input. -/
  | input
  /-- A switch, which takes no value. -/
  | switch
deriving DecidableEq

/-- A parameter of a command. -/
structure Parameter where
  key : String
  /-- The names of an option; an argument without a name has none. -/
  names : List String
  kind : ParameterKind
deriving DecidableEq

/-- What is wrong with the way a command is used. -/
inductive UsageError where
  | noCommand
  | unknownCommand (name : String)
  | unknownOption (name : String) (similar : List String)
  | valueMissing (option : String)
  | valueUnwanted (option : String)
  | argumentMissing (name : String)
  | argumentsLeft (args : List String)
  | invalid (parameter reason : String)
  | unknownLanguage (file : String)
deriving DecidableEq

/-- What an error says. -/
def UsageError.message : UsageError → String
  | .noCommand => "Missing command."
  | .unknownCommand name => "No such command " ++ quoteText name ++ "."
  | .unknownOption name [] => "No such option: " ++ name
  | .unknownOption name [s] => "No such option: " ++ name ++ " Did you mean " ++ s ++ "?"
  | .unknownOption name ss =>
    "No such option: " ++ name ++ " (Possible options: " ++ ", ".intercalate ss ++ ")"
  | .valueMissing option => "Option " ++ quoteText option ++ " requires an argument."
  | .valueUnwanted option => "Option " ++ quoteText option ++ " does not take a value."
  | .argumentMissing name => "Missing argument '" ++ name ++ "'."
  | .argumentsLeft args =>
    (if args.length = 1 then "Got unexpected extra argument (" else "Got unexpected extra arguments (") ++
      " ".intercalate args ++ ")"
  | .invalid parameter reason => "Invalid value for " ++ parameter ++ ": " ++ reason
  | .unknownLanguage file => "Cannot guess the language of " ++ file ++ "; pass --lang"

/-- Why a command did not do its work. -/
inductive Stop where
  | usage (e : UsageError)
  /-- A fault that is reported to people. -/
  | fault (message : String)
  /-- A failure that nobody reports. -/
  | failure (e : Failure)

/-- The option that asks for help. -/
def helpOption : Parameter := ⟨"help", ["--help"], .switch⟩

/-- Whether a name is the long name of an option. -/
def isLongName (name : String) : Bool :=
  name.startsWith "--"

/-- The option with a name. -/
def findOption (params : List Parameter) (name : String) : Option Parameter :=
  params.find? (·.names.contains name)

/-- What was given for parameters, in order, and the arguments without a name. -/
structure Given where
  values : List (Parameter × String) := []
  rest : List String := []

/-- Letters of an argument behind its dash, each of which names an option; the first that takes a
value takes the letters behind it, or else the next argument. -/
def letters (params : List Parameter) : List Char → List String →
    Except UsageError (List (Parameter × String) × List String)
  | [], args => .ok ([], args)
  | c :: s, args =>
    let name := String.ofList ['-', c]
    match findOption params name with
    | none => .error (.unknownOption name [])
    | some p =>
      if p.kind = .switch then do
        let (vs, args) ← letters params s args
        .ok ((p, "") :: vs, args)
      else if !s.isEmpty then .ok ([(p, String.ofList s)], args)
      else
        match args with
        | v :: args => .ok ([(p, v)], args)
        | [] => .error (.valueMissing name)

/-- What an argument that starts with a dash stands for, and the arguments behind it. -/
def optionAt (params : List Parameter) (arg : String) (args : List String) :
    Except UsageError (List (Parameter × String) × List String) :=
  let cs := arg.toList
  let name := String.ofList (cs.takeWhile (· != '='))
  let attached := if cs.contains '=' then some (String.ofList ((cs.dropWhile (· != '=')).drop 1)) else none
  match if isLongName name then findOption params name else none with
  | some p =>
    if p.kind = .switch then
      if attached.isSome then .error (.valueUnwanted name) else .ok ([(p, "")], args)
    else
      match attached, args with
      | some v, _ => .ok ([(p, v)], args)
      | none, v :: args => .ok ([(p, v)], args)
      | none, [] => .error (.valueMissing name)
  | none =>
    if isLongName arg then
      .error (.unknownOption name (Text.similarWords name ((params.flatMap (·.names)).filter isLongName)))
    else letters params cs.tail args

/-- What is given by some arguments. Options may follow arguments without a name only if `mixed`. -/
def matchArguments (params : List Parameter) (mixed : Bool) : Nat → List String → Except UsageError Given
  | 0, _ => .ok {}
  | _, [] => .ok {}
  | fuel + 1, arg :: args =>
    if arg = "--" then .ok { rest := args }
    else if arg.startsWith "-" && arg.length > 1 then do
      let (vs, args) ← optionAt params arg args
      let g ← matchArguments params mixed fuel args
      .ok { g with values := vs ++ g.values }
    else if mixed then do
      let g ← matchArguments params mixed fuel args
      .ok { g with rest := arg :: g.rest }
    else .ok { rest := arg :: args }

/-- How an error names a parameter. -/
def Parameter.hint (p : Parameter) : String :=
  if p.names.isEmpty then "'" ++ p.key ++ "'"
  else " / ".intercalate (p.names.map fun n => "'" ++ n ++ "'")

/-- Why a file cannot be read, as the system says it. -/
def openReason : FileError → String
  | .missing => "No such file or directory"
  | .notDirectory => "Not a directory"
  | .isDirectory => "Is a directory"
  | .exists => "File exists"
  | .nameTooLong _ => "File name too long"
  | .nulInPath => "embedded null byte"

/-- Why a value is not what a parameter has to be; none if it is. -/
def ParameterKind.fault? (files : Files) (value : String) : ParameterKind → Option String
  | .text | .switch => none
  | .number =>
    if (Number.float? value.toList).isSome then none else some (quoteText value ++ " is not a valid float.")
  | .file =>
    match files.lookup value with
    | .ok (.file _) => none
    | .ok (.directory _) => some ("File " ++ quoteText value ++ " is a directory.")
    | .error _ => some ("File " ++ quoteText value ++ " does not exist.")
  | .directory =>
    match files.lookup value with
    | .ok (.directory _) => none
    | .ok (.file _) => some ("Directory " ++ quoteText value ++ " is a file.")
    | .error _ => some ("Directory " ++ quoteText value ++ " does not exist.")
  | .input =>
    if value = "-" then none
    else
      match files.lookup value with
      | .ok (.file _) => none
      | .ok (.directory _) => some ("'" ++ value ++ "': " ++ openReason .isDirectory)
      | .error e => some ("'" ++ value ++ "': " ++ openReason e)

/-- Whether values are looked up as paths. -/
def ParameterKind.isPath : ParameterKind → Bool
  | .file | .directory | .input => true
  | .text | .number | .switch => false

/-- Refuses a value that is not what a parameter has to be; one that no system can look up as a path
is a failure. -/
def check (files : Files) (p : Parameter) (value : String) : Except Stop Unit :=
  if p.kind.isPath && value.toList.contains '\x00' then .error (.failure (.file .nulInPath))
  else
    match p.kind.fault? files value with
    | none => .ok ()
    | some reason => .error (.usage (.invalid p.hint reason))

/-- Values once one is set: in the place of an earlier one of the parameter, else last. -/
def setValue (p : Parameter) (v : String) : List (Parameter × String) → List (Parameter × String)
  | [] => [(p, v)]
  | (q, w) :: vs => if q = p then (p, v) :: vs else (q, w) :: setValue p v vs

/-- The values that count: of several for one parameter the last, in the place of the first. -/
def settle (vs : List (Parameter × String)) : List (Parameter × String) :=
  vs.foldl (fun settled (p, v) => setValue p v settled) []

/-- The values of the parameters of a command. Options are checked in the order in which they were
given, then the arguments without a name; arguments that are left over come last. -/
def values (files : Files) (params : List Parameter) (g : Given) :
    Except Stop (List (Parameter × String)) := do
  let options := settle g.values
  options.forM fun (p, v) => check files p v
  let plain := params.filter (·.names.isEmpty)
  plain.zipIdx.forM fun (p, i) =>
    match g.rest[i]? with
    | some v => check files p v
    | none => .error (.usage (.argumentMissing p.key))
  let left := g.rest.drop plain.length
  if left.isEmpty then .ok (options ++ plain.zip g.rest) else .error (.usage (.argumentsLeft left))

end ScriptService.CommandLine
