import ScriptService.Value.Literal

/-!
# Configuration

The settings of the two compilers and when to compile. Settings are taken as they stand, of whatever
type; only that sections are mappings and flags are truth values is checked, in a fixed order.
-/

namespace ScriptService

/-- Settings of the Fallout compiler and of headers. -/
structure FalloutSettings where
  compilePath : Value := .text "compile"
  compileOptions : Value := .text "-q -p -l -O2 -XXXXX"
  outputDirectory : Value := .text ""
  headersDirectory : Value := .text ""

/-- Settings of WeiDU. -/
structure WeiduSettings where
  path : Value := .text "weidu"
  gamePath : Value := .text ""

/-- A configuration. -/
structure Config where
  fallout : FalloutSettings := {}
  weidu : WeiduSettings := {}
  validateOnSave : Bool := true
  validateOnChange : Bool := false

/-- A message with what it is about in parentheses. -/
def contextMessage (message : String) (context : List (String × String)) : String :=
  if context.isEmpty then message
  else message ++ " (" ++ ", ".intercalate (context.map fun (k, v) => k ++ "=" ++ v) ++ ")"

/-- What is wrong with a configuration. -/
inductive ConfigError where
  | notMapping (type : String)
  | sectionNotMapping (name type : String)
  | flagNotTruthValue (key : String) (value : String)
  /-- A flag holds a value that cannot be written in a message. -/
  | flagUnwritable (e : ReadError)
  | unreadable (path : String)
deriving DecidableEq

/-- What an error says. -/
def ConfigError.message : ConfigError → String
  | .notMapping type => contextMessage "Configuration must be a mapping" [("type", type)]
  | .sectionNotMapping name type =>
    contextMessage "Configuration section must be a mapping" [("section", name), ("type", type)]
  | .flagNotTruthValue key value =>
    contextMessage "Configuration flag must be true or false" [("key", key), ("value", value)]
  | .flagUnwritable _ => "Configuration flag must be true or false"
  | .unreadable path => "Failed to parse configuration file: " ++ path

namespace Config

/-- The entries of a section; a missing or null section has none. -/
def section? (entries : List (Value × Value)) (name : String) :
    Except ConfigError (List (Value × Value)) :=
  match Value.lookup? name entries with
  | none | some .null => .ok []
  | some (.mapping es) => .ok es
  | some v => .error (.sectionNotMapping name v.typeName)

/-- The value of a flag; a missing or null flag has its default. Any other value is refused, and written
in a message that has room for a number of values inside one another. -/
def flag? (room : Nat) (entries : List (Value × Value)) (key : String) (default : Bool) :
    Except ConfigError Bool :=
  match Value.lookup? key entries with
  | none | some .null => .ok default
  | some (.bool b) => .ok b
  | some v => .error ((v.fault? room).elim (.flagNotTruthValue key v.literal) .flagUnwritable)

/-- The configuration that a value describes. -/
def ofValue (room : Nat) : Value → Except ConfigError Config
  | .mapping es => do
    let fallout ← section? es "fallout"
    let weidu ← section? es "weidu"
    let setting := fun (section_ : List (Value × Value)) key default =>
      (Value.lookup? key section_).getD default
    let base : FalloutSettings := {}
    let baseWeidu : WeiduSettings := {}
    let validateOnSave ← flag? room es "validate_on_save" true
    let validateOnChange ← flag? room es "validate_on_change" false
    .ok {
      fallout :=
        { compilePath := setting fallout "compile_path" base.compilePath
          compileOptions := setting fallout "compile_options" base.compileOptions
          outputDirectory := setting fallout "output_directory" base.outputDirectory
          headersDirectory := setting fallout "headers_directory" base.headersDirectory }
      weidu :=
        { path := setting weidu "path" baseWeidu.path
          gamePath := setting weidu "game_path" baseWeidu.gamePath }
      validateOnSave, validateOnChange }
  | v => .error (.notMapping v.typeName)

/-- A mapping with text keys. -/
def textMapping (entries : List (String × Value)) : Value :=
  .mapping (entries.map fun (k, v) => (.text k, v))

/-- The value that describes a configuration. -/
def toValue (c : Config) : Value :=
  textMapping [
    ("fallout", textMapping [
      ("compile_path", c.fallout.compilePath),
      ("compile_options", c.fallout.compileOptions),
      ("output_directory", c.fallout.outputDirectory),
      ("headers_directory", c.fallout.headersDirectory)]),
    ("weidu", textMapping [("path", c.weidu.path), ("game_path", c.weidu.gamePath)]),
    ("validate_on_save", .bool c.validateOnSave),
    ("validate_on_change", .bool c.validateOnChange)]

end Config

end ScriptService
