import ScriptService.Cursor.Call
import ScriptService.Service.Basic
import ScriptService.Symbol.Display

/-!
# Queries

What the service answers about names: completions, what a name stands for, where it is declared and
the signature of the call around a cursor.
-/

namespace ScriptService

/-- Where a name is declared. -/
structure Location where
  uri : String
  line : Int
deriving DecidableEq

/-- The signature of a call and the argument at hand. -/
structure SignatureHelp where
  signature : SignatureInfo
  parameter : Nat

namespace Service

/-- The identifier of the data language that serves a document language. -/
def dataId (language : String) : String :=
  (DataLanguage.serving language).id

/-- The names offered in a document. -/
def completions (s : Service) (language path : String) : List Completion :=
  (s.index.visible (dataId language) path).map (·.completion (dataId language))

/-- What a word in a document stands for. -/
def hover (s : Service) (language path word : String) : Option Hover :=
  (s.index.query? (dataId language) path word).map (·.hover (dataId language))

/-- The file that declares a symbol of a tier: one of the document's own stands in the document, one
of the static tier below the header directory, any other below the workspace. -/
def declaringFile (s : Service) (path : String) : Tier → Symbol → Except Failure Path
  | .self, _ => .ok (s.root.join (Path.ofString path))
  | .static, symbol => do
    .ok ((← Command.path s.config.fallout.headersDirectory).join (Path.ofString symbol.source))
  | .dynamic, symbol => .ok (s.root.join (Path.ofString symbol.source))

/-- Where a word in a document is declared, for a working directory. -/
def definition (s : Service) (cwd : Path) (language path word : String) :
    Except Failure (Option Location) :=
  match s.index.locate? (dataId language) path word with
  | none => .ok none
  | some (tier, symbol) => do
    let file ← s.declaringFile path tier symbol
    let uri ← asFailure .uri (Uri.ofPath cwd file)
    .ok (some ⟨uri, symbol.line⟩)

/-- What the word at a cursor stands for. -/
def hoverAt (s : Service) (language path text : String) (line character : Int) :
    Except Failure (Option Hover) := do
  if s.index.hasData (dataId language) path then
    let word ← asFailure .cursor (symbolAt? text line character)
    .ok (word.bind (s.hover language path))
  else .ok none

/-- The signature of the call around a cursor. -/
def signatureHelp (s : Service) (language path text : String) (line character : Int) :
    Option SignatureHelp := do
  let call ← callAt? text line character
  let symbol ← s.index.query? (dataId language) path call.label
  let info ← symbol.signatureInfo?
  some ⟨info, call.parameter⟩

end Service

end ScriptService
