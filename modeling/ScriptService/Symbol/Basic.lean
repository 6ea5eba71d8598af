import ScriptService.Doc.Basic

/-!
# Symbols

A symbol is a declared name with what an editor shows of it: its kind, its signature line, the file
and line of its declaration and its documentation.
-/

namespace ScriptService

/-- The kind of a declaration. -/
inductive SymbolKind where
  | constant
  | functionMacro
  | procedure
deriving DecidableEq

/-- The kind's name. -/
def SymbolKind.name : SymbolKind → String
  | .constant => "constant"
  | .functionMacro => "macro"
  | .procedure => "procedure"

/-- The kind with a given name. -/
def SymbolKind.ofName? (s : String) : Option SymbolKind :=
  [constant, functionMacro, procedure].find? (·.name = s)

/-- A declared name. -/
structure Symbol where
  name : String
  kind : SymbolKind
  /-- The signature line. -/
  detail : String
  /-- The declaring file, relative to the directory it was found in. -/
  source : String := ""
  doc : Option Doc := none
  /-- The line of the declaration, counted from zero. -/
  line : Int := 0
  /-- The first line of a macro's body. -/
  value : String := ""
  /-- Whether a macro's body goes on behind its first line. -/
  multiline : Bool := false
deriving DecidableEq

/-- The symbol as declared in another file. -/
def Symbol.withSource (s : Symbol) (source : String) : Symbol :=
  { s with source := source }

/-- The signature line of a declaration: the value of a constant, else the signature that the
documentation gives, else the declaration as it stands. -/
def signatureLine (name written : String) (doc : Option Doc) (constant : Option String) : String :=
  match constant, doc with
  | some value, _ => value
  | none, some d => d.signature name
  | none, none => written

end ScriptService
