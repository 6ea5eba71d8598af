import ScriptService.Doc.Comment
import ScriptService.Symbol.Basic

/-!
# Declarations

A declaration as it stands in a text, and the symbol it declares.
-/

namespace ScriptService

open Text

/-- Where a definition may be called. -/
inductive Scope where
  | action
  | patch
deriving DecidableEq

/-- The scope's keyword. -/
def Scope.keyword : Scope → String
  | .action => "ACTION"
  | .patch => "PATCH"

/-- The scope's name in a signature line. -/
def Scope.name : Scope → String
  | .action => "action"
  | .patch => "patch"

/-- What kind of code a definition holds. -/
inductive Callable where
  | function
  | expansion
deriving DecidableEq

/-- The keyword of the kind of code. -/
def Callable.keyword : Callable → String
  | .function => "FUNCTION"
  | .expansion => "MACRO"

/-- The name of the kind of code in a signature line. -/
def Callable.name : Callable → String
  | .function => "function"
  | .expansion => "macro"

/-- The parts of a declaration that its form fixes. -/
inductive Form where
  /-- A macro, `#define NAME(params) value`. -/
  | define (params : Option (List Char)) (value : List Char)
  /-- A procedure, `procedure NAME(params) begin`. -/
  | procedure (params : List Char)
  /-- A definition, `DEFINE_SCOPE_CALLABLE NAME header BEGIN`. -/
  | definition (scope : Scope) (callable : Callable) (header : List Char)

/-- A declaration: the comment in front of it, its name, how far behind its start the name stands,
and its form. -/
structure Declaration where
  doc : Option (List Char) := none
  name : List Char
  nameOffset : Nat
  form : Form

/-- Whether a macro's name is that of a constant: capital letters, digits and underscores. -/
def isConstantName (name : List Char) : Bool :=
  !name.isEmpty && name.all fun c => c.isUpper || c.isDigit || c == '_'

/-- The symbol of a macro. A macro is a constant when its body is one line and its name is a
constant's. -/
def defineSymbol (name : List Char) (params : Option (List Char)) (body : List Char)
    (doc : Option Doc) (line : Nat) : Symbol :=
  let value := trimRight body
  let multiline := value.getLast? == some '\\'
  let constant := !multiline && isConstantName name
  let title := String.ofList name
  let written := String.ofList (name ++ params.elim [] fun ps => '(' :: ps ++ [')'])
  { name := title
    kind := if constant then .constant else .functionMacro
    detail := signatureLine title written doc (if constant then some (String.ofList value) else none)
    doc, line, value := String.ofList value, multiline }

/-- The symbol of a procedure. -/
def procedureSymbol (name params : List Char) (doc : Option Doc) (line : Nat) : Symbol :=
  let title := String.ofList name
  let written := "procedure " ++ title ++ "(" ++ String.ofList (collapse params) ++ ")"
  { name := title, kind := .procedure, detail := signatureLine title written doc none, doc, line }

/-- The symbol of a definition. -/
def definitionSymbol (name : List Char) (scope : Scope) (callable : Callable) (header : List Char)
    (doc : Option Doc) (line : Nat) : Symbol :=
  let title := String.ofList name
  let header := collapse header
  let written := scope.name ++ " " ++ callable.name ++ " " ++ title ++
    String.ofList (if header.isEmpty then [] else ' ' :: header)
  { name := title
    kind := match callable with | .function => .procedure | .expansion => .functionMacro
    detail := signatureLine title written doc none
    doc, line }

/-- The symbol that a declaration on a given line declares. -/
def Declaration.symbol (d : Declaration) (line : Nat) : Symbol :=
  let doc := d.doc.map Doc.ofComment
  match d.form with
  | .define params value => defineSymbol d.name params value doc line
  | .procedure params => procedureSymbol d.name params doc line
  | .definition scope callable header => definitionSymbol d.name scope callable header doc line

end ScriptService
