import ScriptService.Language
import ScriptService.Symbol.Basic

/-!
# What an editor shows of a symbol

The signature line, hover text, completion and signature entries of a symbol.
-/

namespace ScriptService

/-- The icon of a completion entry. -/
inductive CompletionIcon where
  | function
  | field
  | constant
deriving DecidableEq

/-- The number by which editors know an icon. -/
def CompletionIcon.code : CompletionIcon → Nat
  | .function => 3
  | .field => 5
  | .constant => 21

/-- The name of an icon. -/
def CompletionIcon.name : CompletionIcon → String
  | .function => "Function"
  | .field => "Field"
  | .constant => "Constant"

/-- A completion entry. -/
structure Completion where
  label : String
  icon : CompletionIcon
  detail : String
  documentation : String
  source : Option String

/-- Hover text. -/
structure Hover where
  contents : String
  source : Option String

/-- The signature of a callable symbol. -/
structure SignatureInfo where
  label : String
  parameters : List String
  documentation : Option String

namespace Symbol

/-- The signature line of a symbol. -/
def displayLine (s : Symbol) : String :=
  signatureLine s.name s.detail s.doc (if s.kind = .constant then some s.value else none)

end Symbol

/-- A parameter in rendered text. -/
def Doc.Param.markdown (p : Doc.Param) : String :=
  "\n- `" ++ p.type ++ "` " ++ p.name ++ (if p.description.isEmpty then "" else ": " ++ p.description)

/-- Documentation in rendered text, set off from what stands above it. -/
def Doc.markdown (d : Doc) : String :=
  "\n---\n" ++
    (if d.deprecated then "\n**Deprecated**\n" else "") ++
    (match d.description with
      | some text => if text.isEmpty then "" else "\n" ++ text
      | none => "") ++
    String.join (d.params.map Doc.Param.markdown) ++
    (d.returns.elim "" fun r => "\n\n Returns `" ++ r.type ++ "`")

namespace Symbol

/-- A block of rendered text with a tag. -/
def fenced (tag text : String) : String :=
  "```" ++ tag ++ "\n" ++ text ++ "\n```"

/-- The hover text of a symbol: its signature line, its file, a one-line macro's body and its
documentation. -/
def markdown (s : Symbol) (language : String) : String :=
  fenced language s.displayLine ++
    (if s.source.isEmpty then "" else "\n\n" ++ fenced commentFence s.source) ++
    (if s.kind = .functionMacro ∧ s.multiline = false ∧ s.value.isEmpty = false then
      "\n" ++ fenced language s.value else "") ++
    (match s.doc with
      | some d => if d.isEmpty then "" else d.markdown
      | none => "")

/-- The file of a symbol, if it is known. -/
def knownSource (s : Symbol) : Option String :=
  if s.source.isEmpty then none else some s.source

/-- The icon of a symbol. -/
def icon (s : Symbol) : CompletionIcon :=
  match s.kind with
  | .constant => .constant
  | .procedure => .function
  | .functionMacro => .field

/-- The completion entry of a symbol. -/
def completion (s : Symbol) (language : String) : Completion where
  label := s.name
  icon := s.icon
  detail := s.displayLine
  documentation := s.markdown language
  source := s.knownSource

/-- The hover entry of a symbol. -/
def hover (s : Symbol) (language : String) : Hover where
  contents := s.markdown language
  source := s.knownSource

/-- The signature entry of a documented symbol. -/
def signatureInfo? (s : Symbol) : Option SignatureInfo :=
  s.doc.map fun d => ⟨s.detail, d.params.map Doc.Param.label, d.description⟩

end Symbol

end ScriptService
