/-!
# Tokens of YAML
-/

namespace ScriptService.Yaml

/-- A token. -/
inductive Token where
  | version (major : Nat)
  | tagHandle (handle lead : String)
  | otherDirective
  | documentStart
  | documentEnd
  | blockSequenceStart
  | blockMappingStart
  | blockEnd
  | flowSequenceStart
  | flowSequenceEnd
  | flowMappingStart
  | flowMappingEnd
  | flowEntry
  | blockEntry
  | key
  | value
  | alias (name : String)
  | anchor (name : String)
  | tag (handle : Option String) (suffix : String)
  /-- A scalar, whose text is kept as code points. -/
  | scalar (text : List Nat) (plain : Bool)
  | streamEnd
deriving DecidableEq

end ScriptService.Yaml
