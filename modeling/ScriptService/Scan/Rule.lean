import ScriptService.Scan.Pattern

/-!
# Rules and rule sets

A rule names what it looks for and says what a text holds of it. The names of a set's rules are
distinct, so that results can be looked up by them.
-/

namespace ScriptService.Scan

/-- A named search for values in a text. -/
structure Rule (α : Type) where
  name : String
  find : List Char → List α

/-- The rule that scans for a pattern, and builds a value from a match or passes it over. -/
def Rule.ofPattern {α β : Type} (name : String) (p : Pattern β)
    (build : List Char → Match β → Option α) : Rule α :=
  ⟨name, fun text => (p.scan text).filterMap (build text)⟩

/-- Rules in order, with distinct names. -/
structure RuleSet (α : Type) where
  rules : List (Rule α)
  distinct : (rules.map Rule.name).Nodup

/-- The rules as a set, unless two share a name. -/
def RuleSet.ofRules? {α : Type} (rules : List (Rule α)) : Option (RuleSet α) :=
  if h : (rules.map Rule.name).Nodup then some ⟨rules, h⟩ else none

/-- The names of the rules, in order. -/
def RuleSet.names {α : Type} (s : RuleSet α) : List String :=
  s.rules.map Rule.name

/-- What each rule finds in a text. -/
def RuleSet.scan {α : Type} (s : RuleSet α) (text : List Char) : List (String × List α) :=
  s.rules.map fun r => (r.name, r.find text)

end ScriptService.Scan
