import ScriptService.Declaration.Pattern
import ScriptService.Language
import ScriptService.Scan.Rule
import ScriptService.Text.Lines

/-!
# Extraction

The symbols that a text declares, found without understanding its statements: whatever does not
look like a declaration is passed over.
-/

namespace ScriptService

open Text Scan

/-- The symbol of a declaration that was found in a text. -/
def Declaration.symbolIn (text : List Char) (m : Match Declaration) : Symbol :=
  m.value.symbol (lineBreaks (text.take (m.start + m.value.nameOffset)))

/-- The rule that finds declarations of one form. -/
def Declaration.rule (name : String) (p : Pattern Declaration) : Rule Symbol :=
  Rule.ofPattern name (Declaration.withDoc p) fun text m => some (Declaration.symbolIn text m)

/-- Finds the macros and constants of a Fallout script. -/
def Declaration.defines : Rule Symbol := Declaration.rule "macros" Declaration.define

/-- Finds the procedures of a Fallout script. -/
def Declaration.procedures : Rule Symbol := Declaration.rule "procedures" Declaration.procedure

/-- Finds the functions and macros of a WeiDU library. -/
def Declaration.definitions : Rule Symbol := Declaration.rule "macros" Declaration.definition

/-- The symbols of a text, macros and constants apart from procedures. -/
structure Extraction where
  macros : List Symbol := []
  procedures : List Symbol := []

/-- All symbols by line; of those on one line, macros come first. -/
def Extraction.symbols (e : Extraction) : List Symbol :=
  (e.macros ++ e.procedures).mergeSort fun a b => a.line ≤ b.line

/-- How many symbols there are. -/
def Extraction.size (e : Extraction) : Nat :=
  e.macros.length + e.procedures.length

/-- An extraction from a text in one language, whose file is given second. -/
abbrev Extractor := String → String → Extraction

/-- The macros and procedures of a Fallout script. -/
def extractFallout : Extractor := fun text source =>
  { macros := (Declaration.defines.find text.toList).map (·.withSource source)
    procedures := (Declaration.procedures.find text.toList).map (·.withSource source) }

/-- The functions and macros of a WeiDU library. -/
def extractWeidu : Extractor := fun text source =>
  let found := (Declaration.definitions.find text.toList).map (·.withSource source)
  { macros := found.filter (·.kind ≠ .procedure)
    procedures := found.filter (·.kind = .procedure) }

/-- The extraction that serves a language with headers. -/
def Language.extractor : Language → Extractor
  | .falloutSsl => extractFallout
  | .weiduTp2 => extractWeidu

/-- The extraction that serves a document language, if there is one. -/
def extractor? (document : String) : Option Extractor :=
  (Language.serving? document).map Language.extractor

/-- The symbols of a text in a document language; there are none if nothing serves it. -/
def extract (document text source : String) : Extraction :=
  match extractor? document with
  | some run => run text source
  | none => {}

end ScriptService
