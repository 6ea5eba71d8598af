import ScriptService.Path.Basic
import ScriptService.Text.Lowercase

/-!
# Languages

An editor names the language of each document. Several of them share the symbols of one data
language, and documents of other languages share none with these. Two data languages have headers
and an extraction; files are told by their extensions.
-/

namespace ScriptService

/-- A language whose symbols serve documents. -/
inductive DataLanguage where
  | weiduTp2
  | weiduD
  | weiduBaf
  | falloutSsl
  | unclaimed
deriving DecidableEq

/-- The identifier of a data language. -/
def DataLanguage.id : DataLanguage → String
  | .weiduTp2 => "weidu-tp2"
  | .weiduD => "weidu-d"
  | .weiduBaf => "weidu-baf"
  | .falloutSsl => "fallout-ssl"
  | .unclaimed => "c++"

/-- The document languages that a data language serves. -/
def DataLanguage.documents : DataLanguage → List String
  | .weiduTp2 => ["weidu-tp2", "weidu-tp2-tpl"]
  | .weiduD => ["weidu-d", "weidu-d-tpl"]
  | .weiduBaf => ["weidu-baf", "weidu-baf-tpl", "weidu-ssl", "weidu-slb"]
  | .falloutSsl => ["fallout-ssl", "fallout-ssl-hover"]
  | .unclaimed => []

/-- The data language that serves a document language. -/
def DataLanguage.serving (document : String) : DataLanguage :=
  ([.weiduTp2, .weiduD, .weiduBaf, .falloutSsl].find?
    fun d : DataLanguage => document ∈ d.documents).getD .unclaimed

/-- Whether a data language is compiled by WeiDU. -/
def DataLanguage.isWeidu : DataLanguage → Bool
  | .weiduTp2 | .weiduD | .weiduBaf => true
  | .falloutSsl | .unclaimed => false

/-- A data language with headers and an extraction of symbols. -/
inductive Language where
  | falloutSsl
  | weiduTp2
deriving DecidableEq

/-- All languages with an extraction, in the order in which their headers are loaded. -/
def Language.all : List Language := [.falloutSsl, .weiduTp2]

/-- The language as a data language. -/
def Language.data : Language → DataLanguage
  | .falloutSsl => .falloutSsl
  | .weiduTp2 => .weiduTp2

/-- The identifier of a language. -/
def Language.id (l : Language) : String := l.data.id

/-- The language whose extraction serves a document language. -/
def Language.serving? (document : String) : Option Language :=
  Language.all.find? fun l => l.data = DataLanguage.serving document

/-- The name shown to people. -/
def Language.displayName : Language → String
  | .falloutSsl => "Fallout SSL"
  | .weiduTp2 => "WeiDU TP2"

/-- The extension of a language's headers, without its dot. -/
def Language.headerExtension : Language → String
  | .falloutSsl => "h"
  | .weiduTp2 => "tph"

/-- The extensions of a language's sources. -/
def Language.sourceExtensions : Language → List String
  | .falloutSsl => [".ssl"]
  | .weiduTp2 => [".tp2", ".tph", ".tpa", ".tpp"]

/-- The tag of the block that names a symbol's file in rendered text. -/
def commentFence : String := "bgforge-mls-comment"

/-- The extension of a path in small letters. -/
def Path.lowerSuffix (p : Path) : String := Text.lower p.suffix

/-- Whether a path is that of a header. -/
def Language.isHeader (l : Language) (p : Path) : Bool :=
  p.lowerSuffix = "." ++ l.headerExtension

/-- Whether a path is that of a source. -/
def Language.isSource (l : Language) (p : Path) : Bool :=
  p.lowerSuffix ∈ l.sourceExtensions

/-- The kind of check that WeiDU makes on a file. -/
inductive ParseKind where
  | tp2
  | d
  | baf
deriving DecidableEq

/-- How a kind of check is named on a command line. -/
def ParseKind.text : ParseKind → String
  | .tp2 => "TP2"
  | .d => "D"
  | .baf => "BAF"

/-- The kind of check for a file, if WeiDU checks it. -/
def ParseKind.of? (p : Path) : Option ParseKind :=
  match p.lowerSuffix with
  | ".tp2" | ".tph" | ".tpa" | ".tpp" => some .tp2
  | ".d" => some .d
  | ".baf" => some .baf
  | _ => none

/-- The document language of a file, as far as its extension tells. -/
def guessLanguage? (p : Path) : Option String :=
  match p.lowerSuffix with
  | ".ssl" | ".h" => some "fallout-ssl"
  | ".tp2" | ".tph" | ".tpa" | ".tpp" => some "weidu-tp2"
  | ".d" => some "weidu-d"
  | ".baf" => some "weidu-baf"
  | _ => none

end ScriptService
