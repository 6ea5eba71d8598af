import ScriptService.Command.Words
import ScriptService.Cursor.Token
import ScriptService.Files.Tree
import ScriptService.Header.Error
import ScriptService.Path.Uri
import ScriptService.Value.ReadError

/-!
# Failures

Why a request has no answer, whatever part of the service it comes from.
-/

namespace ScriptService

/-- Why a request has no answer. -/
inductive Failure where
  | config (e : ConfigError)
  | headers (e : HeaderError)
  /-- A compiler could not be started. -/
  | noCompiler (program : String)
  | file (e : FileError)
  /-- A search meets a directory that stands too deep below others to be entered. -/
  | searchTooDeep
  /-- A file is not in the encoding that it has to be in. -/
  | undecodable
  | value (e : ReadError)
  | words (e : Words.Error)
  | uri (e : Uri.Error)
  | cursor (e : CursorError)
  /-- A setting that names a path or an argument is no text. -/
  | notText
  /-- A setting that holds a command line is no text. -/
  | notCommandLine
  /-- A command has no words. -/
  | emptyCommand
deriving DecidableEq

/-- The failure that an error of a configuration is. A value that cannot be written is a failure of its
own. -/
def Failure.ofConfigError : ConfigError → Failure
  | .flagUnwritable e => .value e
  | e => .config e

/-- What a failure says, where it says something. -/
def Failure.message? : Failure → Option String
  | .config e => some e.message
  | .headers e => some e.message
  | .noCompiler program => some ("Compiler not available: " ++ program)
  | .file .nulInPath => some "embedded null byte"
  | .value (.noValue reason) => some reason
  | .words e => some e.message
  | .uri e => some e.message
  | _ => none

/-- A result with its error as a failure. -/
def asFailure {ε α : Type} (wrap : ε → Failure) : Except ε α → Except Failure α
  | .ok a => .ok a
  | .error e => .error (wrap e)

end ScriptService
