import ScriptService.Config.Basic

/-!
# Header directories that cannot be used
-/

namespace ScriptService

/-- Why a header directory cannot be used. -/
inductive HeaderFault where
  | notDirectory
  | insideWorkspace (root : String)
  | nameTooLong (path : String)
deriving DecidableEq

/-- The reason as people read it. -/
def HeaderFault.reason : HeaderFault → String
  | .notDirectory => "not a directory"
  | .insideWorkspace root => "inside workspace " ++ root
  | .nameTooLong path => "stat failed: [Errno 36] File name too long: " ++ quoteText path

/-- What is wrong with a header directory, as it was named. -/
structure HeaderError where
  directory : String
  fault : HeaderFault
deriving DecidableEq

/-- What is said of a header directory that cannot be used for a reason. -/
def headerComplaint (directory reason : String) : String :=
  "Cannot load headers from " ++ directory ++ ": " ++ reason

/-- What is said of a header directory, and the directory once more. -/
def headerMessage (directory reason : String) : String :=
  contextMessage (headerComplaint directory reason) [("headers_dir", directory)]

/-- What an error says. -/
def HeaderError.message (e : HeaderError) : String :=
  headerMessage e.directory e.fault.reason

end ScriptService
