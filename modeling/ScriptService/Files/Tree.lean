import ScriptService.Path.Basic
import ScriptService.Text.Utf8

/-!
# Files

A tree of directories and files, and looking up, writing and deleting in it. Double dots lead to the
parent of a directory that exists; those above the root stay there.
-/

namespace ScriptService

/-- A file or a directory. -/
inductive Node where
  | file (bytes : List UInt8)
  | directory (entries : List (String × Node))

/-- Why a path leads to nothing. -/
inductive FileError where
  | missing
  | notDirectory
  | isDirectory
  | exists
  | nameTooLong (path : String)
  | nulInPath
deriving DecidableEq

namespace Node

/-- The entry of a directory with a name. -/
def child? : Node → String → Option Node
  | .file _, _ => none
  | .directory es, name => es.lookup name

/-- Whether a node is a directory. -/
def isDirectory : Node → Bool
  | .file _ => false
  | .directory _ => true

/-- Entries once the one with a name is replaced. -/
def setEntry (name : String) (n : Node) : List (String × Node) → List (String × Node)
  | [] => [(name, n)]
  | (k, m) :: es => if k = name then (name, n) :: es else (k, m) :: setEntry name n es

/-- A tree with a node put at the end of a way of names; directories on the way are made. -/
def put (n : Node) : List String → Node → Node
  | [], _ => n
  | name :: names, .directory es =>
    .directory (setEntry name (put n names ((es.lookup name).getD (.directory []))) es)
  | name :: names, .file _ => .directory [(name, put n names (.directory []))]

/-- A tree without the node at the end of a way of names. -/
def erase : List String → Node → Node
  | [name], .directory es => .directory (es.filter (·.1 ≠ name))
  | name :: names, .directory es =>
    match es.lookup name with
    | some m => .directory (setEntry name (erase names m) es)
    | none => .directory es
  | _, n => n

mutual
/-- The ways of names to all files of a tree. -/
def files : Node → List (List String)
  | .file _ => [[]]
  | .directory es => entryFiles es

/-- The ways of names to all files of some entries. -/
def entryFiles : List (String × Node) → List (List String)
  | [] => []
  | (name, n) :: es => (files n).map (name :: ·) ++ entryFiles es
end

end Node

/-- The longest name of a file, in bytes. -/
def maxNameLength : Nat := 255

/-- The longest path that can be looked up, in bytes. -/
def maxPathLength : Nat := 4095

/-- A tree of files and the directory to start from. -/
structure Files where
  root : Node
  cwd : Path
  /-- How many directories inside one another a search of them can enter. -/
  depth : Nat

namespace Files

/-- The nodes from one at the end of a way of names up to the root, given those at its start.
Empty names and dots stay at a directory, which must be one. -/
def walk (path : String) : List Node → List String → Except FileError (List Node)
  | stack, [] => .ok stack
  | [], _ :: _ => .error .missing
  | .file _ :: _, _ :: _ => .error .notDirectory
  | .directory es :: above, name :: names =>
    if name = "" || name = "." then walk path (.directory es :: above) names
    else if name = ".." then walk path (if above.isEmpty then [.directory es] else above) names
    else if Text.utf8Length name > maxNameLength then .error (.nameTooLong path)
    else match es.lookup name with
      | none => .error .missing
      | some n => walk path (n :: .directory es :: above) names

/-- The node at a path as it is written. -/
def lookup (f : Files) (path : String) : Except FileError Node := do
  if path.toList.contains '\x00' then .error .nulInPath
  else if path.isEmpty then .error .missing
  else if Text.utf8Length path > maxPathLength then .error (.nameTooLong path)
  else
    let names := (Path.piecesFrom [] path.toList).map String.ofList
    let start ← if path.startsWith "/" then pure [f.root] else walk path [f.root] f.cwd.parts
    match ← walk path start names with
    | n :: _ => .ok n
    | [] => .error .missing

/-- The node at a path. -/
def stat (f : Files) (p : Path) : Except FileError Node :=
  f.lookup p.text

/-- The node at a path, if there is one; only a name that is too long is an error. -/
def probe (f : Files) (p : Path) : Except FileError (Option Node) :=
  match f.stat p with
  | .ok n => .ok (some n)
  | .error (.nameTooLong path) => .error (.nameTooLong path)
  | .error _ => .ok none

/-- Whether a directory is at a path. -/
def isDirectory (f : Files) (p : Path) : Except FileError Bool :=
  (f.probe p).map (·.any Node.isDirectory)

/-- Whether a file is at a path. -/
def isFile (f : Files) (p : Path) : Except FileError Bool :=
  (f.probe p).map (·.any (!·.isDirectory))

/-- The bytes of the file at a path. -/
def read (f : Files) (p : Path) : Except FileError (List UInt8) := do
  match ← f.stat p with
  | .file bytes => .ok bytes
  | .directory _ => .error .isDirectory

/-- The files once one is written; directories on the way are made. -/
def put (f : Files) (p : Path) (n : Node) : Files :=
  { f with root := Node.put n (Path.resolve f.cwd p).parts f.root }

/-- The files without the one at a path. -/
def erase (f : Files) (p : Path) : Files :=
  { f with root := Node.erase (Path.resolve f.cwd p).parts f.root }

/-- The files once a directory is made in one that exists, where nothing stands yet. -/
def makeDirectory (f : Files) (p : Path) : Except FileError Files :=
  match f.stat p with
  | .ok _ => .error .exists
  | .error .missing => do
    match ← f.stat p.parent with
    | .directory _ => .ok (f.put p (.directory []))
    | .file _ => .error .notDirectory
  | .error e => .error e

/-- The files as they are if a directory is at a path where none could be made, else why. -/
def orDirectory (f : Files) (p : Path) (e : FileError) : Except FileError Files := do
  if ← f.isDirectory p then .ok f else .error e

/-- The files once a directory is made where nothing but a directory stands, with those that lead to
it, `depth` of them at most. Double dots lead back from a directory only once it is made. -/
def makeDirectories (f : Files) : Nat → Path → Except FileError Files
  | depth, p =>
    match f.makeDirectory p, depth with
    | .ok f, _ => .ok f
    | .error .missing, depth + 1 => do
      let f ← makeDirectories f depth p.parent
      match f.makeDirectory p with
      | .ok f => .ok f
      | .error .missing => .error .missing
      | .error e => f.orDirectory p e
    | .error .missing, 0 => .error .missing
    | .error e, _ => f.orDirectory p e

/-- The files once one is saved, unless something else stands in the way; directories that lead to it
are made. -/
def save (f : Files) (p : Path) (bytes : List UInt8) : Except FileError Files := do
  let f ← f.makeDirectories p.parts.length p.parent
  match f.stat p with
  | .ok (.directory _) => .error .isDirectory
  | .ok (.file _) | .error .missing => .ok (f.put p (.file bytes))
  | .error e => .error e

/-- The files once the one at a path is deleted. -/
def remove (f : Files) (p : Path) : Except FileError Files := do
  match ← f.stat p with
  | .file _ => .ok (f.erase p)
  | .directory _ => .error .isDirectory

end Files

end ScriptService
