import ScriptService.Failure
import ScriptService.Language
import ScriptService.Text.Lines

/-!
# Finding and reading files
-/

namespace ScriptService

/-- An extension in small letters, with one dot in front. -/
def dottedExtension (extension : String) : String :=
  "." ++ String.ofList ((Text.lower extension).toList.dropWhile (· == '.'))

/-- Names that lead from a directory to a file, as a path. -/
def relativeText (names : List String) : String :=
  "/".intercalate names

/-- A step of a search: it lists the directory at the end of a way of names, or asks what stands
there. -/
inductive SearchStep where
  | list (names : List String)
  | ask (names : List String)

/-- A step of a search in an entry with a name, as one of the search that met the entry. -/
def SearchStep.below (name : String) : SearchStep → SearchStep
  | .list names => .list (name :: names)
  | .ask names => .ask (name :: names)

mutual
/-- The steps of a search below a node: a directory is listed, the entries whose names are wanted are
asked for, and then the search goes on in each entry. -/
def Node.searchSteps (wanted : String → Bool) : Node → List SearchStep
  | .file _ => []
  | .directory es =>
    .list [] :: (((es.map Prod.fst).filter wanted).map fun name => .ask [name]) ++ entrySearchSteps wanted es

/-- The steps of a search in each of some entries. -/
def Node.entrySearchSteps (wanted : String → Bool) : List (String × Node) → List SearchStep
  | [] => []
  | (name, n) :: es => (n.searchSteps wanted).map (.below name) ++ entrySearchSteps wanted es
end

namespace Files

/-- Refuses a path that is too long to be looked up. -/
def checkLength (p : Path) : Except Failure Unit :=
  if Text.utf8Length p.text > maxPathLength then .error (.file (.nameTooLong p.text)) else .ok ()

/-- Makes a step of a search below a directory. -/
def searchStep (f : Files) (dir : Path) : SearchStep → Except Failure Unit
  | .list names =>
    if names.length > f.depth then .error .searchTooDeep else checkLength (dir.join ⟨.relative, names⟩)
  | .ask names => checkLength (dir.join ⟨.relative, names⟩)

end Files

/-- Whether a name ends in an extension, in any case of letters. -/
def hasExtension (extension name : String) : Bool :=
  Path.lowerSuffix ⟨.relative, [name]⟩ = dottedExtension extension

/-- The files below a directory with some entries that have an extension, in any case of letters, as
paths from the directory in order. -/
def listing (extension : String) (es : List (String × Node)) : List String :=
  let found := (Node.entryFiles es).filter fun names =>
    Path.lowerSuffix ⟨.relative, names⟩ = dottedExtension extension
  (found.map relativeText).mergeSort fun a b => !(b < a)

/-- The files below a directory with an extension; none where there is no directory. One path that is
too long for the search fails it as a whole. -/
def findFiles (files : Files) (dir : Path) (extension : String) : Except Failure (List String) := do
  match ← asFailure .file (files.probe dir) with
  | some (.directory es) =>
    (Node.searchSteps (hasExtension extension) (.directory es)).forM (files.searchStep dir)
    .ok (listing extension es)
  | _ => .ok []

/-- Refuses a path that no system can look up. -/
def checkNul (p : Path) : Except FileError Unit :=
  if p.text.toList.contains '\x00' then .error .nulInPath else .ok ()

/-- Whether one path leads into or to the directory that another leads to. -/
def isSubpath (cwd outer inner : Path) : Except FileError Bool := do
  checkNul outer
  checkNul inner
  .ok ((Path.resolve cwd inner).within (Path.resolve cwd outer))

/-- A source file's text, with line ends unified: bytes that are no UTF-8 stand for one character
each. Nothing if there is no such file. -/
def sourceText (files : Files) (p : Path) : Except Failure (Option String) :=
  match files.read p with
  | .ok bytes =>
    let cs := (Text.decodeUtf8? bytes).getD (Text.decodeLatin1 bytes)
    .ok (some (String.ofList (Text.unifyNewlines cs)))
  | .error .nulInPath => .error (.file .nulInPath)
  | .error _ => .ok none

end ScriptService
