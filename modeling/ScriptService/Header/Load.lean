import ScriptService.Header.Discovery
import ScriptService.Index.Basic

/-!
# Loading headers

Headers of a workspace make up the dynamic tier. Headers of a directory outside of it are added to
the static tier; a directory that cannot be used changes nothing.
-/

namespace ScriptService

/-- The symbols of one header below a directory; none if it cannot be read. -/
def headerSymbols (files : Files) (dir : Path) (extract : Extractor) (name : String) :
    Except Failure (List Symbol) := do
  match ← sourceText files (dir.join (Path.ofString name)) with
  | none => .ok []
  | some text => .ok (extract text name).symbols

/-- The symbols of all headers of a language below a directory, file by file. -/
def loadHeaders (files : Files) (dir : Path) (language : String) : Except Failure (List Symbol) :=
  match Language.serving? language with
  | none => .ok []
  | some l => do
    let names ← findFiles files dir l.headerExtension
    let parts ← names.mapM (headerSymbols files dir l.extractor)
    .ok parts.flatten

/-- The index with the dynamic tier of a language built from a workspace's headers, and the number of
symbols found. -/
def Index.loadWorkspace (i : Index) (files : Files) (root : Path) (language : String) :
    Except Failure (Nat × Index) := do
  let symbols ← loadHeaders files root language
  .ok (symbols.length, i.setDynamic language symbols)

/-- The path of a header directory, which has to exist and to lie outside a workspace. -/
def checkExternal (files : Files) (workspace dir : String) : Except Failure Path :=
  let p := Path.ofString dir
  match files.isDirectory p with
  | .error (.nameTooLong path) => .error (.headers ⟨dir, .nameTooLong path⟩)
  | .error _ | .ok false => .error (.headers ⟨dir, .notDirectory⟩)
  | .ok true => do
    if ← asFailure .file (isSubpath files.cwd (Path.ofString workspace) p) then
      .error (.headers ⟨dir, .insideWorkspace workspace⟩)
    else .ok p

/-- The index with the headers of a directory outside a workspace added to the static tier of a
language, and the number of symbols found. Nothing changes without a directory, or with one that
cannot be used. -/
def Index.loadExternal (i : Index) (files : Files) (workspace : String) (dir : Value) (language : String) :
    Except Failure (Nat × Index) :=
  if !dir.isGiven then .ok (0, i)
  else
    match dir with
    | .text d =>
      match checkExternal files workspace d with
      | .error (.headers _) => .ok (0, i)
      | .error e => .error e
      | .ok p => do
        let symbols ← loadHeaders files p language
        .ok (symbols.length, i.setStatic language (i.getStatic language ++ symbols))
    | _ => .error .notText

end ScriptService
