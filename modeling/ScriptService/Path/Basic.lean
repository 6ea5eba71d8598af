/-!
# Paths

A path is an anchor and the names behind it. Empty names and single dots are left out when a path
is read; double dots are kept, since only the file system says where they lead. Two leading slashes
differ from one, and three or more count as one.
-/

namespace ScriptService

/-- Where a path starts. -/
inductive Path.Anchor where
  | relative
  | root
  | doubleRoot
deriving DecidableEq

/-- How an anchor is written. -/
def Path.Anchor.text : Path.Anchor → String
  | .relative => ""
  | .root => "/"
  | .doubleRoot => "//"

/-- A path: where it starts and the names that lead on. -/
structure Path where
  anchor : Path.Anchor
  parts : List String
deriving DecidableEq

/-- The pieces between the slashes of a text that continues the piece `cur`, whose characters are in
reverse. -/
def Path.piecesFrom : List Char → List Char → List (List Char)
  | cur, [] => [cur.reverse]
  | cur, c :: s => if c == '/' then cur.reverse :: piecesFrom [] s else piecesFrom (c :: cur) s

/-- The anchor of a path with that many leading slashes. -/
def Path.Anchor.ofSlashes : Nat → Path.Anchor
  | 0 => .relative
  | 2 => .doubleRoot
  | _ => .root

/-- The path that a text stands for. -/
def Path.ofString (s : String) : Path where
  anchor := .ofSlashes (s.toList.takeWhile (· == '/')).length
  parts := ((Path.piecesFrom [] s.toList).filter fun p => p ≠ [] && p ≠ ['.']).map String.ofList

/-- How a path is written; an empty relative path is a dot. -/
def Path.text (p : Path) : String :=
  match p.anchor, p.parts with
  | .relative, [] => "."
  | a, ps => a.text ++ "/".intercalate ps

/-- Whether a path does not depend on the working directory. -/
def Path.isAbsolute (p : Path) : Bool :=
  p.anchor ≠ .relative

/-- The last name of a path. -/
def Path.name (p : Path) : String :=
  p.parts.getLast?.getD ""

/-- A path without its last name. -/
def Path.parent (p : Path) : Path :=
  { p with parts := p.parts.dropLast }

/-- A path that leads on from another; an absolute one starts over. -/
def Path.join (p q : Path) : Path :=
  if q.isAbsolute then q else { p with parts := p.parts ++ q.parts }

/-- The extension of a name: its last dot and what follows, if something does and something stands
before the dot. -/
def Path.extension (name : List Char) : List Char :=
  let ext := (name.reverse.takeWhile (· != '.')).reverse
  if ext.isEmpty || name.length ≤ ext.length + 1 then [] else '.' :: ext

/-- The extension of a path's last name, with its dot. -/
def Path.suffix (p : Path) : String :=
  String.ofList (Path.extension p.name.toList)

/-- A path's last name without its extension. -/
def Path.stem (p : Path) : String :=
  String.ofList (p.name.toList.take (p.name.length - p.suffix.length))

/-- The names of an absolute path once double dots are followed; those above the root stay there. -/
def Path.collapseFrom : List String → List String → List String
  | acc, [] => acc.reverse
  | acc, p :: ps => if p = ".." then collapseFrom acc.tail ps else collapseFrom (p :: acc) ps

/-- The absolute path without double dots that a path leads to from a working directory. -/
def Path.resolve (cwd p : Path) : Path where
  anchor := .root
  parts := Path.collapseFrom [] (cwd.join p).parts

/-- Whether one path leads into or to the directory at another. -/
def Path.within (p dir : Path) : Bool :=
  dir.parts.isPrefixOf p.parts

/-- The names that two lists share from the start on are dropped from both. -/
def Path.dropShared : List String → List String → List String × List String
  | a :: as, b :: bs => if a = b then dropShared as bs else (a :: as, b :: bs)
  | as, bs => (as, bs)

/-- The relative path from one directory to a file, both without double dots. -/
def Path.relativeTo (p dir : Path) : Path :=
  let (up, down) := Path.dropShared dir.parts p.parts
  ⟨.relative, up.map (fun _ => "..") ++ down⟩

end ScriptService
