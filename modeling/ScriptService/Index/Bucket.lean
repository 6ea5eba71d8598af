import ScriptService.Declaration.Extract

/-!
# Buckets

A bucket is a list of symbols in which no two share both name and file. Of symbols that do, the last
one is kept, in the place of the first.
-/

namespace ScriptService

/-- Whether two symbols have the same name and file. -/
def Symbol.sameKey (a b : Symbol) : Bool :=
  a.name == b.name && a.source == b.source

/-- Symbols in which no two share name and file. -/
abbrev Bucket := List Symbol

/-- A bucket once a symbol is put into it: in the place of the one with its name and file, else at
the end. -/
def Bucket.put (s : Symbol) : Bucket → Bucket
  | [] => [s]
  | t :: b => if t.sameKey s then s :: b else t :: Bucket.put s b

/-- The bucket of some symbols. -/
def Bucket.ofSymbols (symbols : List Symbol) : Bucket :=
  symbols.foldl (fun b s => Bucket.put s b) []

/-- The symbol that answers for a name: the last one of that name. -/
def Bucket.find? (b : Bucket) (name : String) : Option Symbol :=
  b.reverse.find? (·.name = name)

/-- The bucket after a file has changed: the symbols of other files, then those of its new text. -/
def Bucket.reload (b : List Symbol) (path text : String) (extract : Extractor) : Bucket :=
  Bucket.ofSymbols <|
    b.filter (·.source ≠ path) ++ ((extract text path).symbols.map (·.withSource path))

end ScriptService
