import ScriptService.Index.Bucket

/-!
# The symbol index

Symbols live in three tiers: those of each open file, those of headers outside the workspace and
those of headers in it, the latter two by data language. A name is looked up in that order, and the
first tier that has it answers.
-/

namespace ScriptService

/-- A tier of the index. -/
inductive Tier where
  | self
  | static
  | dynamic
deriving DecidableEq

/-- The name of a tier. -/
def Tier.name : Tier → String
  | .self => "self"
  | .static => "static"
  | .dynamic => "dynamic"

/-- Buckets by key, in the order in which the keys were first written. -/
abbrev Shelf := List (String × Bucket)

/-- The bucket at a key; one that was never written is empty. -/
def Shelf.get (s : Shelf) (key : String) : Bucket :=
  (s.lookup key).getD []

/-- The shelf once the bucket at a key is replaced. -/
def Shelf.set (key : String) (b : Bucket) : Shelf → Shelf
  | [] => [(key, b)]
  | (k, c) :: s => if k = key then (key, b) :: s else (k, c) :: Shelf.set key b s

/-- The shelf without a key. -/
def Shelf.drop (s : Shelf) (key : String) : Shelf :=
  s.filter (·.1 ≠ key)

/-- How many symbols stand on a shelf. -/
def Shelf.size (s : Shelf) : Nat :=
  s.foldl (fun n (_, b) => n + b.length) 0

/-- The symbol index. -/
structure Index where
  self : Shelf := []
  static : Shelf := []
  dynamic : Shelf := []
deriving DecidableEq

/-- Numbers of files and symbols in an index. -/
structure Index.Stats where
  selfFiles : Nat
  selfSymbols : Nat
  dynamicSymbols : Nat
  staticSymbols : Nat

namespace Index

/-- Replaces the symbols of an open file. -/
def setSelf (i : Index) (path : String) (symbols : List Symbol) : Index :=
  { i with self := i.self.set path (Bucket.ofSymbols symbols) }

/-- Replaces the symbols of headers outside the workspace. -/
def setStatic (i : Index) (language : String) (symbols : List Symbol) : Index :=
  { i with static := i.static.set language (Bucket.ofSymbols symbols) }

/-- Replaces the symbols of headers in the workspace. -/
def setDynamic (i : Index) (language : String) (symbols : List Symbol) : Index :=
  { i with dynamic := i.dynamic.set language (Bucket.ofSymbols symbols) }

/-- Forgets the symbols of a file that is no longer open. -/
def dropSelf (i : Index) (path : String) : Index :=
  { i with self := i.self.drop path }

/-- The symbols of an open file. -/
def getSelf (i : Index) (path : String) : Bucket := i.self.get path

/-- The symbols of headers outside the workspace. -/
def getStatic (i : Index) (language : String) : Bucket := i.static.get language

/-- The symbols of headers in the workspace. -/
def getDynamic (i : Index) (language : String) : Bucket := i.dynamic.get language

/-- The buckets that can answer for a document, in order of precedence. -/
def tiers (i : Index) (language path : String) : List (Tier × Bucket) :=
  [(.self, i.getSelf path), (.static, i.getStatic language), (.dynamic, i.getDynamic language)]

/-- Whether any bucket can answer for a document. -/
def hasData (i : Index) (language path : String) : Bool :=
  (i.tiers language path).any fun (_, b) => !b.isEmpty

/-- The symbol that answers for a name, and its tier. -/
def locate? (i : Index) (language path name : String) : Option (Tier × Symbol) :=
  (i.tiers language path).findSome? fun (tier, b) => (b.find? name).map (tier, ·)

/-- The symbol that answers for a name. -/
def query? (i : Index) (language path name : String) : Option Symbol :=
  (i.locate? language path name).map Prod.snd

/-- All symbols that a document sees, shadowed ones too. -/
def visible (i : Index) (language path : String) : List Symbol :=
  (i.tiers language path).flatMap Prod.snd

/-- The numbers of files and symbols. -/
def stats (i : Index) : Stats :=
  ⟨i.self.length, i.self.size, i.dynamic.size, i.static.size⟩

end Index

end ScriptService
