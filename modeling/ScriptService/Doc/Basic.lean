/-!
# Documentation of a declaration

What a doc comment says: a description, the parameters, the returned value, and whether the
declaration is out of use.
-/

namespace ScriptService

/-- A documented parameter. -/
structure Doc.Param where
  name : String
  type : String := "any"
  description : String := ""
deriving DecidableEq

/-- A documented returned value. -/
structure Doc.Return where
  type : String
  description : String := ""
deriving DecidableEq

/-- What a doc comment says. -/
structure Doc where
  description : Option String := none
  params : List Doc.Param := []
  returns : Option Doc.Return := none
  deprecated : Bool := false
deriving DecidableEq

/-- Whether the comment says nothing. -/
def Doc.isEmpty (d : Doc) : Bool :=
  d.description.all String.isEmpty && d.params.isEmpty && d.returns.isNone && !d.deprecated

/-- A parameter as it stands in a signature. -/
def Doc.Param.label (p : Doc.Param) : String :=
  p.type ++ " " ++ p.name

/-- The signature that the comment gives a name: returned type, name and typed parameters. -/
def Doc.signature (d : Doc) (name : String) : String :=
  (d.returns.elim "void" Doc.Return.type) ++ " " ++ name ++ "(" ++
    ", ".intercalate (d.params.map Doc.Param.label) ++ ")"

end ScriptService
