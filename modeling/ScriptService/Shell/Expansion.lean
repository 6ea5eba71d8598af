import ScriptService.Shell.Arithmetic
import ScriptService.Shell.Machine

/-!
# Expansion of words

Parameters, arithmetic and commands inside a word are replaced by what they stand for. What stands
outside quotation marks is cut into fields at blanks.
-/

namespace ScriptService.Shell

/-- Fields that are complete, in reverse, and the one at hand, in reverse. -/
structure Fields where
  complete : List (List Char) := []
  current : Option (List Char) := none

namespace Fields

/-- Characters that belong to the field at hand. -/
def add (cs : List Char) (f : Fields) : Fields :=
  { f with current := some (cs.reverse ++ f.current.getD []) }

/-- Ends the field at hand. -/
def close (f : Fields) : Fields :=
  match f.current with
  | some cs => ⟨cs.reverse :: f.complete, none⟩
  | none => f

/-- Characters that are cut into fields at blanks. -/
def split (cs : List Char) (f : Fields) : Fields :=
  cs.foldl (fun f c => if c == ' ' || c == '\t' || c == '\n' then f.close else f.add [c]) f

/-- Several fields, of which the first continues the one at hand. -/
def several : List (List Char) → Fields → Fields
  | [], f => f
  | [w], f => f.add w
  | w :: ws, f => several ws (f.add w).close

/-- All fields. -/
def toList (f : Fields) : List (List Char) :=
  f.close.complete.reverse

end Fields

/-- The text up to the parenthesis that closes those open, and the text behind it. -/
def upToClose : Nat → List Char → List Char × List Char
  | _, [] => ([], [])
  | depth, c :: s =>
    if c == ')' && depth = 0 then ([], s)
    else
      let depth := if c == '(' then depth + 1 else if c == ')' then depth - 1 else depth
      let (inner, rest) := upToClose depth s
      (c :: inner, rest)

/-- The text up to a character, and the text behind it. -/
def upTo (stop : Char) (s : List Char) : List Char × List Char :=
  (s.takeWhile (· != stop), (s.dropWhile (· != stop)).drop 1)

/-- A number as characters. -/
def decimal (n : Int) : List Char :=
  (toString n).toList

/-- The value of a parameter, if it is set. -/
def Machine.parameter? (m : Machine) (name : List Char) : Option (List Char) :=
  match name with
  | ['#'] => some (decimal m.params.length)
  | ['?'] => some (decimal m.status)
  | ['*'] | ['@'] => some ([' '].intercalate m.params)
  | ['0'] => some m.name
  | ['$'] => some ['1']
  | c :: _ => if c.isDigit then m.params[(decimalValue name) - 1]? else m.bindings.lookup name
  | [] => none
where
  /-- The number that digits stand for. -/
  decimalValue (ds : List Char) : Nat :=
    ds.foldl (fun n c => n * 10 + (c.toNat - 48)) 0

/-- The value of what stands between the braces of a parameter. -/
def Machine.braced (m : Machine) (inner : List Char) : List Char :=
  match inner with
  | ['#'] => (m.parameter? ['#']).getD []
  | '#' :: name => decimal ((m.parameter? name).getD []).length
  | _ =>
    let special := inner.head?.any fun c => "#?*@$".contains c
    let name := if special then inner.take 1 else inner.takeWhile Arithmetic.isNameChar
    let value := (m.parameter? name).getD []
    match inner.drop name.length with
    | ':' :: '-' :: other => if value.isEmpty then other else value
    | '-' :: other => (m.parameter? name).getD other
    | ':' :: '+' :: other => if value.isEmpty then [] else other
    | _ => value

/-- The name of a parameter at the front of a text, and the rest. -/
def parameterName (s : List Char) : List Char × List Char :=
  match s with
  | [] => ([], [])
  | c :: t =>
    if "#?*@$".contains c || c.isDigit then ([c], t)
    else (s.takeWhile Arithmetic.isNameChar, s.dropWhile Arithmetic.isNameChar)

/-- The fields of a word that goes on, inside double quotation marks or not, and the state after it.
`output` gives what a script prints. -/
def expandFrom (output : List Char → Machine → List Char × Machine) :
    Nat → Bool → List Char → Fields → Machine → Fields × Machine
  | 0, _, _, f, m => (f, m)
  | _, _, [], f, m => (f, m)
  | fuel + 1, quoted, c :: s, f, m =>
    let go := expandFrom output fuel
    let put := fun (cs : List Char) (f : Fields) => if quoted then f.add cs else f.split cs
    if c == '"' then go (!quoted) s (f.add []) m
    else if c == '\'' && !quoted then
      let (inner, rest) := upTo '\'' s
      go quoted rest (f.add inner) m
    else if c == '\\' then
      match s with
      | [] => (f.add [c], m)
      | d :: t =>
        if d == '\n' then go quoted t f m
        else if quoted && !"$\"\\`".contains d then go quoted t (f.add [c, d]) m
        else go quoted t (f.add [d]) m
    else if c == '`' then
      let (inner, rest) := upTo '`' s
      let (text, m) := output inner m
      go quoted rest (put text f) m
    else if c == '$' then
      match s with
      | '(' :: '(' :: t =>
        let (inner, rest) := upToClose 0 t
        let (expr, m) := expandFrom output fuel true inner {} m
        match Arithmetic.evaluate m.valueOf expr.toList.flatten with
        | some n => go quoted (rest.drop 1) (put (decimal n) f) m
        | none => (f, { m.shellError "arithmetic expression".toList 2 with flow := .exited })
      | '(' :: t =>
        let (inner, rest) := upToClose 0 t
        let (text, m) := output inner m
        go quoted rest (put text f) m
      | '\x7b' :: t =>
        let (inner, rest) := upTo '\x7d' t
        go quoted rest (put (m.braced inner) f) m
      | s =>
        let (name, rest) := parameterName s
        if name.isEmpty then go quoted s (f.add [c]) m
        else if name = ['@'] && quoted then go quoted rest (f.several m.params) m
        else go quoted rest (put ((m.parameter? name).getD []) f) m
    else go quoted s (f.add [c]) m

/-- The fields of a word, and the state after it. -/
def expandWord (output : List Char → Machine → List Char × Machine) (raw : List Char) (m : Machine) :
    List (List Char) × Machine :=
  let (f, m) := expandFrom output (raw.length + 1) false raw {} m
  (f.toList, m)

/-- The fields of some words, and the state after them. -/
def expandWords (output : List Char → Machine → List Char × Machine) :
    List (List Char) → Machine → List (List Char) × Machine
  | [], m => ([], m)
  | w :: ws, m =>
    let (fs, m) := expandWord output w m
    let (gs, m) := expandWords output ws m
    (fs ++ gs, m)

/-- The one text of a word that is not cut into fields, and the state after it. -/
def expandText (output : List Char → Machine → List Char × Machine) (raw : List Char) (m : Machine) :
    List Char × Machine :=
  let (fs, m) := expandWord output raw m
  ([' '].intercalate fs, m)

end ScriptService.Shell
