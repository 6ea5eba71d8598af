import ScriptService.Yaml.Instant

/-!
# Kinds of nodes

A node's tag says what kind of value it stands for. A scalar without a tag and without quotation
marks has the kind that its text has the form of; a line break at the end of a text does not change
its form.
-/

namespace ScriptService.Yaml

open Text

/-- What kind of value a node stands for. -/
inductive Kind where
  | null
  | bool
  | int
  | float
  | instant
  | text
  | bytes
  | list
  | orderedPairs
  | pairs
  | set
  | mapping
  /-- A key whose values stand in for its mapping's own entries. -/
  | merge
  /-- A key whose value stands for its mapping where a scalar is wanted. -/
  | standIn
  | unknown
deriving DecidableEq

/-- What the tags of the standard kinds start with. -/
def standardLead : String := "tag:yaml.org,2002:"

/-- The kinds that have a tag. -/
def Kind.names : List (String × Kind) :=
  [("null", .null), ("bool", .bool), ("int", .int), ("float", .float), ("timestamp", .instant),
   ("str", .text), ("binary", .bytes), ("seq", .list), ("omap", .orderedPairs), ("pairs", .pairs),
   ("set", .set), ("map", .mapping), ("merge", .merge), ("value", .standIn)]

/-- The kind that a tag names. -/
def Kind.ofTag (tag : String) : Kind :=
  ((Kind.names.map fun (n, k) => (standardLead ++ n, k)).lookup tag).getD .unknown

/-- The words for truth values, each also with a capital first letter or in capitals. -/
def truthWords : List (String × Bool) :=
  [("yes", true), ("no", false), ("true", true), ("false", false), ("on", true), ("off", false)]

/-- A word with a capital first letter. -/
def capitalised (w : String) : String :=
  match w.toList with
  | [] => ""
  | c :: s => String.ofList (c.toUpper :: s)

/-- Whether a text is one of some words, in one of the three spellings. -/
def isSpelling (words : List String) (s : String) : Bool :=
  words.any fun w => s == w || s == capitalised w || s == w.map Char.toUpper

/-- ASCII digits and the line that may part them. -/
def isDigitOrLine (c : Char) : Bool :=
  c.isDigit || c == '_'

/-- The text behind a sign, if there is one. -/
def dropSign : List Char → List Char
  | '+' :: s => s
  | '-' :: s => s
  | s => s

/-- One part or more behind colons, each below sixty, and the rest. -/
def sixtieths : Nat → List Char → List Char
  | 0, s => s
  | fuel + 1, s =>
    match s with
    | ':' :: a :: b :: t =>
      if '0' ≤ a && a ≤ '5' && b.isDigit then sixtieths fuel t
      else if a.isDigit then sixtieths fuel (b :: t)
      else s
    | [':', a] => if a.isDigit then [] else s
    | s => s

/-- Whether parts below sixty follow, and what follows them. -/
def sixtieths? (s : List Char) : Option (List Char) :=
  let rest := sixtieths s.length s
  if rest.length < s.length then some rest else none

/-- Whether a text is empty or an exponent with its sign. -/
def isExponent : List Char → Bool
  | [] => true
  | e :: sign :: ds =>
    (e == 'e' || e == 'E') && (sign == '+' || sign == '-') && !ds.isEmpty && ds.all Char.isDigit
  | _ => false

/-- Whether a text has the form of a floating-point number. -/
def isFloatForm (s : List Char) : Bool :=
  let t := dropSign s
  match t with
  | '.' :: u =>
    (u.head?.any Char.isDigit && s == t && isExponent (u.dropWhile isDigitOrLine)) ||
      ["inf", "Inf", "INF"].contains (String.ofList u) ||
      (s == t && ["nan", "NaN", "NAN"].contains (String.ofList u))
  | c :: _ =>
    c.isDigit &&
      let rest := t.dropWhile isDigitOrLine
      match rest with
      | '.' :: u => isExponent (u.dropWhile isDigitOrLine)
      | _ =>
        match sixtieths? rest with
        | some ('.' :: u) => u.all isDigitOrLine
        | _ => false
  | [] => false

/-- Whether a text has the form of an integer. -/
def isIntForm (s : List Char) : Bool :=
  match dropSign s with
  | ['0'] => true
  | '0' :: 'b' :: t => !t.isEmpty && t.all fun c => c == '0' || c == '1' || c == '_'
  | '0' :: 'x' :: t => !t.isEmpty && t.all fun c => isHexDigit c || c == '_'
  | '0' :: t => t.all fun c => ('0' ≤ c && c ≤ '7') || c == '_'
  | c :: t =>
    c.isDigit &&
      let rest := t.dropWhile isDigitOrLine
      rest.isEmpty || sixtieths? rest == some []
  | [] => false

/-- Whether a text has the form of a day or a moment. A day alone has two digits for each part. -/
def isInstantForm (s : List Char) : Bool :=
  (instant? s).any fun i => i.clock.isSome || i.padded

/-- The kind that a scalar's text has the form of. -/
def Kind.ofPlain (text : String) : Kind :=
  let cs := dropLastBreak text.toList
  let s := String.ofList cs
  if text == "" then .null
  else if isSpelling (truthWords.map Prod.fst) s then .bool
  else if isFloatForm cs then .float
  else if isIntForm cs then .int
  else if s == "<<" then .merge
  else if s == "~" || isSpelling ["null"] s then .null
  else if isInstantForm text.toList then .instant
  else if s == "=" then .standIn
  else if s == "!" || s == "&" || s == "*" then .unknown
  else .text

end ScriptService.Yaml
