import ScriptService.Doc.Basic
import ScriptService.Scan.Lexeme
import ScriptService.Text.Blank
import ScriptService.Text.Lines
import ScriptService.Text.Lowercase

/-!
# Doc comments

A comment `/** … */` is cut into lines, each without its leading star. Lines before the first one
that starts with `@` are the description; each such line begins a tag, and the lines after it go on
with it. Tags of parameters, of the returned value and of deprecation are read, others are passed
over.
-/

namespace ScriptService.Doc

open Text Scan

/-- The text between the delimiters of a comment, of which either may be missing. -/
def commentBody (block : List Char) : List Char :=
  let body := trim block
  let body := (word? "/**" body).getD body
  match body.reverse with
  | '/' :: '*' :: r => r.reverse
  | _ => body

/-- A line of a comment without white space around it and without its leading star. -/
def commentLine (raw : List Char) : List Char :=
  match trim raw with
  | '*' :: s => trim s
  | s => s

/-- The lines that a comment says. -/
def commentLines (block : List Char) : List (List Char) :=
  (textLines (commentBody block)).map commentLine

/-- Whether a line begins a tag. -/
def isTagLine (l : List Char) : Bool :=
  l.head? == some '@'

/-- The tags of lines that go on with the tag `cur`. -/
def tagsFrom (cur : List Char) : List (List Char) → List (List Char)
  | [] => [cur]
  | l :: ls =>
    if isTagLine l then cur :: tagsFrom l ls
    else if l.isEmpty then tagsFrom cur ls
    else tagsFrom (cur ++ ' ' :: l) ls

/-- The tags of a comment's lines, each with the lines that go on with it. -/
def tags (ls : List (List Char)) : List (List Char) :=
  match ls.dropWhile (!isTagLine ·) with
  | [] => []
  | l :: ls => tagsFrom l ls

/-- The text in front of the first tag. -/
def description? (ls : List (List Char)) : Option String :=
  let text := trim (['\n'].intercalate (ls.takeWhile (!isTagLine ·)))
  if text.isEmpty then none else some (String.ofList text)

/-- A type in braces at the front of a tag's text, and what follows it. Empty braces stand for any
type. -/
def bracedType? (s : List Char) : Option (String × List Char) := do
  let inner ← word? "\x7b" s
  let (type, rest) ← upTo? '\x7d' inner
  let type := trim type
  some (if type.isEmpty then "any" else String.ofList type, trimLeft rest)

/-- A parameter's name; brackets that mark it as optional, and its default, are left out. -/
def paramName (s : List Char) : List Char :=
  if s.head? == some '[' && s.getLast? == some ']' then
    (s.drop 1).dropLast.takeWhile (· != '=')
  else s

/-- The parameter that a tag's text describes, if it names one. -/
def param? (s : List Char) : Option Param := do
  let (type, s) := (bracedType? s).getD ("any", s)
  let (name, rest) ← firstWord? s
  let rest := trim rest
  let description := (word? "- " rest).getD rest
  some ⟨String.ofList (paramName name), type, String.ofList description⟩

/-- The returned value that a tag's text describes, if it gives a type. -/
def return? (s : List Char) : Option Return :=
  match bracedType? s with
  | some (type, rest) => some ⟨type, String.ofList (trim rest)⟩
  | none => (firstWord? s).map fun (type, rest) => ⟨String.ofList type, String.ofList (trim rest)⟩

/-- A tag's name in small letters, and its text. -/
def tag? (block : List Char) : Option (String × List Char) := do
  let s ← word? "@" block
  let (name, rest) ← run? isWord s
  some (lower (String.ofList name), trim rest)

/-- What a comment says once a further tag is read. -/
def addTag (d : Doc) (block : List Char) : Doc :=
  match tag? block with
  | none => d
  | some (name, text) =>
    if name ∈ ["param", "arg", "argument"] then { d with params := d.params ++ (param? text).toList }
    else if name ∈ ["return", "returns", "ret"] then { d with returns := return? text }
    else if name = "deprecated" then { d with deprecated := true }
    else d

/-- What a comment says. -/
def ofComment (block : List Char) : Doc :=
  let ls := commentLines block
  (tags ls).foldl addTag { description := description? ls }

end ScriptService.Doc
