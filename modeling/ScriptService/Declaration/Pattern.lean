import ScriptService.Declaration.Basic
import ScriptService.Scan.Pattern

/-!
# Patterns of declarations

The three forms of declaration, each with or without a doc comment that ends on the line before it.
-/

namespace ScriptService.Declaration

open Text Scan

/-- The text up to and with the first `*/`, and the text behind it. -/
def closeComment? : List Char → Option (List Char × List Char)
  | [] => none
  | '*' :: '/' :: s => some (['*', '/'], s)
  | c :: s => (closeComment? s).map fun (t, rest) => (c :: t, rest)

/-- A doc comment whose first line is only its opening, ended by one newline, and the text behind. -/
def docBlock? (s : List Char) : Option (List Char × List Char) := do
  let body ← word? "/**" s
  if (body.takeWhile isBlank).contains '\n' then
    let (text, rest) ← closeComment? body
    let rest ← newline? rest
    some ("/**".toList ++ text, rest)
  else none

/-- A declaration that may have a doc comment in front of it. -/
def withDoc (p : Pattern Declaration) : Pattern Declaration := fun before s =>
  (do
    let (doc, rest) ← docBlock? s
    let (d, rest') ← p (some '\n') rest
    some ({ d with doc := some doc, nameOffset := s.length - rest.length + d.nameOffset }, rest'))
  <|> p before s

/-- Parameters in parentheses. -/
def params? (s : List Char) : Option (List Char × List Char) := do
  let s ← word? "(" s
  upTo? ')' s

/-- A macro's value: behind a gap, what is left of the line. Of a gap that ends the line, the last
character is the value. -/
def value? (s : List Char) : Option (List Char × List Char) := do
  let (gap, rest) ← run? isGap s
  let value := rest.takeWhile (· != '\n')
  if value.isEmpty then
    if gap.length < 2 then none else some (gap.drop (gap.length - 1), rest)
  else some (value, rest.dropWhile (· != '\n'))

/-- A macro, `#define NAME(params) value`. -/
def define : Pattern Declaration := fun _ s => do
  let t ← word? "#define" s
  let (_, t) ← run? isGap t
  let (name, u) ← run? isWord t
  let params := (params? u).filter (!·.1.isEmpty)
  let (value, rest) ← value? (params.elim u Prod.snd)
  some ({ name, nameOffset := s.length - t.length, form := .define (params.map Prod.fst) value }, rest)

/-- A procedure, `procedure NAME(params) begin`. -/
def procedure : Pattern Declaration := fun before s => do
  let t ← word? "procedure" s
  let (_, t) ← run? isBlank t
  let (name, u) ← run? isWord t
  let params := params? u
  let (_, u) ← run? isBlank (params.elim u Prod.snd)
  let rest ← word? "begin" u
  if isWordEdge before s && !startsWord rest then
    some ({ name, nameOffset := s.length - t.length,
            form := .procedure (params.elim [] Prod.fst) }, rest)
  else none

/-- The text up to the first `BEGIN` that stands as a word of its own, and the text behind it. -/
def header? (before : Option Char) : List Char → Option (List Char × List Char)
  | [] => none
  | c :: s =>
    match (word? "BEGIN" (c :: s)).filter fun rest => isWordEdge before (c :: s) && !startsWord rest with
    | some rest => some ([], rest)
    | none => (header? (some c) s).map fun (t, rest) => (c :: t, rest)

/-- One of two keywords, and what it stands for. -/
def either? {α : Type} (keyword : α → String) (a b : α) (s : List Char) : Option (α × List Char) :=
  ((word? (keyword a) s).map (a, ·)) <|> ((word? (keyword b) s).map (b, ·))

/-- The text behind a quotation mark, if there is one. -/
def skipQuote : List Char → List Char
  | c :: s => if c == '"' || c == '~' then s else c :: s
  | [] => []

/-- A definition, `DEFINE_SCOPE_CALLABLE NAME header BEGIN`, where the name may stand in quotation marks. -/
def definition : Pattern Declaration := fun before s => do
  let t ← word? "DEFINE_" s
  let (scope, t) ← either? Scope.keyword .action .patch t
  let t ← word? "_" t
  let (callable, t) ← either? Callable.keyword .function .expansion t
  let (_, t) ← run? isBlank t
  let t := skipQuote t
  let (name, u) ← run? isWord t
  let u' := skipQuote u
  let (header, rest) ← header? (if u'.length < u.length then u.head? else name.getLast?) u'
  if isWordEdge before s then
    some ({ name, nameOffset := s.length - t.length,
            form := .definition scope callable header }, rest)
  else none

end ScriptService.Declaration
