/-!
# Tokens of shell scripts

A script is cut into words and operators. Words are kept as they are written; quotation marks and
substitutions in them hold together what would part words elsewhere. The characters of a script stand
for bytes.
-/

namespace ScriptService.Shell

/-- A token. -/
inductive Token where
  | word (raw : List Char)
  | operator (text : String)
  /-- A redirection of an output or of the input, with its number. -/
  | redirect (channel : Nat) (text : String)
deriving DecidableEq

/-- What holds a word together. -/
inductive Hold where
  | single
  | double
  | paren
  | brace
  | backquote
deriving DecidableEq

/-- Characters that end a word. -/
def isMeta (c : Char) : Bool :=
  " \t\n;&|<>()".contains c

/-- A word and the text behind it, given what holds it together so far. -/
def wordFrom : List Hold → List Char → List Char × List Char
  | _, [] => ([], [])
  | holds, c :: s =>
    let on := fun (taken : List Char) (r : List Char × List Char) => (taken ++ r.1, r.2)
    match holds with
    | .single :: below => on [c] (wordFrom (if c == '\'' then below else holds) s)
    | .double :: below =>
      if c == '"' then on [c] (wordFrom below s)
      else if c == '\\' then
        match s with
        | d :: t => on [c, d] (wordFrom holds t)
        | [] => ([c], [])
      else if c == '$' && s.head? == some '(' then
        match s with
        | d :: t => on [c, d] (wordFrom (.paren :: holds) t)
        | [] => ([c], [])
      else on [c] (wordFrom (if c == '`' then .backquote :: holds else holds) s)
    | _ =>
      if holds.isEmpty && isMeta c then ([], c :: s)
      else if c == '\\' then
        match s with
        | d :: t => on [c, d] (wordFrom holds t)
        | [] => ([c], [])
      else if c == '\'' && holds.head? != some .backquote then on [c] (wordFrom (.single :: holds) s)
      else if c == '"' && holds.head? != some .backquote then on [c] (wordFrom (.double :: holds) s)
      else if c == '`' then
        on [c] (wordFrom (if holds.head? == some .backquote then holds.tail else .backquote :: holds) s)
      else if c == '$' && (s.head? == some '(' || s.head? == some '\x7b') then
        match s with
        | d :: t => on [c, d] (wordFrom ((if d == '(' then Hold.paren else .brace) :: holds) t)
        | [] => ([c], [])
      else if c == '(' && holds.head? == some .paren then on [c] (wordFrom (.paren :: holds) s)
      else if (c == ')' && holds.head? == some .paren) || (c == '\x7d' && holds.head? == some .brace) then
        on [c] (wordFrom holds.tail s)
      else on [c] (wordFrom holds s)

/-- The operators, longer ones before those that they start with. -/
def operators : List String := ["&&", "||", ";;", "|", "&", ";", "(", ")", "\n"]

/-- The redirections, longer ones before those that they start with. -/
def redirections : List String := [">>", ">&", "<&", ">", "<"]

/-- The first of some texts that a text starts with, and the rest. -/
def firstOf (texts : List String) (s : List Char) : Option (String × List Char) :=
  texts.findSome? fun t => (t.toList.isPrefixOf? s).map (t, ·)

/-- The number that a run of digits stands for. -/
def number (ds : List Char) : Nat :=
  ds.foldl (fun n c => n * 10 + (c.toNat - 48)) 0

/-- The tokens of a script. -/
def tokensFrom : Nat → List Char → List Token
  | 0, _ => []
  | _, [] => []
  | fuel + 1, c :: s =>
    if c == ' ' || c == '\t' then tokensFrom fuel s
    else if c == '\\' && s.head? == some '\n' then tokensFrom fuel s.tail
    else if c == '#' then tokensFrom fuel (s.dropWhile (· != '\n'))
    else
      let digits := (c :: s).takeWhile Char.isDigit
      match firstOf redirections ((c :: s).drop digits.length) with
      | some (op, rest) =>
        let channel := if digits.isEmpty then (if op.startsWith "<" then 0 else 1) else number digits
        .redirect channel op :: tokensFrom fuel rest
      | none =>
        match firstOf operators (c :: s) with
        | some (op, rest) => .operator op :: tokensFrom fuel rest
        | none =>
          let (w, rest) := wordFrom [] (c :: s)
          .word w :: tokensFrom fuel rest

/-- The tokens of a script. -/
def tokens (script : List Char) : List Token :=
  tokensFrom (script.length + 1) script

end ScriptService.Shell
