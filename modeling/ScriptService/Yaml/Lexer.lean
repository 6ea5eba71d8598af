import ScriptService.Text.Utf8
import ScriptService.Yaml.Scalar
import ScriptService.Yaml.Source
import ScriptService.Yaml.Token

/-!
# From text to tokens

The lexer keeps the indentation of the open blocks, the nesting of brackets, and where a key could
have started: a key is known as one only when the colon behind it is met, and its tokens are then
put in front of it. Until then its own tokens and those behind it are not settled.
-/

namespace ScriptService.Yaml

/-- A place where a key could start. -/
structure SimpleKey where
  /-- The number of tokens in front of it. -/
  token : Nat
  /-- Whether it must be a key, because nothing else can start there. -/
  required : Bool
  index : Nat
  line : Nat
  column : Nat

/-- The state of the lexer. -/
structure Lexer where
  cursor : Cursor
  tokens : Array Token
  indent : Int
  indents : List Int
  flowLevel : Int
  keyAllowed : Bool
  keys : List (Int × SimpleKey)

namespace Lexer

/-- The lexer at the start of a text. -/
def start (text : List Char) : Lexer where
  cursor := ⟨text, 0, 0, 0⟩
  tokens := #[]
  indent := -1
  indents := []
  flowLevel := 0
  keyAllowed := true
  keys := []

/-- Whether the place is inside brackets. -/
def inFlow (l : Lexer) : Bool :=
  l.flowLevel ≠ 0

/-- Adds a token. -/
def push (l : Lexer) (t : Token) : Lexer :=
  { l with tokens := l.tokens.push t }

/-- Takes one character as a token. -/
def take (l : Lexer) (t : Token) : Lexer :=
  { l.push t with cursor := l.cursor.next }

/-- Forgets the possible key at the nesting at hand, which must not be a required one. -/
def dropKey (l : Lexer) : Except ReadError Lexer :=
  match l.keys.lookup l.flowLevel with
  | none => .ok l
  | some k =>
    if k.required then .error .malformed else .ok { l with keys := l.keys.filter (·.1 ≠ l.flowLevel) }

/-- Forgets possible keys that a line break or too long a text has ended. -/
def dropStaleKeys (l : Lexer) : Except ReadError Lexer :=
  let stale := fun (k : SimpleKey) => k.line ≠ l.cursor.line || l.cursor.index - k.index > 1024
  if l.keys.any fun (_, k) => stale k && k.required then .error .malformed
  else .ok { l with keys := l.keys.filter fun (_, k) => !stale k }

/-- Remembers that a key could start here. -/
def saveKey (l : Lexer) : Except ReadError Lexer := do
  if l.keyAllowed then
    let l ← l.dropKey
    let key : SimpleKey :=
      { token := l.tokens.size
        required := !l.inFlow && l.indent = l.cursor.column
        index := l.cursor.index, line := l.cursor.line, column := l.cursor.column }
    .ok { l with keys := (l.flowLevel, key) :: l.keys }
  else .ok l

/-- Closes the blocks that are indented further than a column. -/
def unwindFrom (column : Int) : List Int → Lexer → Lexer
  | [], l => l
  | i :: is, l =>
    if l.indent > column then unwindFrom column is { l.push .blockEnd with indent := i, indents := is }
    else l

/-- Closes blocks, unless the place is inside brackets. -/
def unwind (l : Lexer) (column : Int) : Lexer :=
  if l.inFlow then l else unwindFrom column l.indents l

/-- Opens a block at a column, if it is indented further than the block around it. -/
def openBlock? (l : Lexer) (column : Int) : Option Lexer :=
  if l.indent < column then some { l with indents := l.indent :: l.indents, indent := column } else none

/-- Opens a block here with a token in front of it. -/
def openBlock (l : Lexer) (t : Token) : Lexer :=
  match l.openBlock? l.cursor.column with
  | some l => l.push t
  | none => l

/-- The place of the next token, behind white space, comments and line ends. -/
def skipFrom : Nat → Lexer → Lexer
  | 0, l => l
  | fuel + 1, l =>
    let c := l.cursor.skipSpaces
    let c := if c.peek == '#' then (c.takeRun (!isBreakOrEnd ·)).2 else c
    if isBreak c.peek then
      skipFrom fuel { l with cursor := c.lineBreak.2, keyAllowed := l.keyAllowed || !l.inFlow }
    else { l with cursor := c }

/-- The place of the next token. A byte order mark may start the text. -/
def skip (l : Lexer) : Lexer :=
  let l := if l.cursor.index = 0 && l.cursor.peek == '\uFEFF' then { l with cursor := l.cursor.next } else l
  skipFrom (l.cursor.rest.length + 1) l

/-! ## Directives, anchors and tags -/

/-- A tag handle: an exclamation mark, or two with a name between them. -/
def handle (c : Cursor) : Except ReadError (String × Cursor) :=
  if c.peek != '!' then .error c.reject
  else if c.peekAt 1 == ' ' then .ok ("!", c.next)
  else
    let (name, d) := c.next.takeRun isNameChar
    if d.peek == '!' then .ok (String.ofList ('!' :: name ++ ['!']), d.next) else .error d.reject

/-- Characters of a tag. -/
def isTagChar (c : Char) : Bool :=
  c.isAlphanum || "-;/?:@&=+$,_.!~*'()[]".toList.contains c

/-- The bytes of percent escapes. -/
def uriBytes : Nat → Cursor → Except ReadError (List UInt8 × Cursor)
  | 0, _ => .error .malformed
  | fuel + 1, c =>
    if c.peek == '%' then
      match Text.hexValue? (c.peekAt 1), Text.hexValue? (c.peekAt 2) with
      | some a, some b => do
        let (bs, d) ← uriBytes fuel (c.advance 3)
        .ok (UInt8.ofNat (a * 16 + b) :: bs, d)
      | none, _ => .error (c.rejectAt 1)
      | some _, none => .error (c.rejectAt 2)
    else .ok ([], c)

/-- A tag's text, with percent escapes resolved. -/
def tagText : Nat → Cursor → Except ReadError (List Char × Cursor)
  | 0, _ => .error .malformed
  | fuel + 1, c =>
    let (run, c) := c.takeRun isTagChar
    if c.peek == '%' then do
      let (bytes, c) ← uriBytes (c.rest.length + 1) c
      match Text.decodeUtf8? bytes with
      | none => .error c.reject
      | some s => do
        let (rest, c) ← tagText fuel c
        .ok (run ++ s ++ rest, c)
    else .ok (run, c)

/-- A tag's text, which is not empty. -/
def tagUri (c : Cursor) : Except ReadError (String × Cursor) := do
  let (s, d) ← tagText (c.rest.length + 1) c
  if s.isEmpty then .error d.reject else .ok (String.ofList s, d)

/-- A decimal numeral. -/
def versionNumber (c : Cursor) : Except ReadError (Nat × Cursor) :=
  let (ds, d) := c.takeRun Char.isDigit
  if ds.isEmpty then .error c.reject
  else if Text.maxNumeralDigits < ds.length then .error (.tooManyDigits ds.length)
  else .ok (Text.digitsValue ds, d)

/-- A directive behind its percent sign, with the rest of its line. -/
def directive (c : Cursor) : Except ReadError (Token × Cursor) := do
  let (name, c) := c.takeRun isNameChar
  if name.isEmpty || !isSpaceOrEnd c.peek then .error c.reject
  else if name == "YAML".toList then
    let (major, c) ← versionNumber c.skipSpaces
    if c.peek != '.' then .error c.reject
    else
      let (_, c) ← versionNumber c.next
      if !isSpaceOrEnd c.peek then .error .malformed else .ok (.version major, ← c.skipLineRest)
  else if name == "TAG".toList then
    let (h, c) ← handle c.skipSpaces
    if c.peek != ' ' then .error c.reject
    else
      let (lead, c) ← tagUri c.skipSpaces
      if !isSpaceOrEnd c.peek then .error .malformed else .ok (.tagHandle h lead, ← c.skipLineRest)
  else .ok (.otherDirective, ← (c.takeRun (!isBreakOrEnd ·)).2.skipLineRest)

/-- The name of an anchor or alias behind its mark. -/
def anchorName (c : Cursor) : Except ReadError (String × Cursor) :=
  let (name, d) := c.takeRun isNameChar
  if name.isEmpty then .error d.reject
  else if isGapOrEnd d.peek || "?:,]\x7d%@`".toList.contains d.peek then .ok (String.ofList name, d)
  else .error .malformed

/-- A tag. -/
def tag (c : Cursor) : Except ReadError (Token × Cursor) := do
  let ch := c.peekAt 1
  let (t, c) ←
    if ch == '<' then do
      let (suffix, d) ← tagUri (c.advance 2)
      if d.peek == '>' then pure (Token.tag none suffix, d.next) else .error d.reject
    else if isGapOrEnd ch then pure (Token.tag none "!", c.next)
    else
      let word := c.next.rest.takeWhile (!isSpaceOrEnd ·)
      if word.contains '!' then do
        let (h, d) ← handle c
        let (suffix, d) ← tagUri d
        pure (Token.tag (some h) suffix, d)
      else do
        let (suffix, d) ← tagUri c.next
        pure (Token.tag (some "!") suffix, d)
  if isSpaceOrEnd c.peek then .ok (t, c) else .error .malformed

/-! ## Tokens -/

/-- Ends the text. -/
def endStream (l : Lexer) : Except ReadError Lexer := do
  let l ← (l.unwind (-1)).dropKey
  .ok { l.push .streamEnd with keyAllowed := false, keys := [] }

/-- A document's start or end. -/
def documentMarker (l : Lexer) (t : Token) : Except ReadError Lexer := do
  let l ← (l.unwind (-1)).dropKey
  .ok { l.push t with keyAllowed := false, cursor := l.cursor.advance 3 }

/-- An opening bracket. -/
def openFlow (l : Lexer) (t : Token) : Except ReadError Lexer := do
  let l ← l.saveKey
  .ok { l.take t with flowLevel := l.flowLevel + 1, keyAllowed := true }

/-- A closing bracket. -/
def closeFlow (l : Lexer) (t : Token) : Except ReadError Lexer := do
  let l ← l.dropKey
  .ok { l.take t with flowLevel := l.flowLevel - 1, keyAllowed := false }

/-- A comma inside brackets. -/
def flowEntry (l : Lexer) : Except ReadError Lexer := do
  let l ← { l with keyAllowed := true }.dropKey
  .ok (l.take .flowEntry)

/-- The dash of a sequence's entry. -/
def blockEntry (l : Lexer) : Except ReadError Lexer := do
  if !l.inFlow && !l.keyAllowed then .error .malformed
  else
    let l := if l.inFlow then l else l.openBlock .blockSequenceStart
    let l ← { l with keyAllowed := true }.dropKey
    .ok (l.take .blockEntry)

/-- The question mark in front of a key. -/
def explicitKey (l : Lexer) : Except ReadError Lexer := do
  if !l.inFlow && !l.keyAllowed then .error .malformed
  else
    let l := if l.inFlow then l else l.openBlock .blockMappingStart
    let l ← { l with keyAllowed := !l.inFlow }.dropKey
    .ok (l.take .key)

/-- The colon in front of a value. What stands before it may turn out to be a key. -/
def value (l : Lexer) : Except ReadError Lexer := do
  match l.keys.lookup l.flowLevel with
  | some k =>
    let l := { l with
      keys := l.keys.filter (·.1 ≠ l.flowLevel)
      tokens := l.tokens.insertIdxIfInBounds k.token .key
      keyAllowed := false }
    let l := if l.inFlow then l else
      match l.openBlock? k.column with
      | some l => { l with tokens := l.tokens.insertIdxIfInBounds k.token .blockMappingStart }
      | none => l
    .ok (l.take .value)
  | none =>
    if !l.inFlow && !l.keyAllowed then .error .malformed
    else
      let l := if l.inFlow then l else l.openBlock .blockMappingStart
      let l ← { l with keyAllowed := !l.inFlow }.dropKey
      .ok (l.take .value)

/-- A token that could start a key and that a reader of its own reads. -/
def node (l : Lexer) (read : Cursor → Except ReadError (Token × Cursor)) : Except ReadError Lexer := do
  let l ← l.saveKey
  let (t, c) ← read l.cursor
  .ok { l.push t with keyAllowed := false, cursor := c }

/-- A block scalar. -/
def blockScalar (l : Lexer) (folded : Bool) : Except ReadError Lexer := do
  let l ← { l with keyAllowed := true }.dropKey
  let (s, c) ← block folded l.indent l.cursor
  .ok { l.push (.scalar (Text.codesOf s) false) with cursor := c }

/-- A plain scalar. Behind a line break a key may start again. -/
def plainScalar (l : Lexer) : Except ReadError Lexer := do
  let l ← l.saveKey
  let (s, broke, c) := plain l.inFlow l.indent l.cursor
  .ok { l.push (.scalar (Text.codesOf s) true) with keyAllowed := broke, cursor := c }

/-- Whether a plain scalar can start here. -/
def startsPlain (l : Lexer) : Bool :=
  let ch := l.cursor.peek
  !(isGapOrEnd ch || "-?:,[]\x7b\x7d#&*!|>'\"%@`".toList.contains ch) ||
    (!isGapOrEnd (l.cursor.peekAt 1) && (ch == '-' || (!l.inFlow && (ch == '?' || ch == ':'))))

/-- The lexer behind the next token; `none` behind the last one. -/
def step (l : Lexer) : Except ReadError (Lexer × Bool) := do
  let l ← l.skip.dropStaleKeys
  let l := l.unwind l.cursor.column
  let c := l.cursor
  let ch := c.peek
  let more := fun (r : Except ReadError Lexer) => r.map (·, true)
  let alone := isGapOrEnd (c.peekAt 1)
  if ch == '\x00' then (l.endStream).map (·, false)
  else if ch == '%' && c.column = 0 then more do
    let l ← (l.unwind (-1)).dropKey
    let (t, c) ← directive l.cursor.next
    .ok { l.push t with keyAllowed := false, cursor := c }
  else if ch == '-' && c.column = 0 && c.atMarker '-' then more (l.documentMarker .documentStart)
  else if ch == '.' && c.column = 0 && c.atMarker '.' then more (l.documentMarker .documentEnd)
  else if ch == '[' then more (l.openFlow .flowSequenceStart)
  else if ch == '\x7b' then more (l.openFlow .flowMappingStart)
  else if ch == ']' then more (l.closeFlow .flowSequenceEnd)
  else if ch == '\x7d' then more (l.closeFlow .flowMappingEnd)
  else if ch == ',' then more l.flowEntry
  else if ch == '-' && alone then more l.blockEntry
  else if ch == '?' && (l.inFlow || alone) then more l.explicitKey
  else if ch == ':' && (l.inFlow || alone) then more l.value
  else if ch == '*' then more (l.node fun c => (anchorName c.next).map fun (n, c) => (.alias n, c))
  else if ch == '&' then more (l.node fun c => (anchorName c.next).map fun (n, c) => (.anchor n, c))
  else if ch == '!' then more (l.node tag)
  else if ch == '|' && !l.inFlow then more (l.blockScalar false)
  else if ch == '>' && !l.inFlow then more (l.blockScalar true)
  else if ch == '\'' || ch == '"' then
    more (l.node fun c => (quoted c).map fun (s, c) => (.scalar s false, c))
  else if l.startsPlain then more l.plainScalar
  else .error .malformed

/-- The tokens that nothing behind them can change any more: those in front of all possible keys. -/
def settled (l : Lexer) : List Token :=
  l.tokens.toList.take (l.keys.foldl (fun n (_, k) => min n k.token) l.tokens.size)

/-- The lexer behind the next token, unless the text ends too early there for a known reason. -/
def stepWithin (fault : Option ReadError) (l : Lexer) : Except ReadError (Lexer × Bool) :=
  match l.step with
  | .error .cutShort => .error (fault.getD .malformed)
  | .error e => .error e
  | .ok (next, more) =>
    match fault with
    | some e => if next.cursor.rest.isEmpty then .error e else next.dropStaleKeys.map (·, more)
    | none => next.dropStaleKeys.map (·, more)

/-- The tokens of a text; when it stops making sense, those that were settled before, and why. -/
def run (fault : Option ReadError) : Nat → Lexer → List Token × Option ReadError
  | 0, l => (l.settled, some .malformed)
  | fuel + 1, l =>
    match l.stepWithin fault with
    | .ok (next, true) => run fault fuel next
    | .ok (next, false) => (next.tokens.toList, none)
    | .error e => (l.settled, some e)

end Lexer

/-- The tokens of a text, and why they stop short. -/
def tokens (s : Source) : List Token × Option ReadError :=
  match s.text, s.fault with
  | [], some e => ([], some e)
  | text, fault => (Lexer.start text).run fault (text.length + 2)

end ScriptService.Yaml
