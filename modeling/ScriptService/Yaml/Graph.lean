import ScriptService.Text.Codes
import ScriptService.Value.ReadError
import ScriptService.Yaml.Kind
import ScriptService.Yaml.Token

/-!
# From tokens to a graph

The grammar of YAML documents. The nodes of a document are numbered, and a collection names those
inside it by their numbers. An alias has the number of the node that its anchor marks, so a node can
have several places, and one inside itself: a collection has its number before what is inside it.
-/

namespace ScriptService.Yaml

/-- What a node holds. -/
inductive Content where
  /-- The code points of a scalar's text. -/
  | scalar (text : List Nat)
  | sequence (items : List Nat)
  | mapping (entries : List (Nat × Nat))

/-- A node of a document. -/
structure Node where
  kind : Kind
  content : Content

/-- The nodes of a document by their numbers, and the number of the outermost one. -/
structure Graph where
  nodes : Array Node
  root : Nat

/-- The state of the parser. -/
structure Parser where
  tokens : List Token
  /-- Why the tokens stop. -/
  failure : ReadError
  handles : List (String × String)
  anchors : List (String × Nat)
  nodes : Array Node

/-- A parser's step. -/
abbrev Parse (α : Type) := StateT Parser (Except ReadError) α

/-- The most levels of nested collections that a document may have. -/
def maxLevels : Nat := 489

namespace Parser

/-- The token at hand. -/
def peek : Parse Token := do
  match (← get).tokens with
  | t :: _ => return t
  | [] => throw (← get).failure

/-- Passes over the token at hand. -/
def skip : Parse Unit :=
  modify fun p => { p with tokens := p.tokens.tail }

/-- Whether the token at hand is one of some. -/
def at? (ts : List Token) : Parse Bool := do
  return ts.contains (← peek)

/-- Passes over a token that must be at hand. -/
def expect (t : Token) : Parse Unit := do
  if (← peek) = t then skip else throw .malformed

/-- The full name of a tag. -/
def tagName (handle : Option String) (suffix : String) : Parse String := do
  match handle with
  | none => return suffix
  | some h =>
    match (← get).handles.lookup h with
    | some lead => return lead ++ suffix
    | none => throw .malformed

/-- An anchor and a tag in either order. -/
def properties : Parse (Option String × Option String) := do
  match ← peek with
  | .anchor a => do
    skip
    match ← peek with
    | .tag h s => do
      skip
      return (some a, some (← tagName h s))
    | _ => return (some a, none)
  | .tag h s => do
    skip
    match ← peek with
    | .anchor a => do
      skip
      return (some a, some (← tagName h s))
    | _ => return (none, some (← tagName h s))
  | _ => return (none, none)

/-- Adds a node, which an anchor may mark, and gives its number. -/
def add (anchor : Option String) (n : Node) : Parse Nat :=
  modifyGet fun p =>
    let i := p.nodes.size
    (i, { p with
      nodes := p.nodes.push n
      anchors := anchor.elim p.anchors fun a => (a, i) :: p.anchors })

/-- Sets what a node holds. -/
def fill (i : Nat) (c : Content) : Parse Unit :=
  modify fun p => { p with nodes := p.nodes.modify i fun n => { n with content := c } }

/-- Adds the scalar that stands where nothing is written. -/
def addEmpty : Parse Nat :=
  add none ⟨.null, .scalar []⟩

/-- The kind of a node with a tag; `untagged` without one, or with the tag that names none. -/
def kindOf (tag : Option String) (untagged : Kind) : Kind :=
  match tag with
  | none | some "!" => untagged
  | some name => Kind.ofTag name

/-- The kind of a scalar that has no tag; quotation marks make it a text, unless its tag is the one
that names none. -/
def untaggedKind (tag : Option String) (plain : Bool) (text : List Nat) : Kind :=
  if plain || tag.isSome then ((Text.ofCodes? text).map Kind.ofPlain).getD .text else .text

/-- Refuses an anchor that marks another node. -/
def checkAnchor (anchor : Option String) : Parse Unit := do
  let marked := (← get).anchors
  if anchor.any fun a => (marked.lookup a).isSome then throw .malformed

/-- Adds a sequence whose items follow. -/
def addSequence (anchor tag : Option String) (items : Parse (List Nat)) : Parse Nat := do
  let i ← add anchor ⟨kindOf tag .list, .sequence []⟩
  fill i (.sequence (← items))
  return i

/-- Adds a mapping whose entries follow. -/
def addMapping (anchor tag : Option String) (entries : Parse (List (Nat × Nat))) : Parse Nat := do
  let i ← add anchor ⟨kindOf tag .mapping, .mapping []⟩
  fill i (.mapping (← entries))
  return i

mutual
/-- A node with at most `room` levels; `isBlock` when blocks may start here, `flat` when a sequence
may stand on its parent's indentation. -/
def node : Nat → Nat → Bool → Bool → Parse Nat
  | 0, _, _, _ => throw .malformed
  | _, 0, _, _ => throw .tooDeep
  | fuel + 1, room + 1, isBlock, flat => do
    match ← peek with
    | .alias name => do
      skip
      match (← get).anchors.lookup name with
      | some i => return i
      | none => throw .malformed
    | _ => do
      let (anchor, tag) ← properties
      let next ← peek
      checkAnchor anchor
      match next with
      | .scalar text plain => do
        skip
        add anchor ⟨kindOf tag (untaggedKind tag plain text), .scalar text⟩
      | .flowSequenceStart => do
        skip
        addSequence anchor tag (flowItems fuel room true)
      | .flowMappingStart => do
        skip
        addMapping anchor tag (flowEntries fuel room true)
      | _ => do
        if flat && next = .blockEntry then addSequence anchor tag (flatItems fuel room)
        else if isBlock && next = .blockSequenceStart then
          skip
          addSequence anchor tag (blockItems fuel room)
        else if isBlock && next = .blockMappingStart then
          skip
          addMapping anchor tag (blockEntries fuel room)
        else if anchor.isSome || tag.isSome then add anchor ⟨kindOf tag .null, .scalar []⟩
        else throw .malformed

/-- A node, or the empty scalar when a token that cannot start one is at hand. -/
def nodeUnless : Nat → Nat → List Token → Bool → Bool → Parse Nat
  | 0, _, _, _, _ => throw .malformed
  | fuel + 1, room, stops, isBlock, flat => do
    if ← at? stops then addEmpty else node fuel room isBlock flat

/-- The items of a block sequence, up to and with its end. -/
def blockItems : Nat → Nat → Parse (List Nat)
  | 0, _ => throw .malformed
  | fuel + 1, room => do
    if ← at? [.blockEntry] then
      skip
      let i ← nodeUnless fuel room [.blockEntry, .blockEnd] true false
      return i :: (← blockItems fuel room)
    else
      expect .blockEnd
      return []

/-- The items of a sequence on its parent's indentation. -/
def flatItems : Nat → Nat → Parse (List Nat)
  | 0, _ => throw .malformed
  | fuel + 1, room => do
    if ← at? [.blockEntry] then
      skip
      let i ← nodeUnless fuel room [.blockEntry, .key, .value, .blockEnd] true false
      return i :: (← flatItems fuel room)
    else return []

/-- The entries of a block mapping, up to and with its end. -/
def blockEntries : Nat → Nat → Parse (List (Nat × Nat))
  | 0, _ => throw .malformed
  | fuel + 1, room => do
    if ← at? [.key] then
      skip
      let k ← nodeUnless fuel room [.key, .value, .blockEnd] true true
      let v ← blockValue fuel room
      return (k, v) :: (← blockEntries fuel room)
    else
      expect .blockEnd
      return []

/-- The value of an entry of a block mapping. -/
def blockValue : Nat → Nat → Parse Nat
  | 0, _ => throw .malformed
  | fuel + 1, room => do
    if ← at? [.value] then
      skip
      nodeUnless fuel room [.key, .value, .blockEnd] true true
    else addEmpty

/-- The items of a sequence in brackets, up to and with its end. -/
def flowItems : Nat → Nat → Bool → Parse (List Nat)
  | 0, _, _ => throw .malformed
  | fuel + 1, room, first => do
    if ← at? [.flowSequenceEnd] then
      skip
      return []
    else
      if !first then expect .flowEntry
      if ← at? [.key] then
        let i ← flowPair fuel room
        return i :: (← flowItems fuel room false)
      else if ← at? [.flowSequenceEnd] then
        skip
        return []
      else
        let i ← node fuel room false false
        return i :: (← flowItems fuel room false)

/-- The mapping of one entry that stands for an item of a sequence in brackets. -/
def flowPair : Nat → Nat → Parse Nat
  | 0, _ => throw .malformed
  | _, 0 => throw .tooDeep
  | fuel + 1, room + 1 => do
    skip
    addMapping none none do
      let k ← nodeUnless fuel room [.value, .flowEntry, .flowSequenceEnd] false false
      let v ← flowValue fuel room [.flowEntry, .flowSequenceEnd]
      return [(k, v)]

/-- The entries of a mapping in braces, up to and with its end. -/
def flowEntries : Nat → Nat → Bool → Parse (List (Nat × Nat))
  | 0, _, _ => throw .malformed
  | fuel + 1, room, first => do
    if ← at? [.flowMappingEnd] then
      skip
      return []
    else
      if !first then expect .flowEntry
      if ← at? [.key] then
        skip
        let k ← nodeUnless fuel room [.value, .flowEntry, .flowMappingEnd] false false
        let v ← flowValue fuel room [.flowEntry, .flowMappingEnd]
        return (k, v) :: (← flowEntries fuel room false)
      else if ← at? [.flowMappingEnd] then
        skip
        return []
      else
        let k ← node fuel room false false
        let v ← addEmpty
        return (k, v) :: (← flowEntries fuel room false)

/-- The value of an entry in brackets or braces. -/
def flowValue : Nat → Nat → List Token → Parse Nat
  | 0, _, _ => throw .malformed
  | fuel + 1, room, stops => do
    if ← at? [.value] then
      skip
      nodeUnless fuel room stops false false
    else addEmpty
end

/-- Adds a tag handle that was not declared before. -/
def addHandle (h lead : String) (declared : List (String × String)) :
    Except ReadError (List (String × String)) :=
  if (declared.lookup h).isSome then .error .malformed else .ok ((h, lead) :: declared)

/-- The directives in front of a document: one version at most, and tag handles. -/
def directivesOf : List Token → Bool → List (String × String) →
    Except ReadError (List Token × List (String × String))
  | .version major :: ts, versioned, hs =>
    if versioned || major ≠ 1 then .error .malformed else directivesOf ts true hs
  | .tagHandle h lead :: ts, versioned, hs => do directivesOf ts versioned (← addHandle h lead hs)
  | .otherDirective :: ts, versioned, hs => directivesOf ts versioned hs
  | ts, _, hs => .ok (ts, hs)

/-- The handles that every document has. -/
def baseHandles : List (String × String) :=
  [("!", "!"), ("!!", "tag:yaml.org,2002:")]

/-- Passes over directives and the mark of a document's start. -/
def documentHead : Parse Unit := do
  let (ts, hs) ← directivesOf (← get).tokens false []
  modify fun p => { p with tokens := ts, handles := hs ++ baseHandles }
  expect .documentStart

/-- Whether nothing of a document follows the mark of its start. -/
def atBareDocument : Parse Bool := do
  match ← peek with
  | .version _ | .tagHandle _ _ | .otherDirective | .documentStart | .documentEnd | .streamEnd =>
    return true
  | _ => return false

/-- The first document, if there is any. -/
def firstDocument (fuel : Nat) : Parse (Option Nat) := do
  match ← peek with
  | .streamEnd => return none
  | .documentStart | .version _ | .tagHandle _ _ | .otherDirective => do
    documentHead
    if ← atBareDocument then some <$> addEmpty else some <$> node fuel maxLevels true false
  | _ => some <$> node fuel maxLevels true false

/-- The one document of some tokens, if there is any. A second one is refused once it has started. -/
def document (fuel : Nat) : Parse (Option Nat) := do
  let found ← firstDocument fuel
  modify fun p => { p with tokens := p.tokens.dropWhile (· = .documentEnd) }
  if (← peek) = .streamEnd then return found
  else
    documentHead
    throw .malformed

end Parser

/-- The one document of some tokens that stop short for a reason, if there is any. -/
def Graph.ofTokens (ts : List Token) (failure : Option ReadError) : Except ReadError (Option Graph) := do
  let p : Parser := ⟨ts, failure.getD .malformed, Parser.baseHandles, [], #[]⟩
  let (root, p) ← (Parser.document (3 * ts.length + 8)).run p
  return root.map (⟨p.nodes, ·⟩)

end ScriptService.Yaml
