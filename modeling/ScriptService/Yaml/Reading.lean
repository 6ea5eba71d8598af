import ScriptService.Text.Base64
import ScriptService.Value.Members
import ScriptService.Yaml.Graph
import ScriptService.Yaml.Lexer
import ScriptService.Yaml.Number

/-!
# From a graph to a value

Each node stands for a value by its kind. A scalar is read where it is met; a collection is put into
a queue there, and what is inside it is read when its turn comes. So of several faults the one on the
outermost level counts, and of these the first. What is read is a cell for each node, and only in the
end the cells are put together: where a collection is inside itself the value says so.
-/

namespace ScriptService.Yaml

open Text

/-! ## Scalars -/

/-- The value of a scalar of a kind. -/
def scalarValue (kind : Kind) (s : String) : Except ReadError Value :=
  match kind with
  | .null => .ok .null
  | .bool =>
    match truthWords.lookup (lower s) with
    | some b => .ok (.bool b)
    | none => .error .unknownWord
  | .int => int? s
  | .float => float? s
  | .instant =>
    match instant? s.toList with
    | some i => i.value
    | none => .error .noInstant
  | .text => .ok (.text s)
  | .bytes =>
    if s.toList.all (·.toNat < 128) then
      match decodeBase64? s.toList with
      | some bs => .ok (.bytes bs)
      | none => .error .malformed
    else .error .malformed
  | _ => .error .malformed

/-- The value of a scalar with halves of pairs in it. Only a text or nothing can be written so. -/
def halvedValue (kind : Kind) (ns : List Nat) : Except ReadError Value :=
  let digits := ns.filter (· ≠ '_'.toNat)
  let unsigned := digits.drop (if digits.head? == some '-'.toNat || digits.head? == some '+'.toNat then 1 else 0)
  match kind with
  | .null => .ok .null
  | .bool => .error .unknownWord
  | .int => .error (Number.notAnInteger 10 (quoteCodes unsigned))
  | .float => .error (notAFloat (quoteCodes unsigned))
  | .instant => .error .noInstant
  | .text => .ok (.codes ns)
  | _ => .error .malformed

/-- The value of a scalar's code points. -/
def codesValue (kind : Kind) (ns : List Nat) : Except ReadError Value :=
  match ofCodes? ns with
  | some s => scalarValue kind s
  | none => halvedValue kind ns

/-! ## Cells -/

/-- A key of a mapping: its value, and the node that it is from. -/
structure Key where
  node : Nat
  value : Value
  /-- Whether it is the one value that stands for what is not a number wherever that is written. -/
  notANumber : Bool

/-- Whether two keys are the same: equal, or the same thing although it equals nothing. -/
def Key.same (a b : Key) : Bool :=
  a.node = b.node || (a.notANumber && b.notANumber) || a.value.sameKey b.value

/-- What a node stands for, collections by the numbers of the nodes in them. -/
inductive Cell where
  | scalar (v : Value)
  | list (items : List Nat)
  | pairs (items : List (Nat × Nat))
  | set (keys : List Key)
  | mapping (entries : List (Key × Nat))

/-- Entries once a key is given a value: in the place of the same key, else last. -/
def Cell.insert (key : Key) (value : Nat) : List (Key × Nat) → List (Key × Nat)
  | [] => [(key, value)]
  | (k, v) :: es => if k.same key then (k, value) :: es else (k, v) :: insert key value es

/-- The state of reading a graph. -/
structure Reader where
  nodes : Array Node
  /-- The cells of the nodes that were met. -/
  cells : Array (Option Cell)
  /-- The collections that were met, in order. -/
  queue : Array Nat

/-- A reader's step. -/
abbrev Read (α : Type) := StateT Reader (Except ReadError) α

/-- A bound on the steps of reading that no document reaches. -/
def maxReadSteps : Nat := 1000000000000

namespace Reader

/-- The node of a number. -/
def nodeAt (i : Nat) : Read Node := do
  match (← get).nodes[i]? with
  | some n => return n
  | none => throw .malformed

/-- The entries of a mapping's node. -/
def entriesAt (i : Nat) : Read (List (Nat × Nat)) := do
  match (← nodeAt i).content with
  | .mapping es => return es
  | _ => throw .malformed

/-- Sets the entries of a mapping's node. -/
def setEntries (i : Nat) (es : List (Nat × Nat)) : Read Unit :=
  modify fun r => { r with nodes := r.nodes.modify i fun n => { n with content := .mapping es } }

/-- Makes the node of a key a text. -/
def setText (i : Nat) : Read Unit :=
  modify fun r => { r with nodes := r.nodes.modify i fun n => { n with kind := .text } }

/-- Sets the cell of a node. -/
def setCell (i : Nat) (c : Cell) : Read Unit :=
  modify fun r => { r with cells := r.cells.setIfInBounds i (some c) }

/-- The text where a scalar is wanted. A mapping gives the value of its stand-in key, which may be a
mapping again, down to as many levels as there may be. -/
def scalarText : Nat → Nat → Read (List Nat)
  | 0, _ => throw .tooDeep
  | fuel + 1, i => do
    match (← nodeAt i).content with
    | .scalar text => return text
    | .sequence _ => throw .malformed
    | .mapping es => do
      match ← es.findM? fun (k, _) => do return (← nodeAt k).kind = .standIn with
      | some (_, v) => scalarText fuel v
      | none => throw .malformed

/-- Whether a node is a mapping's. -/
def isMapping (i : Nat) : Read Bool := do
  match (← nodeAt i).content with
  | .mapping _ => return true
  | _ => return false

/-- Reads a node where it is met, unless it was met before. -/
def meet (i : Nat) : Read Unit := do
  if ((← get).cells[i]?.join).isSome then return
  let enqueue (c : Cell) : Read Unit := do
    setCell i c
    modify fun r => { r with queue := r.queue.push i }
  let kind := (← nodeAt i).kind
  match kind with
  | .list => enqueue (.list [])
  | .orderedPairs | .pairs => enqueue (.pairs [])
  | .set => enqueue (.set [])
  | .mapping => enqueue (.mapping [])
  | .merge | .standIn | .unknown => throw .malformed
  | _ => do
    let text ← scalarText maxLevels i
    if kind = .instant && (← isMapping i) then throw .instantOfMapping
    setCell i (.scalar (← codesValue kind text))

mutual
/-- Puts the entries of the mappings that are merged into a mapping in front of its own, those from
the entry at an index on; `merged` are those found before. A key that could stand in for its mapping
is a text. -/
def mergeFrom : Nat → Nat → Nat → List (Nat × Nat) → Read Unit
  | 0, _, _, _ => throw .tooDeep
  | fuel + 1, i, index, merged => do
    let es ← entriesAt i
    match es[index]? with
    | none => setEntries i (merged ++ es)
    | some (k, v) => do
      match (← nodeAt k).kind with
      | .merge => do
        setEntries i (es.eraseIdx index)
        mergeFrom fuel i index (merged ++ (← mergedBy fuel v))
      | .standIn => do
        setText k
        mergeFrom fuel i (index + 1) merged
      | _ => mergeFrom fuel i (index + 1) merged

/-- The entries that the value of a merging key brings: those of a mapping, or of several, of which
the first counts most and so stands last. -/
def mergedBy : Nat → Nat → Read (List (Nat × Nat))
  | 0, _ => throw .tooDeep
  | fuel + 1, v => do
    match (← nodeAt v).content with
    | .mapping _ => do
      mergeFrom fuel v 0 []
      entriesAt v
    | .sequence items => do
      let parts ← items.mapM fun j => do
        if ← isMapping j then
          mergeFrom fuel j 0 []
          entriesAt j
        else throw .malformed
      return parts.reverse.flatten
    | .scalar _ => throw .malformed
end

/-- A node as a key, which no collection can be. -/
def keyAt (i : Nat) : Read Key := do
  meet i
  match (← get).cells[i]?.join with
  | some (.scalar v) => do
    let word := ofCodes? (← scalarText maxLevels i)
    return ⟨i, v, (← nodeAt i).kind = .float && word.any isNotANumber⟩
  | _ => throw .malformed

/-- The entries of a mapping with those merged into it; of the same keys the last value counts. -/
def mappingEntries (i : Nat) : Read (List (Key × Nat)) := do
  if ← isMapping i then
    mergeFrom maxReadSteps i 0 []
    (← entriesAt i).foldlM (fun es (k, v) => do
      let key ← keyAt k
      meet v
      return Cell.insert key v es) []
  else throw .malformed

/-- The items of a sequence. -/
def itemsAt (i : Nat) : Read (List Nat) := do
  match (← nodeAt i).content with
  | .sequence items => return items
  | _ => throw .malformed

/-- The pair that a mapping of one entry stands for. -/
def pairAt (i : Nat) : Read (Nat × Nat) := do
  match (← nodeAt i).content with
  | .mapping [(k, v)] => do
    meet k
    meet v
    return (k, v)
  | _ => throw .malformed

/-- Reads what is inside a collection. -/
def readInside (i : Nat) : Read Unit := do
  match (← nodeAt i).kind with
  | .list => do
    let items ← itemsAt i
    items.forM meet
    setCell i (.list items)
  | .orderedPairs | .pairs => do
    setCell i (.pairs (← (← itemsAt i).mapM pairAt))
  | .set => do setCell i (.set ((← mappingEntries i).map Prod.fst))
  | .mapping => do setCell i (.mapping (← mappingEntries i))
  | _ => throw .malformed

/-- Reads the collections of the queue from a place on, and those that are met on the way. -/
def drain : Nat → Nat → Read Unit
  | 0, _ => throw .tooDeep
  | fuel + 1, place => do
    match (← get).queue[place]? with
    | none => return
    | some i => do
      readInside i
      drain fuel (place + 1)

/-- Reads a whole graph from its outermost node on. -/
def readAll (root : Nat) : Read Unit := do
  meet root
  drain ((← get).nodes.size + 1) 0

end Reader

/-- The cells of a graph. -/
def Graph.cells (g : Graph) : Except ReadError (Array (Option Cell)) := do
  let start : Reader := ⟨g.nodes, Array.replicate g.nodes.size none, #[]⟩
  let ((), r) ← (Reader.readAll g.root).run start
  return r.cells

/-! ## Values -/

/-- Values that were put together before, by the numbers of their nodes. -/
abbrev Known := Array (Option Value)

/-- The value of a node, given the collections around it, and whether one of those is inside it. Only
a value that holds nothing around it is kept for other places. -/
def assemble (cells : Array (Option Cell)) : Nat → List Nat → Nat → StateM Known (Value × Bool)
  | 0, _, _ => return (.null, false)
  | fuel + 1, around, i => do
    let inside := assemble cells fuel (i :: around)
    let keep (v : Value) (cut : Bool) : StateM Known (Value × Bool) := do
      if !cut then modify fun known => known.setIfInBounds i (some v)
      return (v, cut)
    match (← get)[i]?.join with
    | some v => return (v, false)
    | none =>
      match cells[i]?.join with
      | none => return (.null, false)
      | some (.scalar v) => return (v, false)
      | some (.list items) =>
        if around.contains i then return (.loop false, true)
        let parts ← items.mapM inside
        keep (.list (parts.map Prod.fst)) (parts.any Prod.snd)
      | some (.pairs items) =>
        if around.contains i then return (.loop false, true)
        let parts ← items.mapM fun (k, v) => do
          let (a, cutA) ← inside k
          let (b, cutB) ← inside v
          return (Value.pair a b, cutA || cutB)
        keep (.list (parts.map Prod.fst)) (parts.any Prod.snd)
      | some (.set keys) => return (.set (Value.members (keys.map (·.value))), false)
      | some (.mapping entries) =>
        if around.contains i then return (.loop true, true)
        let parts ← entries.mapM fun (k, v) => do
          let (b, cut) ← inside v
          return ((k.value, b), cut)
        keep (.mapping (parts.map Prod.fst)) (parts.any Prod.snd)

/-- The value of the outermost node. A mapping is looked into entry by entry, so each of its values
is put together as if nothing were around it. -/
def assembleRoot (cells : Array (Option Cell)) (root : Nat) : Value :=
  let known : Known := Array.replicate cells.size none
  let fuel := cells.size + 1
  match cells[root]?.join with
  | some (.mapping entries) =>
    let values := (entries.mapM fun e => assemble cells fuel [] e.2).run known
    .mapping ((entries.zip values.1).map fun (e, v) => (e.1.value, v.1))
  | _ => ((assemble cells fuel [] root).run known).1.1

/-- The value of a document. -/
def Graph.value (g : Graph) : Except ReadError Value := do
  return assembleRoot (← g.cells) g.root

/-- The value that the bytes of a YAML file stand for; an empty one stands for nothing. -/
def read (bytes : List UInt8) : Except ReadError Value := do
  let (ts, failure) := tokens (Source.ofBytes bytes)
  match ← Graph.ofTokens ts failure with
  | none => .ok .null
  | some g => g.value

end ScriptService.Yaml
