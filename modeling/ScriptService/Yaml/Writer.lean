import ScriptService.Yaml.Kind
import ScriptService.Yaml.Pen

/-!
# Writing YAML

Mappings and lists are written as blocks, mappings in the order of their keys. A text is written
plainly where it reads back as a text, else in quotation marks. What has no plain form of its own is
written as the nearest thing that has.
-/

namespace ScriptService.Yaml

/-- How a scalar may be written. -/
structure Manner where
  /-- Whether it holds line breaks. -/
  hasBreaks : Bool
  plain : Bool
  single : Bool

/-- Whether a blank, a line break or the end of a scalar is next. -/
def isScalarGap : List Char → Bool
  | [] => true
  | c :: _ => c == '\x00' || c == ' ' || c == '\t' || c == '\r' || isScalarBreak c

/-- Whether a scalar could be taken for something else where it goes on behind its first character,
which a gap precedes if `gap`. -/
def misreads : Bool → List Char → Bool
  | _, [] => false
  | gap, c :: s => (c == ':' && isScalarGap s) || (c == '#' && gap) || misreads (isScalarGap [c]) s

/-- Whether a scalar could be taken for something else if written plainly. -/
def misreadsPlain : List Char → Bool
  | [] => false
  | c :: s =>
    "#,[]\x7b\x7d&*!|>'\"%@`".toList.contains c || ((c == '?' || c == ':' || c == '-') && isScalarGap s) ||
      ["---".toList, "...".toList].contains ((c :: s).take 3) || misreads (isScalarGap [c]) s

/-- Whether two characters, the first of one kind and the second of another, follow each other. -/
def hasNeighbours (p q : Char → Bool) : List Char → Bool
  | a :: b :: s => (p a && q b) || hasNeighbours p q (b :: s)
  | _ => false

/-- How a text may be written. -/
def Manner.ofText (s : List Char) : Manner :=
  let isSpace := fun c : Char => c == ' '
  let special := s.any fun c => !(c == '\n' || (' ' ≤ c && c ≤ '~'))
  let hasBreaks := s.any isScalarBreak
  let single := !special && !hasNeighbours isScalarBreak isSpace s && !hasNeighbours isSpace isScalarBreak s
  { hasBreaks
    single
    plain := single && !hasBreaks && !s.head?.any isSpace && !s.getLast?.any isSpace && !misreadsPlain s }

/-- Writes a text; `key` where an entry's key is wanted on one line. -/
def writeText (indent : Nat) (key : Bool) (s : String) (p : Pen) : Pen :=
  let cs := s.toList
  let m := Manner.ofText cs
  if Kind.ofPlain s = .text && m.plain then p.plain indent (!key) cs
  else if m.single && !(key && m.hasBreaks) then p.single indent (!key) cs
  else p.double indent (!key) cs

/-- The text of a floating-point number. -/
def floatText (x : Float) : String :=
  if x.isNaN then ".nan"
  else if x.isInf then if x < 0 then "-.inf" else ".inf"
  else
    let s := Number.text x
    if s.contains '.' then s else
      let cs := s.toList
      String.ofList (cs.takeWhile (· != 'e') ++ ['.', '0'] ++ cs.dropWhile (· != 'e'))

/-- Whether a key is written in front of its value on one line. -/
def isShortKey (s : String) : Bool :=
  s.length + "!!str".length < 128 && s ≠ "" && !s.toList.any isScalarBreak

/-- The text of a value that stands for a key. -/
def keyText : Value → String
  | .text s => s
  | v => v.display

/-- Sorted entries with one more, in front of those whose keys are not before its own. -/
def insertSorted (e : Value × Value) : List (Value × Value) → List (Value × Value)
  | [] => [e]
  | f :: fs => if keyText f.1 < keyText e.1 then f :: insertSorted e fs else e :: f :: fs

/-- Entries in the order of their keys. -/
def sortEntries (es : List (Value × Value)) : List (Value × Value) :=
  es.foldr insertSorted []

/-- The indentation of a collection. -/
def deeper (indent : Option Nat) : Nat :=
  indent.elim 0 (· + 2)

mutual
/-- Writes a value; `entry` where it is the key or the value of an entry. -/
def writeNode : Nat → Option Nat → Bool → Value → Pen → Pen
  | 0, _, _, _, p => p
  | fuel + 1, indent, entry, v, p =>
    let scalar := fun (s : String) => p.plain (indent.getD 0 + 2) true s.toList
    match v with
    | .null => scalar "null"
    | .bool b => scalar (if b then "true" else "false")
    | .int n => scalar (toString n)
    | .float x => scalar (floatText x)
    | .day d => scalar d.display
    | .moment m => scalar m.display
    | .text s => writeText (indent.getD 0 + 2) false s p
    | .codes ns => writeText (indent.getD 0 + 2) false (Text.ofCodesLossy ns) p
    | .loop _ => scalar "null"
    | .bytes bs => writeText (indent.getD 0 + 2) false (String.ofList (bs.map fun b => Char.ofNat b.toNat)) p
    | .pair a b => writeNode fuel indent entry (.list [a, b]) p
    | .set xs => writeNode fuel indent entry (.list xs) p
    | .list [] => p.mark "[]" true false
    | .list xs =>
      -- a list that starts behind its key's colon stands on the key's indentation
      writeItems fuel (if entry && !p.leading then indent.getD 0 else deeper indent) xs p
    | .mapping [] => p.mark "\x7b\x7d" true false
    | .mapping es => writeEntries fuel (deeper indent) (sortEntries es) p

/-- Writes the items of a list. -/
def writeItems : Nat → Nat → List Value → Pen → Pen
  | 0, _, _, p => p
  | _, _, [], p => p
  | fuel + 1, indent, v :: vs, p =>
    writeItems fuel indent vs (writeNode fuel (some indent) false v ((p.toIndent indent).mark "-" true true))

/-- Writes the entries of a mapping. -/
def writeEntries : Nat → Nat → List (Value × Value) → Pen → Pen
  | 0, _, _, p => p
  | _, _, [], p => p
  | fuel + 1, indent, (k, v) :: es, p =>
    let p := p.toIndent indent
    let p :=
      if isShortKey (keyText k) then
        let p := match k with
          | .text s => writeText (indent + 2) true s p
          | k => p.plain (indent + 2) false (keyText k).toList
        writeNode fuel (some indent) true v (p.mark ":" false false)
      else
        let p := writeNode fuel (some indent) true k (p.mark "?" true true)
        writeNode fuel (some indent) true v ((p.toIndent indent).mark ":" true true)
    writeEntries fuel indent es p
end

mutual
/-- A bound on the steps that writing a value takes. -/
def weight : Value → Nat
  | .list xs => weightOfItems xs + 2
  | .set xs => weightOfItems xs + 3
  | .pair a b => weight a + weight b + 5
  | .mapping es => weightOfEntries es + 2
  | _ => 1

/-- A bound on the steps that writing some items takes. -/
def weightOfItems : List Value → Nat
  | [] => 0
  | v :: vs => weight v + weightOfItems vs + 1

/-- A bound on the steps that writing some entries takes. -/
def weightOfEntries : List (Value × Value) → Nat
  | [] => 0
  | (k, v) :: es => weight k + weight v + weightOfEntries es + 1
end

/-- A value as a document. -/
def write (v : Value) : String :=
  let p := writeNode (weight v + 2) none false v {}
  String.ofList (p.toIndent 0).written.reverse

end ScriptService.Yaml
