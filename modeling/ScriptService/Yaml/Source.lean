import ScriptService.Text.Lines
import ScriptService.Text.Utf8
import ScriptService.Value.ReadError

/-!
# The text of a YAML file

A file is not read as a whole: its bytes arrive in chunks, and the characters that they stand for are
handed on in blocks, each of which is checked when it is asked for. So a fault in a late block counts
only if nothing is wrong before it. `Source.ofBytes` gives the text in front of the first faulty block
and what is wrong with the block.
-/

namespace ScriptService.Yaml

open Text

/-- The characters of a file that can be read, and what is wrong behind them; they are all there are
if nothing is. -/
structure Source where
  text : List Char
  fault : Option ReadError

/-- How many bytes are read at once, at least. -/
def chunkSize : Nat := 8192

/-- How many characters are asked for at once. -/
def requestSize : Nat := 4096

/-- How many requests make up the first block; each later block is one. -/
def firstRequests : Nat := 2

/-- The state of reading in chunks. -/
structure Feed where
  /-- The bytes that are not read. -/
  bytes : List UInt8
  /-- The bytes that begin a character whose rest is not read. -/
  tail : List UInt8 := []
  /-- Whether a carriage return waits for what follows it. -/
  held : Bool := false
  /-- How many characters are read. -/
  made : Nat := 0
  /-- The size of the last chunk in bytes and in characters. -/
  lastSize : Nat × Nat := (0, 0)

namespace Feed

/-- The size of the next chunk: as many bytes as the characters that are left of the request took at
the rate of the last chunk, but not few. -/
def nextSize (f : Feed) : Nat :=
  max chunkSize ((requestSize - f.made % requestSize) * f.lastSize.1 / f.lastSize.2)

/-- The characters of a chunk with line ends unified, and whether a carriage return at its end waits
for the next chunk. -/
def unify (f : Feed) (cs : List Char) : List Char × Bool :=
  let cs := if f.held then '\r' :: cs else cs
  if cs.getLast? == some '\r' then (unifyNewlines cs.dropLast, true) else (unifyNewlines cs, false)

/-- The characters that are read until the bytes end or are not well-formed, and whether they are
well-formed. -/
def run : Nat → Feed → List Char × Bool
  | 0, _ => ([], false)
  | fuel + 1, f =>
    let chunk := f.bytes.take f.nextSize
    if chunk.isEmpty then (if f.held then ['\n'] else [], f.tail.isEmpty)
    else
      match decodeStart? (f.tail ++ chunk) with
      | none => ([], false)
      | some (cs, tail) =>
        let (text, held) := f.unify cs
        let (rest, sound) := run fuel
          { bytes := f.bytes.drop chunk.length, tail, held, made := f.made + text.length,
            lastSize := (chunk.length, text.length) }
        (text ++ rest, sound)

end Feed

/-- Characters that a YAML text may hold. -/
def isTextChar (c : Char) : Bool :=
  let n := c.toNat
  c == '\t' || c == '\n' || c == '\r' || (0x20 ≤ n && n ≤ 0x7E) || n = 0x85 || (0xA0 ≤ n && n ≤ 0xFFFD) ||
    0x10000 ≤ n

/-- Where the block starts that holds the character at an index. -/
def blockStart (index : Nat) : Nat :=
  if index < firstRequests * requestSize then 0 else index / requestSize * requestSize

/-- The text of a file's bytes. Of bytes that are not well-formed only whole blocks can be read. -/
def Source.ofBytes (bytes : List UInt8) : Source :=
  let (text, sound) := ({ bytes } : Feed).run (bytes.length + 1)
  let usable := if sound then text else text.take (blockStart text.length)
  let good := usable.takeWhile isTextChar
  if good.length < usable.length then ⟨usable.take (blockStart good.length), some .malformed⟩
  else ⟨usable, if sound then none else some .undecodable⟩

end ScriptService.Yaml
