import ScriptService.Value.Literal

/-!
# Writing JSON

Values as JSON text, either on one line or with two spaces of indentation for each level, and with
all characters as they are or those outside ASCII escaped. A value inside itself is written as
nothing.
-/

namespace ScriptService.Json

open Text

/-- How JSON is laid out. -/
structure Style where
  indented : Bool
  escaped : Bool

/-- A code unit as an escape. -/
def unitEscape (n : Nat) : List Char :=
  '\\' :: 'u' :: hexDigits 4 n

/-- A character inside a string. -/
def encodeChar (escaped : Bool) (c : Char) : List Char :=
  if c == '"' || c == '\\' then ['\\', c]
  else if c == '\n' then ['\\', 'n']
  else if c == '\r' then ['\\', 'r']
  else if c == '\t' then ['\\', 't']
  else if c == '\x08' then ['\\', 'b']
  else if c == '\x0c' then ['\\', 'f']
  else if c.toNat < 0x20 then unitEscape c.toNat
  else if escaped && c.toNat > 0x7E then
    if c.toNat < 0x10000 then unitEscape c.toNat
    else unitEscape (0xD800 + (c.toNat - 0x10000) / 0x400) ++
      unitEscape (0xDC00 + (c.toNat - 0x10000) % 0x400)
  else [c]

/-- A text as a string. -/
def encodeText (escaped : Bool) (s : String) : String :=
  String.ofList ('"' :: s.toList.flatMap (encodeChar escaped) ++ ['"'])

/-- Code points as a string; halves of pairs are escaped. -/
def encodeCodes (escaped : Bool) (ns : List Nat) : String :=
  String.ofList ('"' :: (ns.flatMap fun n =>
    if isHalf n then unitEscape n else encodeChar escaped (Char.ofNat n)) ++ ['"'])

/-- The break and indentation in front of an item at a depth. -/
def lineBreak (style : Style) (depth : Nat) : String :=
  if style.indented then String.ofList ('\n' :: List.replicate (2 * depth) ' ') else ""

/-- Items between brackets. -/
def enclose (style : Style) (depth : Nat) (left right : String) (items : List String) : String :=
  if items.isEmpty then left ++ right
  else
    let comma := if style.indented then "," ++ lineBreak style (depth + 1) else ", "
    left ++ lineBreak style (depth + 1) ++ comma.intercalate items ++ lineBreak style depth ++ right

mutual
/-- A value as JSON at a depth of nesting. -/
def writeAt (style : Style) (depth : Nat) : Value → String
  | .null => "null"
  | .bool true => "true"
  | .bool false => "false"
  | .int n => toString n
  | .float x => Number.text x
  | .text s => encodeText style.escaped s
  | .codes ns => encodeCodes style.escaped ns
  | .list xs => enclose style depth "[" "]" (writeItems style (depth + 1) xs)
  | .pair a b => enclose style depth "[" "]" [writeAt style (depth + 1) a, writeAt style (depth + 1) b]
  | .set xs => enclose style depth "[" "]" (writeItems style (depth + 1) xs)
  | .mapping es => enclose style depth "\x7b" "\x7d" (writeEntries style (depth + 1) es)
  | .day d => encodeText style.escaped d.display
  | .moment m => encodeText style.escaped m.display
  | .bytes bs => encodeText style.escaped (quoteBytes bs)
  | .loop _ => "null"

/-- The items of a list as JSON. -/
def writeItems (style : Style) (depth : Nat) : List Value → List String
  | [] => []
  | v :: vs => writeAt style depth v :: writeItems style depth vs

/-- The entries of a mapping as JSON. -/
def writeEntries (style : Style) (depth : Nat) : List (Value × Value) → List String
  | [] => []
  | (k, v) :: es =>
    (encodeText style.escaped k.display ++ ": " ++ writeAt style depth v) :: writeEntries style depth es
end

/-- A value as JSON. -/
def write (style : Style) (v : Value) : String :=
  writeAt style 0 v

end ScriptService.Json
