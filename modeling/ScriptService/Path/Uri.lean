import ScriptService.Path.Basic
import ScriptService.Path.Host
import ScriptService.Text.Hex
import ScriptService.Text.Utf8

/-!
# File URIs

Editors name documents by URIs. A `file:` URI stands for the path in it, with percent escapes
resolved twice over; any other text is a path itself. A path becomes a URI by escaping every byte but
letters, digits, slashes and four marks.
-/

namespace ScriptService.Uri

open Text

/-- Why a URI has no path, or a path no URI. -/
inductive Error where
  | unpairedBracket
  | host (e : Host.Error)
  | unsafeHost (name : String)
  | nulInPath
deriving DecidableEq

/-- What an error says. -/
def Error.message : Error → String
  | .unpairedBracket => "Invalid IPv6 URL"
  | .host e => e.message
  | .unsafeHost name => "netloc '" ++ name ++ "' contains invalid characters under NFKC normalization"
  | .nulInPath => "embedded null byte"

/-- The scheme of a URI in small letters, and the text behind it. -/
def scheme? (s : List Char) : Option (List Char × List Char) :=
  let scheme := s.takeWhile (· != ':')
  if scheme.length < s.length && scheme.head?.any Char.isAlpha &&
      scheme.all fun c => c.isAlphanum || c == '+' || c == '-' || c == '.' then
    some (scheme.map Char.toLower, s.drop (scheme.length + 1))
  else none

/-- Characters that turn into a delimiter of URIs when equivalent characters are unified. -/
def isDelimiterLike (c : Char) : Bool :=
  [0x2047, 0x2048, 0x2049, 0x2100, 0x2101, 0x2105, 0x2106, 0x2A74, 0xFE13, 0xFE16, 0xFE55, 0xFE56,
   0xFE5F, 0xFE6B, 0xFF03, 0xFF0F, 0xFF1A, 0xFF1F, 0xFF20].contains c.toNat

/-- A text up to the first of a character, and what follows it. -/
def cutAt (c : Char) (s : List Char) : List Char × List Char :=
  (s.takeWhile (· != c), (s.dropWhile (· != c)).drop 1)

/-- The name of a host, which may stand in brackets with nothing before them; behind
them may come a colon and its number. -/
def hostName (s : List Char) : Except Error (List Char) :=
  match s with
  | '[' :: inner =>
    let (name, behind) := cutAt ']' inner
    if behind.isEmpty || behind.head? == some ':' then .ok name else .error .unpairedBracket
  | s => if s.contains '[' then .error .unpairedBracket else .ok (cutAt ':' s).1

/-- Refuses a host with brackets that are not in their place, with something else than an address
where there are any, or with a character that could be taken for a delimiter. A user may stand in
front of it. -/
def checkHost (host : List Char) : Except Error Unit := do
  if host.contains '[' != host.contains ']' then .error .unpairedBracket
  else
    if host.contains '[' then
      let name ← hostName (host.reverse.takeWhile (· != '@')).reverse
      match Host.check name with
      | .ok _ => pure ()
      | .error e => .error (.host e)
    if host.any isDelimiterLike then .error (.unsafeHost (String.ofList host)) else .ok ()

/-- A text as URIs are read: without controls and spaces in front, tabs and line breaks. -/
def clean (s : List Char) : List Char :=
  (s.dropWhile (·.toNat ≤ 0x20)).filter fun c => c != '\t' && c != '\r' && c != '\n'

/-- The scheme of a URI and its path, without host, query and fragment. -/
def parts (uri : String) : Except Error (List Char × List Char) := do
  let s := clean uri.toList
  let (scheme, s) := (scheme? s).getD ([], s)
  let stop := fun (c : Char) => c == '/' || c == '?' || c == '#'
  let rest ← match s with
    | '/' :: '/' :: t => do
      checkHost (t.takeWhile (!stop ·))
      pure (t.dropWhile (!stop ·))
    | s => pure s
  .ok (scheme, rest.takeWhile fun c => c != '?' && c != '#')

/-- The byte of an escape whose two digits are given. -/
def escapedByte? (a b : Char) : Option UInt8 := do
  let a ← hexValue? a
  let b ← hexValue? b
  some (UInt8.ofNat (a * 16 + b))

/-- The bytes of a text with its percent escapes resolved; a percent sign without two digits stays. -/
def unescapeBytes : List Char → List UInt8
  | '%' :: a :: b :: s =>
    match escapedByte? a b with
    | some byte => byte :: unescapeBytes s
    | none => UInt8.ofNat '%'.toNat :: unescapeBytes (a :: b :: s)
  | c :: s => String.utf8EncodeChar c ++ unescapeBytes s
  | [] => []

/-- Whether a character is ASCII. -/
def isAscii (c : Char) : Bool :=
  c.toNat < 0x80

/-- A text with percent escapes resolved run by run, `cur` being the run of ASCII characters at hand,
in reverse; characters outside ASCII stay as they are. -/
def unescapeFrom : List Char → List Char → List Char
  | cur, [] => decodeUtf8Lossy (unescapeBytes cur.reverse)
  | cur, c :: s =>
    if isAscii c then unescapeFrom (c :: cur) s
    else decodeUtf8Lossy (unescapeBytes cur.reverse) ++ c :: unescapeFrom [] s

/-- A text with percent escapes resolved. -/
def unescape (s : List Char) : List Char :=
  unescapeFrom [] s

/-- The path that a URI, or a plain path, stands for. -/
def toPath (uri : String) : Except Error Path := do
  let (scheme, path) ← parts uri
  if scheme = "file".toList then .ok (Path.ofString (String.ofList (unescape (unescape path))))
  else .ok (Path.ofString uri)

/-- Bytes that stand for themselves in a URI's path. -/
def isPlainByte (b : UInt8) : Bool :=
  let c := Char.ofNat b.toNat
  isAscii c && (c.isAlphanum || c == '_' || c == '.' || c == '-' || c == '~' || c == '/')

/-- A byte in a URI's path. -/
def encodeByte (b : UInt8) : List Char :=
  if isPlainByte b then [Char.ofNat b.toNat] else '%' :: hexCapitals 2 b.toNat

/-- The URI of a path as it is written. -/
def ofText (path : String) : String :=
  "file://" ++ String.ofList ((encodeUtf8 path.toList).flatMap encodeByte)

/-- The URI of a path, which a relative one has from a working directory. -/
def ofPath (cwd p : Path) : Except Error String :=
  if p.text.toList.contains '\x00' then .error .nulInPath else .ok (ofText (Path.resolve cwd p).text)

end ScriptService.Uri
