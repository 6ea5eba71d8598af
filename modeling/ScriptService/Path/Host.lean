import ScriptService.Value.Literal

/-!
# Hosts in brackets

A host in brackets is an address of sixteen bytes, written in groups of base-sixteen digits, or an
address of a later version. Other hosts are refused there.
-/

namespace ScriptService.Host

open Text

/-- Why a host cannot stand in brackets. -/
inductive Error where
  | notAnAddress (host : String)
  | shortAddress
  | laterVersion
deriving DecidableEq

/-- What an error says. -/
def Error.message : Error → String
  | .notAnAddress host => quoteText host ++ " does not appear to be an IPv4 or IPv6 address"
  | .shortAddress => "An IPv4 address cannot be in brackets"
  | .laterVersion => "IPvFuture address is invalid"

/-- The pieces between separators of a text that continues the piece `cur`, in reverse. -/
def piecesFrom (separator : Char) : List Char → List Char → List (List Char)
  | cur, [] => [cur.reverse]
  | cur, c :: s =>
    if c == separator then cur.reverse :: piecesFrom separator [] s else piecesFrom separator (c :: cur) s

/-- Whether a text is a number up to 255 without needless zeros. -/
def isOctet (s : List Char) : Bool :=
  !s.isEmpty && s.length ≤ 3 && s.all Char.isDigit && (s.length = 1 || s.head? != some '0') &&
    s.foldl (fun n c => n * 10 + (c.toNat - 48)) 0 ≤ 255

/-- Whether a text is an address of four bytes. -/
def isShort (s : List Char) : Bool :=
  let parts := piecesFrom '.' [] s
  parts.length = 4 && parts.all isOctet

/-- Whether groups, some of which may be empty, make up an address of sixteen bytes: eight groups, or
fewer around one gap. -/
def isGrouping (parts : List (List Char)) : Bool :=
  let n := parts.length
  let inner := (parts.drop 1).dropLast
  let gaps := (inner.filter (·.isEmpty)).length
  let head := (parts.head?.getD []).isEmpty
  let last := (parts.getLast?.getD []).isEmpty
  let groups := parts.filter (!·.isEmpty)
  let sound := groups.all fun g => g.length ≤ 4 && g.all isHexDigit
  if n < 3 || n > 9 || gaps > 1 then false
  else if gaps = 1 then
    let i := 1 + (inner.takeWhile (!·.isEmpty)).length
    sound && (!head || i = 1) && (!last || n - i - 1 = 1) && groups.length ≤ 7
  else n = 8 && !head && !last && sound

/-- Whether a text is an address of sixteen bytes, whose last four may be written as a short one and
which may name a zone. -/
def isLong (s : List Char) : Bool :=
  let address := s.takeWhile (· != '%')
  let zone := s.drop (address.length + 1)
  let zoneSound := address.length = s.length || (!zone.isEmpty && !zone.contains '%')
  let parts := piecesFrom ':' [] address
  let tail := parts.getLast?.getD []
  zoneSound &&
    if tail.contains '.' then
      isShort tail && parts.length ≥ 3 && isGrouping (parts.dropLast ++ [['0'], ['0']])
    else isGrouping parts

/-- Whether a text is an address of a later version: a `v`, its number, a dot and more. -/
def isLater (s : List Char) : Bool :=
  let digits := (s.drop 1).takeWhile isHexDigit
  let rest := s.drop (1 + digits.length)
  !digits.isEmpty && rest.head? == some '.' && rest.length > 1 && !(rest.drop 1).contains '\n'

/-- Refuses a host that cannot stand in brackets. -/
def check (host : List Char) : Except Error Unit :=
  if host.head? == some 'v' then if isLater host then .ok () else .error .laterVersion
  else if isShort host then .error .shortAddress
  else if isLong host then .ok ()
  else .error (.notAnAddress (String.ofList host))

end ScriptService.Host
