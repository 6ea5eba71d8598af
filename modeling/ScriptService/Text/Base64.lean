/-!
# Bytes in base sixty-four

Four characters stand for three bytes. Characters of no value are passed over, and reading stops
where padding completes a group.
-/

namespace ScriptService.Text

/-- The value of a base-sixty-four character. -/
def base64Value? (c : Char) : Option Nat :=
  if c.isUpper then some (c.toNat - 65)
  else if c.isLower then some (c.toNat - 71)
  else if c.isDigit then some (c.toNat + 4)
  else if c == '+' then some 62
  else if c == '/' then some 63
  else none

/-- The bytes of a text, of which `held` values of the group at hand are read, with the bits `bits`
not yet written, and `pads` marks of padding. -/
def base64From? (held bits pads : Nat) : List Char → Option (List UInt8)
  | [] => if held = 0 then some [] else none
  | c :: s =>
    if c == '=' then
      if held < 2 then base64From? held bits pads s
      else if 4 ≤ held + pads + 1 then some []
      else base64From? held bits (pads + 1) s
    else
      match base64Value? c with
      | none => base64From? held bits pads s
      | some v =>
        match held with
        | 0 => base64From? 1 v 0 s
        | 1 => (base64From? 2 (v % 16) 0 s).map ((bits * 4 + v / 16).toUInt8 :: ·)
        | 2 => (base64From? 3 (v % 4) 0 s).map ((bits * 16 + v / 4).toUInt8 :: ·)
        | _ => (base64From? 0 0 0 s).map ((bits * 64 + v).toUInt8 :: ·)

/-- The bytes that a text stands for. -/
def decodeBase64? (s : List Char) : Option (List UInt8) :=
  base64From? 0 0 0 s

end ScriptService.Text
