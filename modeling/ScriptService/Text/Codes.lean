/-!
# Code points

A text is made of characters. An escape can also name half of a surrogate pair, which is a code point
and no character; a text with such a half in it is kept as the list of its code points.
-/

namespace ScriptService.Text

/-- Whether a code point is half of a pair, and so no character. -/
def isHalf (n : Nat) : Bool :=
  0xD800 ≤ n && n < 0xE000

/-- The code points of some characters. -/
def codesOf (s : List Char) : List Nat :=
  s.map Char.toNat

/-- The text that code points make up, if all are characters. -/
def ofCodes? (ns : List Nat) : Option String :=
  if ns.any isHalf then none else some (String.ofList (ns.map Char.ofNat))

/-- The text that code points make up, with U+FFFD for each half. -/
def ofCodesLossy (ns : List Nat) : String :=
  String.ofList (ns.map fun n => if isHalf n then '\uFFFD' else Char.ofNat n)

end ScriptService.Text
