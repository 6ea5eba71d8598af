/-!
# UTF-8

Bytes to text and back. A reader that meets bytes that are not well-formed either refuses the whole
(`decodeUtf8?`) or puts one U+FFFD in the place of each longest piece that could have begun a
character (`decodeUtf8Lossy`). One that gets the bytes in chunks waits for the rest of a character
(`decodeStart?`). Bytes of an old one-byte encoding are their own code points (`decodeLatin1`).
-/

namespace ScriptService.Text

/-- A byte that continues a character, from `lo` to `hi` when it is the second. -/
structure Tail where
  lo : UInt8 := 0x80
  hi : UInt8 := 0xBF

/-- What a lead byte promises: its own bits, and which bytes must follow it. -/
def leadBits? (b : UInt8) : Option (Nat × List Tail) :=
  if b < 0x80 then some (b.toNat, [])
  else if b < 0xC2 then none
  else if b < 0xE0 then some (b.toNat - 0xC0, [{}])
  else if b = 0xE0 then some (0, [⟨0xA0, 0xBF⟩, {}])
  else if b = 0xED then some (0xD, [⟨0x80, 0x9F⟩, {}])
  else if b < 0xF0 then some (b.toNat - 0xE0, [{}, {}])
  else if b = 0xF0 then some (0, [⟨0x90, 0xBF⟩, {}, {}])
  else if b < 0xF4 then some (b.toNat - 0xF0, [{}, {}, {}])
  else if b = 0xF4 then some (4, [⟨0x80, 0x8F⟩, {}, {}])
  else none

/-- One character or none, when the promised bytes do not all follow, and the bytes after what was
used. -/
def takeTail : Nat → List Tail → List UInt8 → Option Char × List UInt8
  | n, [], bs => (some (Char.ofNat n), bs)
  | _, _ :: _, [] => (none, [])
  | n, t :: ts, b :: bs =>
    if t.lo ≤ b && b ≤ t.hi then takeTail (n * 64 + (b.toNat - 0x80)) ts bs else (none, b :: bs)

/-- A character, or none for bytes that begin none, and the rest of the bytes. -/
def takeChar (b : UInt8) (bs : List UInt8) : Option Char × List UInt8 :=
  match leadBits? b with
  | none => (none, bs)
  | some (n, ts) => takeTail n ts bs

/-- What is left behind a tail is no longer. -/
theorem length_takeTail (n : Nat) (ts : List Tail) (bs : List UInt8) :
    (takeTail n ts bs).2.length ≤ bs.length := by
  induction ts generalizing n bs with
  | nil => simp [takeTail]
  | cons t ts ih =>
    cases bs with
    | nil => simp [takeTail]
    | cons b bs =>
      simp only [takeTail]
      split
      · exact Nat.le_trans (ih _ bs) (Nat.le_succ _)
      · exact Nat.le_refl _

/-- What is left behind a character is no longer. -/
theorem length_takeChar (b : UInt8) (bs : List UInt8) : (takeChar b bs).2.length ≤ bs.length := by
  unfold takeChar
  split
  · exact Nat.le_refl _
  · exact length_takeTail _ _ _

/-- The characters that bytes stand for, none in the place of each ill-formed piece. -/
def decodePieces : List UInt8 → List (Option Char)
  | [] => []
  | b :: bs =>
    (takeChar b bs).1 :: decodePieces (takeChar b bs).2
termination_by bs => bs.length
decreasing_by exact Nat.lt_succ_of_le (length_takeChar b bs)

/-- The text that bytes stand for, if they are well-formed. -/
def decodeUtf8? (bs : List UInt8) : Option (List Char) :=
  (decodePieces bs).mapM id

/-- The text that bytes stand for, with U+FFFD for each ill-formed piece. -/
def decodeUtf8Lossy (bs : List UInt8) : List Char :=
  (decodePieces bs).map (·.getD '\uFFFD')

/-- The characters that bytes stand for so far, and the bytes at their end that only begin a
character; nothing if they are not well-formed. -/
def decodeStart? : List UInt8 → Option (List Char × List UInt8)
  | [] => some ([], [])
  | b :: bs =>
    match (takeChar b bs).1 with
    | some c => (decodeStart? (takeChar b bs).2).map fun (cs, tail) => (c :: cs, tail)
    | none => if (leadBits? b).isSome && (takeChar b bs).2.isEmpty then some ([], b :: bs) else none
termination_by bs => bs.length
decreasing_by exact Nat.lt_succ_of_le (length_takeChar b bs)

/-- The text of a one-byte encoding whose bytes are code points. -/
def decodeLatin1 (bs : List UInt8) : List Char :=
  bs.map fun b => Char.ofNat b.toNat

/-- The bytes of a text. -/
def encodeUtf8 (s : List Char) : List UInt8 :=
  s.flatMap String.utf8EncodeChar

/-- How many bytes a text takes. -/
def utf8Length (s : String) : Nat :=
  s.utf8ByteSize

end ScriptService.Text
