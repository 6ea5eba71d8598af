/-!
# Sets of code points

A set of code points is written as the lengths of alternating gaps and runs: `[48, 10]` leaves the
first 48 code points out and takes the next ten in, so it is the set of the ASCII digits. Runs are
in order and never overlap, whatever the lengths.

`CodeSet.offset?` finds a character's place in its run, `CodeSet.contains` whether it has one.
-/

namespace ScriptService.Text

/-- A set of code points, as the lengths of alternating gaps and runs from code point 0 on. -/
structure CodeSet where
  lengths : List Nat

/-- The place in its run of the code point `n` places ahead, where the next length is that of a run
when `inRun` and that of a gap otherwise. -/
def CodeSet.offsetFrom (inRun : Bool) : List Nat → Nat → Option Nat
  | [], _ => none
  | k :: ks, n => if n < k then (if inRun then some n else none) else offsetFrom (!inRun) ks (n - k)

/-- The place of a character in the run that holds it. -/
def CodeSet.offset? (s : CodeSet) (c : Char) : Option Nat :=
  CodeSet.offsetFrom false s.lengths c.toNat

/-- Whether a character is in the set. -/
def CodeSet.contains (s : CodeSet) (c : Char) : Bool :=
  (s.offset? c).isSome

end ScriptService.Text
