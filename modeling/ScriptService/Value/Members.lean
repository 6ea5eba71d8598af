import ScriptService.Value.Basic

/-!
# The members of a set

A set keeps its members in a table, and lists them by their places there. An integer's place is its
remainder by the size of the table. Where places coincide, or a member is no integer, the members are
listed as they were given.
-/

namespace ScriptService.Value

/-- The size of the table for that many members: a power of two, and more than twice their number
from five members on. -/
def tableSize (count : Nat) : Nat :=
  if count < 5 then 8 else 2 * 1 <<< Nat.log2 (2 * count)

/-- Large integers have the place of their remainder by this number. -/
def placeModulus : Nat := 0x1FFFFFFFFFFFFFFF

/-- The place of an integer in a table of a size. There is no place for minus one, which takes that of
minus two. -/
def placeOf (size : Nat) (n : Int) : Nat :=
  let m := n.tmod placeModulus
  ((if m = -1 then -2 else m) % size).toNat

/-- The place of a member, if it has one of its own. -/
def place? (size : Nat) (v : Value) : Option Nat :=
  match v.asNumber? with
  | some (.inl n) => some (placeOf size n)
  | _ => none

/-- The members of a set in the order in which it lists them. -/
def members (vs : List Value) : List Value :=
  match vs.mapM (place? (tableSize vs.length)) with
  | some places =>
    if places.eraseDups.length = places.length then
      ((places.zip vs).mergeSort fun a b => a.1 ≤ b.1).map Prod.snd
    else vs
  | none => vs

end ScriptService.Value
