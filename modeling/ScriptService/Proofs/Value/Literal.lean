import ScriptService.Value.Literal

/-!
# Values that can be written in a message

A message has room for so many values inside one another. A value is written where its
levels fit in (`Value.levels`) and no integer in it has too many digits:
`Value.fault?_eq_none_iff`.
-/

namespace ScriptService.Value

mutual
/-- How many values inside one another are written with a value. -/
def levels : Value → Nat
  | .list xs => mostLevels xs + 1
  | .set xs => if xs.isEmpty then 1 else mostLevels xs + 2
  | .pair a b => max a.levels b.levels + 1
  | .mapping es => mostEntryLevels es + 1
  | .moment m => (m.zone.elim 0 fun z => if z = 0 then 1 else 2) + 1
  | _ => 1

/-- The most levels of some values. -/
def mostLevels : List Value → Nat
  | [] => 0
  | v :: vs => max v.levels (mostLevels vs)

/-- The most levels of the keys and values of some entries. -/
def mostEntryLevels : List (Value × Value) → Nat
  | [] => 0
  | (k, v) :: es => max (max k.levels v.levels) (mostEntryLevels es)
end

theorem levels_pos (v : Value) : 0 < v.levels := by
  cases v with
  | set xs =>
    rw [levels]
    split <;> exact Nat.succ_pos _
  | _ => exact Nat.succ_pos _

mutual
/-- A value can be written just if no integer in it is too long and it has no more levels than there is
room for. -/
theorem fault?_eq_none_iff (v : Value) (room : Nat) :
    v.fault? room = none ↔ v.hasLongInt = false ∧ v.levels ≤ room := by
  cases room with
  | zero =>
    refine iff_of_false ?_ fun h => absurd h.2 (Nat.not_le.mpr v.levels_pos)
    rw [fault?]
    nofun
  | succ room =>
    cases v with
    | int n => cases hlong : (int n).hasLongInt <;> simp [fault?, levels, hlong]
    | list xs =>
      rw [fault?, firstFault?_eq_none_iff xs, hasLongInt, levels, Nat.succ_le_succ_iff]
    | set xs =>
      rw [fault?, hasLongInt, levels]
      cases xs with
      | nil => simp [anyLongInt]
      | cons x xs =>
        rw [List.isEmpty_cons, if_neg Bool.false_ne_true, if_neg Bool.false_ne_true]
        cases room with
        | zero => simp
        | succ room =>
          rw [if_neg (Nat.succ_ne_zero room), Nat.add_sub_cancel, firstFault?_eq_none_iff (x :: xs),
            Nat.succ_le_succ_iff, Nat.succ_le_succ_iff]
    | pair a b =>
      rw [fault?, Option.or_eq_none_iff, fault?_eq_none_iff a, fault?_eq_none_iff b, hasLongInt, levels,
        Bool.or_eq_false_iff, Nat.succ_le_succ_iff, Nat.max_le]
      exact and_and_and_comm
    | mapping es =>
      rw [fault?, firstEntryFault?_eq_none_iff es, hasLongInt, levels, Nat.succ_le_succ_iff]
    | _ => simp [fault?, hasLongInt, levels]

theorem firstFault?_eq_none_iff (vs : List Value) (room : Nat) :
    firstFault? room vs = none ↔ anyLongInt vs = false ∧ mostLevels vs ≤ room := by
  cases vs with
  | nil => simp [firstFault?, anyLongInt, mostLevels]
  | cons v vs =>
    rw [firstFault?, Option.or_eq_none_iff, fault?_eq_none_iff v, firstFault?_eq_none_iff vs, anyLongInt,
      mostLevels, Bool.or_eq_false_iff, Nat.max_le]
    exact and_and_and_comm

theorem firstEntryFault?_eq_none_iff (es : List (Value × Value)) (room : Nat) :
    firstEntryFault? room es = none ↔ anyLongEntry es = false ∧ mostEntryLevels es ≤ room := by
  match es with
  | [] => simp [firstEntryFault?, anyLongEntry, mostEntryLevels]
  | (k, v) :: es =>
    rw [firstEntryFault?, Option.or_eq_none_iff, Option.or_eq_none_iff, fault?_eq_none_iff k,
      fault?_eq_none_iff v, firstEntryFault?_eq_none_iff es, anyLongEntry, mostEntryLevels,
      Bool.or_eq_false_iff, Bool.or_eq_false_iff, Nat.max_le, Nat.max_le]
    exact (and_congr_left fun _ => and_and_and_comm).trans and_and_and_comm
end

end ScriptService.Value
