import Mathlib.Data.Nat.Digits.Defs
import Mathlib.Tactic.MkIffOfInductiveProp
import ScriptService.Text.Decimal

/-!
# Numerals

A numeral that is not too long has a number (`numeral?_eq`), whatever the scripts
of its digits. That of a number's own digits is the number (`numeral?_toDigits`).
-/

namespace ScriptService.Text

/-- The value of a decimal digit, and zero for any other character. -/
def digit (c : Char) : Nat := (decimalValue? c).getD 0

/-- The number that decimal digits stand for, the last one counting least. -/
def number (s : List Char) : Nat := Nat.ofDigits 10 (s.map digit).reverse

theorem decimalValue?_eq {c : Char} (h : isDecimal c = true) : decimalValue? c = some (digit c) := by
  obtain ⟨n, hn⟩ := Option.isSome_iff_exists.mp h
  rw [digit, decimalValue?, hn]
  rfl

theorem number_cons (c : Char) (s : List Char) :
    number (c :: s) = number s + 10 ^ s.length * digit c := by
  rw [number, List.map_cons, List.reverse_cons, Nat.ofDigits_append, List.length_reverse,
    List.length_map, Nat.ofDigits_singleton, number]

theorem numeralFrom?_eq {s : List Char} (h : s.all isDecimal = true) (acc : Nat) :
    numeralFrom? acc s = some (number s + 10 ^ s.length * acc) := by
  induction s generalizing acc with
  | nil => simp [numeralFrom?, number]
  | cons c s ih =>
    rw [List.all_cons, Bool.and_eq_true] at h
    rw [numeralFrom?, decimalValue?_eq h.1, Option.bind_some, ih h.2, number_cons, List.length_cons,
      Nat.pow_succ]
    exact congrArg some (by ring)

/-- Decimal digits, and no more of them than a numeral may have. -/
@[mk_iff]
structure IsDigits (s : List Char) : Prop where
  decimal : s.all isDecimal = true
  length_le : s.length ≤ maxNumeralDigits

instance (s : List Char) : Decidable (IsDigits s) := decidable_of_iff' _ (isDigits_iff s)

theorem numeral?_eq {s : List Char} (h : IsDigits s) (hne : s ≠ []) : numeral? s = some (number s) := by
  have hlen : ¬ maxNumeralDigits < s.length := Nat.not_lt.mpr h.length_le
  rw [numeral?, if_neg (by simp [hne, hlen]), numeralFrom?_eq h.decimal]
  rfl

/-! ## The digits of a number -/

theorem decimalValue?_of_isDigit {c : Char} (h : c.isDigit = true) :
    decimalValue? c = some (c.toNat - '0'.toNat) := by
  have hrange : 48 ≤ c.toNat ∧ c.toNat ≤ 57 := Char.isDigit_iff_toNat.mp h
  have hoffset : decimalSet.offset? c = some (c.toNat - 48) := by
    rw [CodeSet.offset?, decimalSet, CodeSet.offsetFrom, if_neg (by omega), CodeSet.offsetFrom,
      if_pos (by omega)]
    rfl
  rw [decimalValue?, hoffset, Option.map_some, Nat.mod_eq_of_lt (by omega)]
  rfl

theorem all_isDecimal_toDigits (n : Nat) : (Nat.toDigits 10 n).all isDecimal = true := by
  refine List.all_eq_true.mpr fun c hc => ?_
  have hdigit := decimalValue?_of_isDigit (Nat.isDigit_of_mem_toDigits (by decide) (by decide) hc)
  rw [decimalValue?, Option.map_eq_some_iff] at hdigit
  obtain ⟨k, hk, -⟩ := hdigit
  rw [isDecimal, CodeSet.contains, hk, Option.isSome_some]

theorem numeralFrom?_ofDigitChars {s : List Char} (h : ∀ c ∈ s, c.isDigit = true) (acc : Nat) :
    numeralFrom? acc s = some (Nat.ofDigitChars 10 s acc) := by
  induction s generalizing acc with
  | nil => rfl
  | cons c s ih =>
    rw [List.forall_mem_cons] at h
    rw [numeralFrom?, decimalValue?_of_isDigit h.1, Option.bind_some, ih h.2, Nat.ofDigitChars_cons]

/-- The digits of a number are read back, if they are not too many. -/
theorem numeral?_toDigits {n : Nat} (h : (Nat.toDigits 10 n).length ≤ maxNumeralDigits) :
    numeral? (Nat.toDigits 10 n) = some n := by
  have hlen : ¬ maxNumeralDigits < (Nat.toDigits 10 n).length := Nat.not_lt.mpr h
  have hdigits : ∀ c ∈ Nat.toDigits 10 n, c.isDigit = true := fun _ =>
    Nat.isDigit_of_mem_toDigits (by decide) (by decide)
  rw [numeral?, if_neg (by simp [Nat.toDigits_ne_nil, hlen]), numeralFrom?_ofDigitChars hdigits,
    Nat.ofDigitChars_toDigits (by decide) (by decide)]

end ScriptService.Text
