/-!
# Shortest decimals

The decimal of fewest digits that reads back as a given floating-point number, found in exact
arithmetic: a number is `m · 2^q`, the reals that round to it form an interval around it, and the
first grid of decimals that meets the interval is taken. Of two hits on a grid the nearer one wins,
and an even last digit settles a tie.
-/

namespace ScriptService.Number

/-- A floating-point number `mantissa · 2^exponent`. The next smaller number is half as far
away as the next larger one when `lowEdge`. -/
structure Binary where
  mantissa : Nat
  exponent : Int
  lowEdge : Bool

/-- A decimal `digits · 10^exponent`. -/
structure Decimal where
  digits : Nat
  exponent : Int

/-- A power of two. -/
def twoPow (n : Nat) : Nat := Nat.pow 2 n

/-- A power of ten. -/
def tenPow (n : Nat) : Nat := Nat.pow 10 n

/-- The bit that is set in a negative number, above those of its magnitude. -/
def signBit : Nat := twoPow 63

/-- The magnitude of infinity; those above it are no numbers. -/
def infinityBits : Nat := 0x7FF0000000000000

/-- The magnitude of a finite number. -/
def Binary.ofBits (bits : Nat) : Binary :=
  let fraction : Nat := bits % twoPow 52
  let field : Nat := bits / twoPow 52 % twoPow 11
  if field = 0 then ⟨fraction, -1074, false⟩
  else ⟨twoPow 52 + fraction, (field : Int) - 1075, fraction = 0 && field ≠ 1⟩

/-- How `d · 10^e` compares with `x · 2^p`. -/
def compareScaled (d : Nat) (e : Int) (x : Nat) (p : Int) : Ordering :=
  compare (d * tenPow e.toNat * twoPow (-p).toNat) (x * twoPow p.toNat * tenPow (-e).toNat)

/-- Whether a decimal lies among the reals that round to a number; the ends of that interval do when
the mantissa is even. In units of a quarter of the last place the number is `4 m`. -/
def Binary.reads (b : Binary) (d : Decimal) : Bool :=
  let low := compareScaled d.digits d.exponent (4 * b.mantissa - if b.lowEdge then 1 else 2)
    (b.exponent - 2)
  let high := compareScaled d.digits d.exponent (4 * b.mantissa + 2) (b.exponent - 2)
  if b.mantissa % 2 = 0 then low != .lt && high != .gt else low == .gt && high == .lt

/-- The number of multiples of `10^e` up to a number. -/
def Binary.floorOn (b : Binary) (e : Int) : Nat :=
  b.mantissa * twoPow b.exponent.toNat * tenPow (-e).toNat / (tenPow e.toNat * twoPow (-b.exponent).toNat)

/-- The point of a grid nearest to a number, of the two neighbours that read back. -/
def Binary.onGrid? (b : Binary) (e : Int) : Option Decimal :=
  let d := b.floorOn e
  match b.reads ⟨d, e⟩, b.reads ⟨d + 1, e⟩ with
  | true, true =>
    match compareScaled (2 * d + 1) e (2 * b.mantissa) b.exponent with
    | .lt => some ⟨d + 1, e⟩
    | .gt => some ⟨d, e⟩
    | .eq => some (if d % 2 = 0 then ⟨d, e⟩ else ⟨d + 1, e⟩)
  | true, false => some ⟨d, e⟩
  | false, true => some ⟨d + 1, e⟩
  | false, false => none

/-- The decimal of the first grid, from `10^e` down, that holds one; `none` after `fuel` grids. -/
def Binary.search (b : Binary) : Nat → Int → Option Decimal
  | 0, _ => none
  | fuel + 1, e => (b.onGrid? e).or (b.search fuel (e - 1))

/-- A decimal without the zeros at its end. -/
def Decimal.trimZeros : Nat → Decimal → Decimal
  | 0, d => d
  | fuel + 1, d => if d.digits ≠ 0 ∧ d.digits % 10 = 0 then trimZeros fuel ⟨d.digits / 10, d.exponent + 1⟩
    else d

/-- The shortest decimal that reads back. The grids start above every finite number. -/
def Binary.shortest (b : Binary) : Decimal :=
  Decimal.trimZeros 400 ((b.search 700 310).getD ⟨b.floorOn (-1074), -1074⟩)

/-- The text of a decimal: positional when its first digit stands for `10^-4` to `10^15`, else with a
signed exponent of two digits or more. -/
def Decimal.text (d : Decimal) : String :=
  let ds := Nat.toDigits 10 d.digits
  let point := ds.length + d.exponent
  if -3 ≤ point && point ≤ 16 then
    String.ofList <|
      if d.exponent ≥ 0 then ds ++ List.replicate d.exponent.toNat '0' ++ ['.', '0']
      else if point ≤ 0 then ['0', '.'] ++ List.replicate (-point).toNat '0' ++ ds
      else ds.take point.toNat ++ '.' :: ds.drop point.toNat
  else
    let lead := match ds with
      | [c] => [c]
      | c :: rest => c :: '.' :: rest
      | [] => []
    let e := point - 1
    let es := Nat.toDigits 10 e.natAbs
    String.ofList (lead ++ ['e', if e < 0 then '-' else '+'] ++ (if es.length < 2 then '0' :: es else es))

/-- The text of a floating-point number. -/
def text (x : Float) : String :=
  let bits := x.toBits.toNat
  let sign := if bits ≥ signBit then "-" else ""
  let magnitude := bits % signBit
  if magnitude > infinityBits then "nan"
  else if magnitude = infinityBits then sign ++ "inf"
  else if magnitude = 0 then sign ++ "0.0"
  else sign ++ (Binary.ofBits magnitude).shortest.text

/-- Whether an integer and a floating-point number are equal. -/
def equalsInt (x : Float) (n : Int) : Bool :=
  let bits := x.toBits.toNat
  let b := Binary.ofBits (bits % signBit)
  bits % signBit < infinityBits && (n = 0 || decide (n < 0) = decide (bits ≥ signBit)) &&
    compareScaled n.natAbs 0 b.mantissa b.exponent = .eq

/-- The number that a decimal numeral `m · 10^e` rounds to. -/
def ofDecimal (negative : Bool) (m : Nat) (e : Int) : Float :=
  let x := if e < 0 then
      -- far below the least number nothing is left, whatever the digits
      if m = 0 ∨ (Nat.toDigits 10 m).length + e < -400 then 0 else Float.ofScientific m true e.natAbs
    else if m = 0 then 0
    else if e > 400 then Float.ofBits 0x7FF0000000000000
    else Float.ofScientific m false e.natAbs
  if negative then Float.ofBits (x.toBits ||| 0x8000000000000000) else x

end ScriptService.Number
