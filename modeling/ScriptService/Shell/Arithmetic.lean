/-!
# Arithmetic of shell scripts

Integers of sixty-four bits with the usual operators; comparisons give one or zero. A name stands for
its variable's number.
-/

namespace ScriptService.Shell.Arithmetic

/-- A token of an expression. -/
inductive Token where
  | number (n : Int)
  | operator (text : String)
deriving DecidableEq

/-- The operators, longer ones before those that they start with. -/
def operators : List String :=
  ["||", "&&", "==", "!=", "<=", ">=", "<<", ">>", "<", ">", "+", "-", "*", "/", "%", "|", "^", "&", "!",
   "~", "(", ")"]

/-- How strongly an operator binds its operands. -/
def strength : String → Option Nat
  | "||" => some 1
  | "&&" => some 2
  | "|" => some 3
  | "^" => some 4
  | "&" => some 5
  | "==" | "!=" => some 6
  | "<" | "<=" | ">" | ">=" => some 7
  | "<<" | ">>" => some 8
  | "+" | "-" => some 9
  | "*" | "/" | "%" => some 10
  | _ => none

/-- An integer within sixty-four bits. -/
def wrap (n : Int) : Int :=
  Int.bmod n 0x10000000000000000

/-- One or zero. -/
def truth (b : Bool) : Int :=
  if b then 1 else 0

/-- What an operator makes of two operands; nothing divides by zero. -/
def apply (op : String) (a b : Int) : Option Int :=
  match op with
  | "||" => some (truth (a ≠ 0 || b ≠ 0))
  | "&&" => some (truth (a ≠ 0 && b ≠ 0))
  | "==" => some (truth (a = b))
  | "!=" => some (truth (a ≠ b))
  | "<" => some (truth (a < b))
  | "<=" => some (truth (a ≤ b))
  | ">" => some (truth (a > b))
  | ">=" => some (truth (a ≥ b))
  | "+" => some (wrap (a + b))
  | "-" => some (wrap (a - b))
  | "*" => some (wrap (a * b))
  | "/" => if b = 0 then none else some (wrap (a.tdiv b))
  | "%" => if b = 0 then none else some (a.tmod b)
  | "<<" => some (wrap (a * Int.ofNat (Nat.pow 2 (b % 64).toNat)))
  | ">>" => some (a / Int.ofNat (Nat.pow 2 (b % 64).toNat))
  | "&" => some (Int64.toInt (Int64.ofInt a &&& Int64.ofInt b))
  | "|" => some (Int64.toInt (Int64.ofInt a ||| Int64.ofInt b))
  | "^" => some (Int64.toInt (Int64.ofInt a ^^^ Int64.ofInt b))
  | _ => none

/-- Characters of names. -/
def isNameChar (c : Char) : Bool :=
  c.isAlphanum || c == '_'

/-- The integer that a text stands for: decimal, or octal behind a zero. -/
def integer? (s : List Char) : Option Int :=
  let (negative, ds) := match s with
    | '-' :: t => (true, t)
    | '+' :: t => (false, t)
    | t => (false, t)
  if ds.isEmpty || !ds.all Char.isDigit then none
  else
    let base := if ds.head? == some '0' then 8 else 10
    let n : Int := ds.foldl (fun n c => n * base + (c.toNat - 48)) 0
    some (if negative then -n else n)

/-- The tokens of an expression. -/
def tokens (value : List Char → List Char) : Nat → List Char → Option (List Token)
  | 0, _ => none
  | _, [] => some []
  | fuel + 1, c :: s =>
    if c == ' ' || c == '\t' || c == '\n' then tokens value fuel s
    else if isNameChar c then
      let word := (c :: s).takeWhile isNameChar
      let text := if c.isDigit then word else value word
      let n := if text.isEmpty then some 0 else integer? text
      n.bind fun n => (tokens value fuel ((c :: s).drop word.length)).map (.number n :: ·)
    else
      match operators.find? fun op => op.toList.isPrefixOf (c :: s) with
      | some op => (tokens value fuel ((c :: s).drop op.length)).map (.operator op :: ·)
      | none => none

mutual
/-- An operand and the operators that bind more strongly than `least`. -/
def expression : Nat → Nat → List Token → Option (Int × List Token)
  | 0, _, _ => none
  | fuel + 1, least, ts => do
    let (a, ts) ← operand fuel ts
    continued fuel least a ts

/-- What follows an operand. -/
def continued : Nat → Nat → Int → List Token → Option (Int × List Token)
  | 0, _, _, _ => none
  | fuel + 1, least, a, ts =>
    match ts with
    | .operator op :: rest =>
      match strength op with
      | some k =>
        if k > least then do
          let (b, rest) ← expression fuel k rest
          continued fuel least (← apply op a b) rest
        else some (a, ts)
      | none => some (a, ts)
    | _ => some (a, ts)

/-- One operand. -/
def operand : Nat → List Token → Option (Int × List Token)
  | 0, _ => none
  | fuel + 1, ts =>
    match ts with
    | .number n :: ts => some (n, ts)
    | .operator "(" :: ts => do
      let (a, ts) ← expression fuel 0 ts
      match ts with
      | .operator ")" :: ts => some (a, ts)
      | _ => none
    | .operator op :: ts => do
      let (a, ts) ← operand fuel ts
      match op with
      | "-" => some (wrap (-a), ts)
      | "+" => some (a, ts)
      | "!" => some (truth (a = 0), ts)
      | "~" => some (-a - 1, ts)
      | _ => none
    | [] => none
end

/-- The value of an expression, given the values of variables. -/
def evaluate (value : List Char → List Char) (s : List Char) : Option Int := do
  let ts ← tokens value (s.length + 1) s
  if ts.isEmpty then some 0
  else
    let (n, rest) ← expression (4 * ts.length + 4) 0 ts
    if rest.isEmpty then some n else none

end ScriptService.Shell.Arithmetic
