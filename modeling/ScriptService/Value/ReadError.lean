/-!
# Why a text gives no value
-/

namespace ScriptService

/-- Why a file's text gives no value. -/
inductive ReadError where
  /-- The text is not in the format. -/
  | malformed
  /-- A well-formed piece stands for no value. -/
  | noValue (reason : String)
  /-- A word is not among those that stand for a value. -/
  | unknownWord
  /-- A numeral is empty. -/
  | emptyNumeral
  /-- A text has not the form of a day or a moment. -/
  | noInstant
  /-- A mapping stands where the text of a day or a moment is wanted. -/
  | instantOfMapping
  /-- An escape names a number beyond all code points. -/
  | escapeTooLarge
  /-- Values are nested too deeply. -/
  | tooDeep
  /-- The bytes are not in the encoding that they have to be in. -/
  | undecodable
  /-- The text ends where more is wanted. -/
  | cutShort
deriving DecidableEq

/-- A numeral with too many digits stands for no value. -/
def ReadError.tooManyDigits (digits : Nat) : ReadError :=
  .noValue ("Exceeds the limit (4300 digits) for integer string conversion: value has " ++
    toString digits ++ " digits; use sys.set_int_max_str_digits() to increase the limit")

/-- An integer with too many digits cannot be written. -/
def ReadError.longInt : ReadError :=
  .noValue ("Exceeds the limit (4300 digits) for integer string conversion; " ++
    "use sys.set_int_max_str_digits() to increase the limit")

end ScriptService
