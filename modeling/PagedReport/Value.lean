import PagedReport.Decimal.Reader

/-! # Values of a result set

A value is null, a truth value, an exact number or a text. Two values agree when they are equal with
numbers compared as numbers, whatever their decimals.
-/

namespace PagedReport

/-- A value in a row of a result set. -/
inductive Value where
  | null
  | boolean (b : Bool)
  | number (n : Decimal)
  | text (s : String)
deriving DecidableEq, Repr, Inhabited

/-- The values of one row, one for each column. -/
abbrev Row := List Value

namespace Value

/-- Whether the value is null. -/
def isNull : Value → Bool
  | .null => true
  | _ => false

/-- The value as it is written in messages. -/
def describe : Value → String
  | .null => "null"
  | .boolean true => "true"
  | .boolean false => "false"
  | .number n => n.text
  | .text s => s

/-- The value as it is shown without a format; null shows nothing of its own. -/
def display? : Value → Option String
  | .null => none
  | value => some value.describe

/-- The number that the value is or writes. -/
def toDecimal? : Value → Option Decimal
  | .number n => some n
  | .text s => Decimal.ofText? s
  | _ => none

/-- Equality with numbers compared as numbers. -/
def agrees : Value → Value → Bool
  | .number a, .number b => a.sameNumber b
  | a, b => a == b

end Value

end PagedReport
