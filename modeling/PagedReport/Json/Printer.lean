import PagedReport.Json.Tree

/-! # Writing JSON

Values are written without blanks, or spread over lines with two blanks of indentation a level.
Quotes, backslashes and control characters are escaped; every other character stands for itself.
A floating-point number has the fewest digits that read back, with at least one decimal, and an
exponent when its first digit is above the sixteenth place or below the fifth decimal.
-/

namespace PagedReport.Json

/-- A hexadecimal digit in lower case. -/
def hexDigit (n : Nat) : Char := Nat.digitChar (n % 16)

/-- A character as it stands inside a quoted string. -/
def escapeChar (c : Char) : List Char :=
  if c = '"' then ['\\', '"']
  else if c = '\\' then ['\\', '\\']
  else if c = '\x08' then ['\\', 'b']
  else if c = '\t' then ['\\', 't']
  else if c = '\n' then ['\\', 'n']
  else if c = '\x0c' then ['\\', 'f']
  else if c = '\r' then ['\\', 'r']
  else if c.toNat < 0x20 then ['\\', 'u', '0', '0', hexDigit (c.toNat / 16), hexDigit c.toNat]
  else [c]

/-- A quoted string. -/
def quotedChars (s : String) : List Char :=
  '"' :: (s.toList.flatMap escapeChar ++ ['"'])

/-- The digits of a natural number. -/
def natChars (n : Nat) : List Char := Nat.toDigits 10 n

/-- A whole number, with a minus sign when negative. -/
def intChars (n : Int) : List Char :=
  if n < 0 then '-' :: natChars n.natAbs else natChars n.natAbs

/-- The magnitude of a floating-point number. -/
def magnitudeChars (x : Binary64) : List Char :=
  if x.mantissa = 0 then ['0', '.', '0']
  else
    let (coefficient, k) := x.shortest
    let digits := natChars coefficient
    let first := k + digits.length - 1
    if -5 ≤ first ∧ first ≤ 15 then
      if 0 ≤ k then digits ++ List.replicate k.toNat '0' ++ ['.', '0']
      else if 0 ≤ first then
        digits.take (first.toNat + 1) ++ '.' :: digits.drop (first.toNat + 1)
      else '0' :: '.' :: (List.replicate (-first - 1).toNat '0' ++ digits)
    else
      let sign := if first < 0 then '-' else '+'
      digits.take 1 ++ (if digits.length = 1 then [] else '.' :: digits.drop 1) ++
        'e' :: sign :: natChars first.natAbs

/-- A number. -/
def Number.chars : Number → List Char
  | .integer n => intChars n
  | .float x => if x.negative then '-' :: magnitudeChars x else magnitudeChars x

mutual

/-- A value without blanks. -/
def compactChars : Json → List Char
  | .null => ['n', 'u', 'l', 'l']
  | .bool true => ['t', 'r', 'u', 'e']
  | .bool false => ['f', 'a', 'l', 's', 'e']
  | .number n => n.chars
  | .string s => quotedChars s
  | .array items => '[' :: (compactItems items ++ [']'])
  | .object members => '\x7b' :: (compactMembers members ++ ['\x7d'])

/-- The items of an array with commas between them. -/
def compactItems : List Json → List Char
  | [] => []
  | [item] => compactChars item
  | item :: rest => compactChars item ++ ',' :: compactItems rest

/-- The members of an object with commas between them. -/
def compactMembers : List (String × Json) → List Char
  | [] => []
  | [(key, value)] => quotedChars key ++ ':' :: compactChars value
  | (key, value) :: rest =>
    quotedChars key ++ ':' :: (compactChars value ++ ',' :: compactMembers rest)

end

/-- A value without blanks, as a text. -/
def compact (value : Json) : String := String.ofList (compactChars value)

/-- The start of a line at a level of nesting. -/
def newLine (level : Nat) : List Char := '\n' :: List.replicate (2 * level) ' '

mutual

/-- A value spread over lines, every item and member on a line of its own. -/
def indentedChars (level : Nat) : Json → List Char
  | .array (item :: rest) =>
    '[' :: (newLine (level + 1) ++ indentedItems (level + 1) (item :: rest) ++ newLine level ++ [']'])
  | .object (member :: rest) =>
    '\x7b' :: (newLine (level + 1) ++ indentedMembers (level + 1) (member :: rest) ++
      newLine level ++ ['\x7d'])
  | .null => ['n', 'u', 'l', 'l']
  | .bool true => ['t', 'r', 'u', 'e']
  | .bool false => ['f', 'a', 'l', 's', 'e']
  | .number n => n.chars
  | .string s => quotedChars s
  | .array [] => ['[', ']']
  | .object [] => ['\x7b', '\x7d']

/-- The items of an array, each on a line at `level`. -/
def indentedItems (level : Nat) : List Json → List Char
  | [] => []
  | [item] => indentedChars level item
  | item :: rest => indentedChars level item ++ ',' :: (newLine level ++ indentedItems level rest)

/-- The members of an object, each on a line at `level`. -/
def indentedMembers (level : Nat) : List (String × Json) → List Char
  | [] => []
  | [(key, value)] => quotedChars key ++ ':' :: ' ' :: indentedChars level value
  | (key, value) :: rest =>
    quotedChars key ++ ':' :: ' ' ::
      (indentedChars level value ++ ',' :: (newLine level ++ indentedMembers level rest))

end

/-- A value spread over lines, as a text. -/
def indented (value : Json) : String := String.ofList (indentedChars 0 value)

end PagedReport.Json
