/-! # White space

A character is blank when Unicode gives it the property `White_Space`. Headings, CSV fields and
decimal numerals are read with the blanks at both of their ends removed.
-/

namespace PagedReport.Text

/-- The characters with the Unicode property `White_Space`. -/
def isBlank (c : Char) : Bool :=
  let n := c.toNat
  (0x09 ≤ n && n ≤ 0x0D) || n == 0x20 || n == 0x85 || n == 0xA0 || n == 0x1680 ||
    (0x2000 ≤ n && n ≤ 0x200A) || n == 0x2028 || n == 0x2029 || n == 0x202F || n == 0x205F ||
    n == 0x3000

/-- The characters left when `drop` holds of none of those at either end. -/
def stripWhere (drop : Char → Bool) (cs : List Char) : List Char :=
  ((cs.dropWhile drop).reverse.dropWhile drop).reverse

/-- The characters without the blanks at both ends. -/
def strip (cs : List Char) : List Char := stripWhere isBlank cs

/-- The text without the blanks at both ends. -/
def trim (s : String) : String := String.ofList (strip s.toList)

/-- A text of blanks only, the empty one included. -/
def isAllBlank (s : String) : Bool := s.toList.all isBlank

/-- ASCII letters in their lower case, every other character unchanged. -/
def lowerAscii (s : String) : String := String.ofList (s.toList.map Char.toLower)

/-- Equality up to the case of ASCII letters. -/
def sameIgnoringCase (s t : String) : Bool := lowerAscii s == lowerAscii t

example : trim "\u00a0 East\t" = "East" := by decide +kernel
example : sameIgnoringCase "Csv" "cSV" = true := by decide +kernel

end PagedReport.Text
