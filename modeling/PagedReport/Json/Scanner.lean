import PagedReport.Json.Tree
import PagedReport.Text.Symbol

/-! # Scanning JSON

The pieces of a JSON text: blanks, words, strings, numbers, and whole values that are passed over.
A scan goes from left to right and stops at the first thing that cannot continue a JSON text, so the
cause it reports is the first one in the text. A value that is passed over may nest to any depth and
hold any number.
-/

namespace PagedReport.Json

open Text (Symbol)

/-- Why a JSON document was refused. -/
inductive Fault where
  /-- The text ended inside the document. -/
  | endOfText
  /-- The text is not JSON, or nests too deep. -/
  | malformed
  /-- A value has the wrong type, or a field is missing, repeated or unknown. -/
  | mismatch
  /-- The text could not be read at all. -/
  | unreadable
deriving DecidableEq, Repr

/-- Text that is still to be read. -/
abbrev Input := List Symbol

/-- A step that reads something from the start of the text and returns the text after it. -/
abbrev Reader (α : Type) := Input → Except Fault (α × Input)

/-- The blanks of JSON: space, tab and the two line ends. -/
def isBlank (c : Char) : Bool := c == ' ' || c == '\t' || c == '\n' || c == '\r'

/-- The text from the first character that is no blank. -/
def skipBlanks : Input → Input
  | .char c :: rest => if isBlank c then skipBlanks rest else .char c :: rest
  | input => input

/-- The text after the rest of a word of which the first letter is known. -/
def expectWord : List Char → Input → Except Fault Input
  | [], input => .ok input
  | _ :: _, [] => .error .endOfText
  | w :: word, s :: rest => if s = .char w then expectWord word rest else .error .malformed

/-- The value of a hexadecimal digit of either case. -/
def hexValue? (c : Char) : Option Nat :=
  if c.isDigit then some (c.toNat - '0'.toNat)
  else if 'a' ≤ c ∧ c ≤ 'f' then some (c.toNat - 'a'.toNat + 10)
  else if 'A' ≤ c ∧ c ≤ 'F' then some (c.toNat - 'A'.toNat + 10)
  else none

/-- Four hexadecimal digits. Fewer than four bytes are an early end, whatever they are. -/
def hexQuad : Reader Nat := fun input =>
  let digits := (input.take 4).filterMap fun
    | .char c => hexValue? c
    | .stray _ => none
  if digits.length = 4 then .ok (digits.foldl (fun n d => n * 16 + d) 0, input.drop 4)
  else if (input.take 4).foldr (fun s n => s.size + n) 0 < 4 then .error .endOfText
  else .error .malformed

/-- The character that a letter after a backslash stands for. -/
def simpleEscape? : Char → Option Char
  | '"' => some '"'
  | '\\' => some '\\'
  | '/' => some '/'
  | 'b' => some '\x08'
  | 'f' => some '\x0c'
  | 'n' => some '\n'
  | 'r' => some '\r'
  | 't' => some '\t'
  | _ => none

/-- A UTF-16 unit that comes first in a pair. -/
def isHighSurrogate (n : Nat) : Bool := 0xD800 ≤ n && n ≤ 0xDBFF

/-- A UTF-16 unit that comes second in a pair. -/
def isLowSurrogate (n : Nat) : Bool := 0xDC00 ≤ n && n ≤ 0xDFFF

/-- The character written by four hexadecimal digits, or by a pair of surrogates in two escapes. -/
def unicodeEscape : Reader Char := fun input => do
  let (high, rest) ← hexQuad input
  if isLowSurrogate high then .error .malformed
  else if !isHighSurrogate high then .ok (Char.ofNat high, rest)
  else match rest with
    | [] => .error .endOfText
    | .char '\\' :: [] => .error .endOfText
    | .char '\\' :: .char 'u' :: rest => do
      let (low, rest) ← hexQuad rest
      if isLowSurrogate low then
        .ok (Char.ofNat (0x10000 + (high - 0xD800) * 0x400 + (low - 0xDC00)), rest)
      else .error .malformed
    | _ => .error .malformed

/-- What an escape stands for, read from after the backslash. -/
def escape : Reader Char
  | [] => .error .endOfText
  | .char 'u' :: rest => unicodeEscape rest
  | .char c :: rest =>
    match simpleEscape? c with
    | some d => .ok (d, rest)
    | none => .error .malformed
  | .stray _ :: _ => .error .malformed

/-- A character that a string must not hold unescaped. -/
def isControl : Symbol → Bool
  | .char c => c.toNat < 0x20
  | .stray _ => false

/-- The symbols of a string up to its closing quote. Each step takes at least one symbol, so the
length of the text bounds the number of steps. -/
def stringSymbols : (fuel : Nat) → Reader (List Symbol)
  | 0, _ => .error .endOfText
  | _, [] => .error .endOfText
  | _ + 1, .char '"' :: rest => .ok ([], rest)
  | fuel + 1, .char '\\' :: rest => do
    let (c, rest) ← escape rest
    let (symbols, rest) ← stringSymbols fuel rest
    .ok (.char c :: symbols, rest)
  | fuel + 1, s :: rest =>
    if isControl s then .error .malformed
    else do
      let (symbols, rest) ← stringSymbols fuel rest
      .ok (s :: symbols, rest)

/-- A string, read from after its opening quote. -/
def quotedString : Reader String := fun input => do
  let (symbols, rest) ← stringSymbols input.length input
  match Symbol.text? symbols with
  | some text => .ok (text, rest)
  | none => .error .malformed

/-- Passes over a string from after its opening quote. Surrogates need no partners in it and stray
bytes do no harm. -/
def skipString : (fuel : Nat) → Input → Except Fault Input
  | 0, _ => .error .endOfText
  | _, [] => .error .endOfText
  | _ + 1, .char '"' :: rest => .ok rest
  | _ + 1, .char '\\' :: [] => .error .endOfText
  | fuel + 1, .char '\\' :: .char 'u' :: rest => do
    let (_, rest) ← hexQuad rest
    skipString fuel rest
  | fuel + 1, .char '\\' :: .char c :: rest =>
    if (simpleEscape? c).isSome then skipString fuel rest else .error .malformed
  | _ + 1, .char '\\' :: .stray _ :: _ => .error .malformed
  | fuel + 1, s :: rest => if isControl s then .error .malformed else skipString fuel rest

/-- A number as it is written. -/
structure Literal where
  negative : Bool
  whole : List Char
  /-- The digits after the point, at least one, if there is a point. -/
  fraction : Option (List Char)
  /-- Whether the exponent is negative, and its digits. -/
  exponent : Option (Bool × List Char)
deriving DecidableEq, Repr

/-- The digits at the start of the text. -/
def spanDigits : Input → List Char × Input
  | .char c :: rest =>
    if c.isDigit then
      let (digits, after) := spanDigits rest
      (c :: digits, after)
    else ([], .char c :: rest)
  | input => ([], input)

/-- At least one digit. -/
def someDigits : Reader (List Char) := fun input =>
  match spanDigits input with
  | ([], []) => .error .endOfText
  | ([], _) => .error .malformed
  | (digits, rest) => .ok (digits, rest)

/-- The whole part of a number: a zero alone, or digits of which the first is not zero. -/
def wholePart : Reader (List Char) := fun input => do
  let (digits, rest) ← someDigits input
  if digits.head? = some '0' ∧ digits.length ≠ 1 then .error .malformed else .ok (digits, rest)

/-- The digits after a decimal point, if there is one. -/
def fractionPart : Reader (Option (List Char))
  | .char '.' :: rest => do
    let (digits, rest) ← someDigits rest
    .ok (some digits, rest)
  | input => .ok (none, input)

/-- The sign of an exponent and the text after it. -/
def exponentSign : Input → Bool × Input
  | .char '-' :: rest => (true, rest)
  | .char '+' :: rest => (false, rest)
  | input => (false, input)

/-- The sign and digits of an exponent, if there is one. -/
def exponentPart : Reader (Option (Bool × List Char)) := fun input =>
  let signed (rest : Input) : Except Fault (Option (Bool × List Char) × Input) := do
    let (negative, rest) := exponentSign rest
    let (digits, rest) ← someDigits rest
    .ok (some (negative, digits), rest)
  match input with
  | .char 'e' :: rest => signed rest
  | .char 'E' :: rest => signed rest
  | _ => .ok (none, input)

/-- A number, read from its sign or first digit. -/
def literal : Reader Literal := fun input => do
  let (negative, rest) := match input with
    | .char '-' :: rest => (true, rest)
    | _ => (false, input)
  let (whole, rest) ← wholePart rest
  let (fraction, rest) ← fractionPart rest
  let (exponent, rest) ← exponentPart rest
  .ok (⟨negative, whole, fraction, exponent⟩, rest)

/-- A container that is being passed over. -/
inductive Container where
  | array
  | object
deriving DecidableEq, Repr

/-- Passes over the key of a member and the colon after it. -/
def skipKey (input : Input) : Except Fault Input :=
  match skipBlanks input with
  | [] => .error .endOfText
  | .char '"' :: rest => do
    let rest ← skipString rest.length rest
    match skipBlanks rest with
    | [] => .error .endOfText
    | .char ':' :: rest => .ok rest
    | _ => .error .malformed
  | _ => .error .malformed

/-- Passes over a number. One that is cut short is malformed, at the end of the text as well. -/
def skipNumber (input : Input) : Except Fault Input :=
  match literal input with
  | .ok (_, rest) => .ok rest
  | .error _ => .error .malformed

/-- Passes over the values that are left in the open containers, innermost first. `between` tells
that a value has just ended; `fresh` that the innermost container has no value yet. -/
def skipOpen : (fuel : Nat) → (fresh between : Bool) → List Container → Input → Except Fault Input
  | 0, _, _, _, _ => .error .endOfText
  | _ + 1, _, true, [], input => .ok input
  | fuel + 1, fresh, true, container :: outer, input =>
    match skipBlanks input with
    | [] => .error .endOfText
    | s :: rest =>
      if s = .char ',' ∧ fresh = false then
        match container with
        | .array => skipOpen fuel false false (.array :: outer) rest
        | .object => do
          let rest ← skipKey rest
          skipOpen fuel false false (.object :: outer) rest
      else if s = .char (match container with | .array => ']' | .object => '\x7d') then
        skipOpen fuel false true outer rest
      else if fresh then
        match container with
        | .array => skipOpen fuel false false (.array :: outer) (s :: rest)
        | .object => do
          let rest ← skipKey (s :: rest)
          skipOpen fuel false false (.object :: outer) rest
      else .error .malformed
  | fuel + 1, _, false, containers, input =>
    match skipBlanks input with
    | [] => .error .endOfText
    | .char '[' :: rest => skipOpen fuel true true (.array :: containers) rest
    | .char '\x7b' :: rest => skipOpen fuel true true (.object :: containers) rest
    | .char '"' :: rest => do
      let rest ← skipString rest.length rest
      skipOpen fuel false true containers rest
    | .char 'n' :: rest => do
      let rest ← expectWord ['u', 'l', 'l'] rest
      skipOpen fuel false true containers rest
    | .char 't' :: rest => do
      let rest ← expectWord ['r', 'u', 'e'] rest
      skipOpen fuel false true containers rest
    | .char 'f' :: rest => do
      let rest ← expectWord ['a', 'l', 's', 'e'] rest
      skipOpen fuel false true containers rest
    | .char c :: rest =>
      if c = '-' ∨ c.isDigit then do
        let rest ← skipNumber (.char c :: rest)
        skipOpen fuel false true containers rest
      else .error .malformed
    | .stray _ :: _ => .error .malformed

/-- Passes over a value. Every second step takes a symbol, which bounds the number of steps. -/
def skipValue (input : Input) : Except Fault Input :=
  skipOpen (2 * input.length + 2) false false [] input

end PagedReport.Json
