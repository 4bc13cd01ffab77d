import PagedReport.Json.Literal

/-! # Reading JSON

Readers of typed values. A reader looks at the first character that is no blank; a value of another
type is a mismatch, but only after it has proved to be a value at all. Lists, records and whole
trees are read item by item, so the first fault of the text is the one reported. An object with a
reserved first key stands for a document of its own, which it holds as a string.
-/

namespace PagedReport.Json

open Text (Symbol)

/-- The fault of a text that goes on with a value of the wrong type, or with no value. -/
def wrongType (input : Input) : Fault :=
  let mismatchAfter {α : Type} (r : Except Fault α) : Fault :=
    match r with
    | .ok _ => .mismatch
    | .error fault => fault
  match input with
  | [] => .endOfText
  | .char 'n' :: rest => mismatchAfter (expectWord ['u', 'l', 'l'] rest)
  | .char 't' :: rest => mismatchAfter (expectWord ['r', 'u', 'e'] rest)
  | .char 'f' :: rest => mismatchAfter (expectWord ['a', 'l', 's', 'e'] rest)
  | .char '"' :: rest => mismatchAfter (quotedString rest)
  | .char '[' :: _ => .mismatch
  | .char '\x7b' :: _ => .mismatch
  | .char c :: rest =>
    if c = '-' ∨ c.isDigit then mismatchAfter (readNumber (.char c :: rest)) else .malformed
  | .stray _ :: _ => .malformed

/-- A string. -/
def readString : Reader String := fun input =>
  match skipBlanks input with
  | .char '"' :: rest => quotedString rest
  | input => .error (wrongType input)

/-- A truth value. -/
def readBool : Reader Bool := fun input =>
  match skipBlanks input with
  | .char 't' :: rest => do return (true, ← expectWord ['r', 'u', 'e'] rest)
  | .char 'f' :: rest => do return (false, ← expectWord ['a', 'l', 's', 'e'] rest)
  | input => .error (wrongType input)

/-- The value null. -/
def readNull : Reader Unit := fun input =>
  match skipBlanks input with
  | .char 'n' :: rest => do return ((), ← expectWord ['u', 'l', 'l'] rest)
  | input => .error (wrongType input)

/-- A whole number between two bounds. -/
def readIntegerIn (least greatest : Int) : Reader Int := fun input =>
  match skipBlanks input with
  | .char c :: rest =>
    if c = '-' ∨ c.isDigit then do
      let (n, rest) ← readNumber (.char c :: rest)
      match n with
      | .integer n =>
        if least ≤ n ∧ n ≤ greatest then .ok (n, rest) else .error .mismatch
      | .float _ => .error .mismatch
    else .error (wrongType (.char c :: rest))
  | input => .error (wrongType input)

/-- A length or position: a whole number of thirty-two bits with sign. -/
def readLength : Reader Int := readIntegerIn (-2147483648) 2147483647

/-- A count: a whole number of thirty-two bits without sign. -/
def readCount : Reader Nat := fun input => do
  let (n, rest) ← readIntegerIn 0 4294967295 input
  .ok (n.toNat, rest)

/-- A value that may be null. -/
def readNullable {α : Type} (read : Reader α) : Reader (Option α) := fun input =>
  match skipBlanks input with
  | .char 'n' :: rest => do return (none, ← expectWord ['u', 'l', 'l'] rest)
  | input => do
    let (value, rest) ← read input
    .ok (some value, rest)

/-- What a name stands for in a table of names. -/
def lookupName {α : Type} (table : List (String × α)) (name : String) : Except Fault α :=
  match table.find? (·.1 == name) with
  | some (_, value) => .ok value
  | none => .error .mismatch

/-- The colon between a key and its value. -/
def readColon (input : Input) : Except Fault Input :=
  match skipBlanks input with
  | [] => .error .endOfText
  | .char ':' :: rest => .ok rest
  | _ => .error .malformed

/-- The key of an object with one member. Whatever else stands there is no key at all. -/
def readOnlyKey : Reader String := fun input =>
  match skipBlanks input with
  | [] => .error .endOfText
  | .char '"' :: rest => quotedString rest
  | _ => .error .malformed

/-- The end of an object with one member. -/
def readOnlyEnd (input : Input) : Except Fault Input :=
  match skipBlanks input with
  | [] => .error .endOfText
  | .char '\x7d' :: rest => .ok rest
  | _ => .error .malformed

/-- One of the names of a table: a string, or an object whose only key is the name and whose value
is null. A value of another type is no name at all. -/
def readName {α : Type} (table : List (String × α)) : Reader α := fun input =>
  match skipBlanks input with
  | [] => .error .endOfText
  | .char '"' :: rest => do
    let (name, rest) ← quotedString rest
    return (← lookupName table name, rest)
  | .char '\x7b' :: rest => do
    let (name, rest) ← readOnlyKey rest
    let value ← lookupName table name
    let rest ← readColon rest
    let (_, rest) ← readNull rest
    return (value, ← readOnlyEnd rest)
  | _ => .error .malformed

/-- The text of the next item of a container, or the text after its end. A comma stands between
items, and none before the end. -/
def nextItem (close : Char) (first : Bool) (input : Input) : Except Fault (Input ⊕ Input) :=
  match skipBlanks input with
  | [] => .error .endOfText
  | .char c :: rest =>
    if c = close then .ok (.inr rest)
    else if first then .ok (.inl (.char c :: rest))
    else if c = ',' then
      match skipBlanks rest with
      | [] => .error .endOfText
      | s :: rest => if s = .char close then .error .malformed else .ok (.inl (s :: rest))
    else .error .malformed
  | .stray b :: rest => if first then .ok (.inl (.stray b :: rest)) else .error .malformed

/-- The items of an array from a given place on, up to and including its end. -/
def readItems {α : Type} (read : Reader α) : (fuel : Nat) → (first : Bool) → Reader (List α)
  | 0, _, _ => .error .endOfText
  | fuel + 1, first, input => do
    match ← nextItem ']' first input with
    | .inr rest => .ok ([], rest)
    | .inl input => do
      let (item, rest) ← read input
      let (items, rest) ← readItems read fuel false rest
      .ok (item :: items, rest)

/-- An array of values of one type. -/
def readArray {α : Type} (read : Reader α) : Reader (List α) := fun input =>
  match skipBlanks input with
  | .char '[' :: rest => readItems read (rest.length + 1) true rest
  | input => .error (wrongType input)

/-- The key of the next member of an object with the text from the colon on, or the text after the
end of the object. -/
def nextKey (first : Bool) (input : Input) : Except Fault ((String × Input) ⊕ Input) := do
  match ← nextItem '\x7d' first input with
  | .inr rest => .ok (.inr rest)
  | .inl (.char '"' :: rest) => do
    let (key, rest) ← quotedString rest
    .ok (.inl (key, rest))
  | .inl _ => .error .malformed

/-- The members of an object from a given place on, up to and including its end. -/
def readMembers {α : Type} (read : Reader α) :
    (fuel : Nat) → (first : Bool) → Reader (List (String × α))
  | 0, _, _ => .error .endOfText
  | fuel + 1, first, input => do
    match ← nextKey first input with
    | .inr rest => .ok ([], rest)
    | .inl (key, rest) => do
      let rest ← readColon rest
      let (value, rest) ← read rest
      let (members, rest) ← readMembers read fuel false rest
      .ok ((key, value) :: members, rest)

/-- The reserved key of an object that stands for the document written in its only value. -/
def embeddedKey : String := "$serde_json::private::RawValue"

/-- The text after the first key of an object, if that is the reserved one. -/
def afterEmbeddedKey? (input : Input) : Option Input :=
  match nextKey true input with
  | .ok (.inl (key, rest)) => if key = embeddedKey then some rest else none
  | _ => none

/-- The document that a string holds, from the colon before the string up to the end of the object
around it. A fault in that document is a mismatch of the string. -/
def readEmbedded (parse : Input → Except Fault Json) : Reader Json := fun input => do
  let (text, rest) ← readString (← readColon input)
  let value ← (parse (Symbol.ofString text)).mapError fun _ => .mismatch
  return (value, ← readOnlyEnd rest)

/-- Any value that opens at most `levels` containers inside each other. Embedded documents are read
by `embedded?`; without it the reserved key is a key like others. -/
def readTree (embedded? : Option (Input → Except Fault Json)) (levels : Nat) : Reader Json :=
  fun input =>
  match skipBlanks input with
  | [] => .error .endOfText
  | .char 'n' :: rest => do return (.null, ← expectWord ['u', 'l', 'l'] rest)
  | .char 't' :: rest => do return (.bool true, ← expectWord ['r', 'u', 'e'] rest)
  | .char 'f' :: rest => do return (.bool false, ← expectWord ['a', 'l', 's', 'e'] rest)
  | .char '"' :: rest => do
    let (text, rest) ← quotedString rest
    .ok (.string text, rest)
  | .char '[' :: rest =>
    match levels with
    | 0 => .error .malformed
    | levels + 1 => do
      let (items, rest) ← readItems (readTree embedded? levels) (rest.length + 1) true rest
      .ok (.array items, rest)
  | .char '\x7b' :: rest =>
    match levels with
    | 0 => .error .malformed
    | levels + 1 =>
      match embedded?, afterEmbeddedKey? rest with
      | some parse, some rest => readEmbedded parse rest
      | _, _ => do
        let (members, rest) ←
          readMembers (readTree embedded? levels) (rest.length + 1) true rest
        .ok (.object members, rest)
  | .char c :: rest =>
    if c = '-' ∨ c.isDigit then do
      let (n, rest) ← readNumber (.char c :: rest)
      .ok (.number n, rest)
    else .error .malformed
  | .stray _ :: _ => .error .malformed

/-- How deep containers may nest in a document. -/
def depthLimit : Nat := 127

/-- A document that holds one value and nothing else but blanks. -/
def readDocument {α : Type} (read : Reader α) (input : Input) : Except Fault α := do
  let (value, rest) ← read input
  match skipBlanks rest with
  | [] => .ok value
  | _ => .error .malformed

/-- The value of a text that embeds documents less than `fuel` deep. -/
def parseWithin : (fuel : Nat) → Input → Except Fault Json
  | 0, _ => .error .malformed
  | fuel + 1, input => readDocument (readTree (some (parseWithin fuel)) depthLimit) input

/-- The value of a text. An embedded document is shorter than the text that it stands in, so the
length of the text bounds the depth. -/
def parse (input : Input) : Except Fault Json := parseWithin (input.length + 1) input

end PagedReport.Json
