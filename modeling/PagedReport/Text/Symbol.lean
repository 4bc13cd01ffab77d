/-! # The input alphabet

Files are bytes and requests are text, and the readers take both in one form: a list of symbols,
each a character or a byte that belongs to no UTF-8 encoded character. A reader is then free to skip
stray bytes where it never looks at the text, and refuses them where it does.
-/

namespace PagedReport.Text

/-- A unit of input: a character, or a byte outside every well-formed character. -/
inductive Symbol where
  | char (c : Char)
  | stray (byte : UInt8)
deriving DecidableEq, Repr

namespace Symbol

/-- The symbols of a text. -/
def ofChars (cs : List Char) : List Symbol := cs.map .char

/-- The symbols of a text. -/
def ofString (s : String) : List Symbol := ofChars s.toList

/-- The low six bits of a continuation byte. -/
def continuation? (b : UInt8) : Option Nat :=
  if b.toNat / 64 = 2 then some (b.toNat % 64) else none

/-- The character with this code point, unless it is below `least`, which a shorter encoding would
reach, or no code point of a character. -/
def charAbove? (least n : Nat) : Option Char :=
  if least ≤ n ∧ n.isValidChar then some (Char.ofNat n) else none

/-- The well-formed character that starts with `lead`, and the bytes after it. -/
def leadingChar? (lead : UInt8) (rest : List UInt8) : Option (Char × List UInt8) :=
  let n := lead.toNat
  if n < 0x80 then some (Char.ofNat n, rest)
  else if n < 0xC0 then none
  else match rest with
    | [] => none
    | b₁ :: rest₁ => do
      let x₁ ← continuation? b₁
      if n < 0xE0 then
        let c ← charAbove? 0x80 (n % 32 * 64 + x₁)
        return (c, rest₁)
      else match rest₁ with
        | [] => none
        | b₂ :: rest₂ => do
          let x₂ ← continuation? b₂
          if n < 0xF0 then
            let c ← charAbove? 0x800 ((n % 16 * 64 + x₁) * 64 + x₂)
            return (c, rest₂)
          else if n < 0xF8 then
            match rest₂ with
            | [] => none
            | b₃ :: rest₃ => do
              let x₃ ← continuation? b₃
              let c ← charAbove? 0x10000 (((n % 8 * 64 + x₁) * 64 + x₂) * 64 + x₃)
              return (c, rest₃)
          else none

/-- The symbols of at most `fuel` leading characters or stray bytes. -/
def ofBytesFuel : (fuel : Nat) → List UInt8 → List Symbol
  | 0, _ => []
  | _, [] => []
  | fuel + 1, b :: rest =>
    match leadingChar? b rest with
    | some (c, after) => .char c :: ofBytesFuel fuel after
    | none => .stray b :: ofBytesFuel fuel rest

/-- The symbols of a file. Every symbol takes at least one byte, so the number of bytes bounds their
number. -/
def ofBytes (bytes : List UInt8) : List Symbol := ofBytesFuel bytes.length bytes

/-- The bytes of a symbol. -/
def bytes : Symbol → List UInt8
  | .char c => (String.singleton c).toUTF8.toList
  | .stray b => [b]

/-- The number of bytes of a symbol. -/
def size : Symbol → Nat
  | .char c => c.utf8Size
  | .stray _ => 1

/-- The characters of symbols that are all characters. -/
def allChars? (symbols : List Symbol) : Option (List Char) :=
  symbols.mapM fun
    | .char c => some c
    | .stray _ => none

/-- The text of symbols that were gathered from the input. Stray bytes that have become neighbours
by what was left out between them may form characters. -/
def text? (symbols : List Symbol) : Option String :=
  ((allChars? symbols).orElse fun _ => allChars? (ofBytes (symbols.flatMap bytes))).map String.ofList

end Symbol

example : Symbol.ofBytes [0x61, 0xC3, 0xA9, 0xFF] = [.char 'a', .char 'é', .stray 0xFF] := by
  decide +kernel
example : Symbol.text? [.stray 0xC3, .stray 0xA9] = some "é" := by decide +kernel

end PagedReport.Text
