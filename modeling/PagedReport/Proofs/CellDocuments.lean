import PagedReport.Cell.Json
import PagedReport.Proofs.Json.Documents

/-! # Cells read back

A cell and all that it is made of is read from each written form of its JSON, whatever characters its
text and its font family have. Lengths are whole numbers of thirty-two bits with sign and font sizes
those without.
-/

namespace PagedReport

open Json (Fills IsCount IsLength Readable Reads reads_bool reads_count reads_length reads_name reads_record
  reads_string)

/-- A field for a length stores the length that it reads. -/
theorem reads_lengthField {σ : Type} {key : String} {store : σ → Int → σ} {record : σ} {n : Int}
    (range : IsLength n) : Reads ((lengthField key store).read record) (Json.int n).draft (store record n) :=
  (reads_length range).storing

namespace Font

/-- The size is a number of thirty-two bits. -/
structure Fits (font : Font) : Prop where
  size : IsCount font.size

variable {font : Font}

theorem Fits.reads (fits : font.Fits) : Reads Font.read font.json.draft font := by
  rw [Font.json, Json.draft_object]
  apply reads_record (by decide)
  apply Fills.given (reads_string font.family).storing
  apply Fills.given (reads_count fits.size).storing
  apply Fills.given (reads_bool font.bold).storing
  apply Fills.given (reads_bool font.italic).storing
  exact .nil font

theorem Fits.readable (fits : font.Fits) (levels : Nat) : Readable (levels + 1) font.json := by
  apply Readable.object
  · simp [Json.embeddedKey]
  · have size : Readable levels (Json.nat font.size) := .int fits.size.isWord
    simpa using ⟨.string font.family, size, .bool font.bold, .bool font.italic⟩

end Font

namespace Rect

/-- All lengths are numbers of thirty-two bits. -/
structure Fits (rect : Rect) : Prop where
  x : IsLength rect.x
  y : IsLength rect.y
  width : IsLength rect.width
  height : IsLength rect.height

variable {rect : Rect}

theorem Fits.reads (fits : rect.Fits) : Reads Rect.read rect.json.draft rect := by
  rw [Rect.json, Json.draft_object]
  apply reads_record (by decide)
  apply Fills.given (reads_lengthField fits.x)
  apply Fills.given (reads_lengthField fits.y)
  apply Fills.given (reads_lengthField fits.width)
  apply Fills.given (reads_lengthField fits.height)
  exact .nil rect

theorem Fits.readable (fits : rect.Fits) (levels : Nat) : Readable (levels + 1) rect.json := by
  apply Readable.object
  · simp [Json.embeddedKey]
  · simpa using And.intro (Readable.int fits.x.isWord)
      ⟨.int fits.y.isWord, .int fits.width.isWord, .int fits.height.isWord⟩

end Rect

namespace Insets

/-- All distances are numbers of thirty-two bits. -/
structure Fits (insets : Insets) : Prop where
  top : IsLength insets.top
  left : IsLength insets.left
  bottom : IsLength insets.bottom
  right : IsLength insets.right

variable {insets : Insets}

theorem Fits.reads (fits : insets.Fits) : Reads Insets.read insets.json.draft insets := by
  rw [Insets.json, Json.draft_object]
  apply reads_record (by decide)
  apply Fills.given (reads_lengthField fits.top)
  apply Fills.given (reads_lengthField fits.left)
  apply Fills.given (reads_lengthField fits.bottom)
  apply Fills.given (reads_lengthField fits.right)
  exact .nil insets

theorem Fits.readable (fits : insets.Fits) (levels : Nat) : Readable (levels + 1) insets.json := by
  apply Readable.object
  · simp [Json.embeddedKey]
  · simpa using And.intro (Readable.int fits.top.isWord)
      ⟨.int fits.left.isWord, .int fits.bottom.isWord, .int fits.right.isWord⟩

end Insets

theorem Alignment.reads (alignment : Alignment) :
    Reads Alignment.read (Json.string alignment.name).draft alignment := by
  apply reads_name
  cases alignment <;> rfl

theorem Line.reads (line : Line) : Reads Line.read (Json.string line.name).draft line := by
  apply reads_name
  cases line <;> rfl

namespace Borders

theorem reads (borders : Borders) : Reads Borders.read borders.json.draft borders := by
  rw [Borders.json, Json.draft_object]
  apply reads_record (by decide)
  apply Fills.given (Line.reads borders.top).storing
  apply Fills.given (Line.reads borders.bottom).storing
  apply Fills.given (Line.reads borders.left).storing
  apply Fills.given (Line.reads borders.right).storing
  exact .nil borders

theorem readable (borders : Borders) (levels : Nat) : Readable (levels + 1) borders.json := by
  apply Readable.object
  · simp [Json.embeddedKey]
  · simpa using And.intro (Readable.string borders.top.name)
      ⟨.string borders.bottom.name, .string borders.left.name, .string borders.right.name⟩

end Borders

namespace Cell

/-- All numbers of a cell are of thirty-two bits. -/
structure Fits (cell : Cell) : Prop where
  font : cell.font.Fits
  bounds : cell.bounds.Fits
  padding : cell.padding.Fits

variable {cell : Cell}

theorem Fits.reads (fits : cell.Fits) : Reads Cell.read cell.json.draft cell := by
  rw [Cell.json, Json.draft_object]
  apply reads_record (by decide)
  apply Fills.given (reads_string cell.text).storing
  apply Fills.given fits.font.reads.storing
  apply Fills.given fits.bounds.reads.storing
  apply Fills.given fits.padding.reads.storing
  apply Fills.given cell.alignment.reads.storing
  apply Fills.given cell.borders.reads.storing
  exact .nil cell

theorem Fits.readable (fits : cell.Fits) (levels : Nat) : Readable (levels + 2) cell.json := by
  apply Readable.object
  · simp [Json.embeddedKey]
  · simpa using And.intro (Readable.string cell.text)
      ⟨fits.font.readable levels, fits.bounds.readable levels, fits.padding.readable levels,
        .string cell.alignment.name, cell.borders.readable levels⟩

end Cell

end PagedReport
