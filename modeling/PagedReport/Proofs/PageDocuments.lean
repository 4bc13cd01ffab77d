import PagedReport.Paint.Json
import PagedReport.Proofs.CellDocuments

/-! # Pages read back from JSON

Pages that are written as JSON can be read back. The text is one JSON document; it tells how many pages
there are, numbers them from one, and has the cells of each page, which the reader of cells gives back
as they were. No two lists of pages are written alike.
-/

namespace PagedReport

open Json (Fills Readable Reader Reads RecordField reads_array reads_record)
open Text (Symbol)

/-- A page of a document with its number. -/
structure NumberedPage where
  number : Nat
  cells : List Cell
deriving DecidableEq, Repr

/-- What a document of pages holds. -/
structure PageDocument where
  pageCount : Nat
  pages : List NumberedPage
deriving DecidableEq, Repr

/-- A number of pages: a whole number of sixty-four bits without sign. -/
def readPageNumber : Reader Nat := fun input => do
  let (n, rest) ← Json.readIntegerIn 0 Json.Literal.significandLimit input
  .ok (n.toNat, rest)

namespace NumberedPage

/-- The fields of a page. -/
def fields : List (RecordField NumberedPage) :=
  [.mandatory "number" readPageNumber fun page number => { page with number },
    .mandatory "cells" (Json.readArray Cell.read) fun page cells => { page with cells }]

/-- A page read from JSON. -/
def read : Reader NumberedPage := Json.readRecord fields false ⟨0, []⟩

end NumberedPage

namespace PageDocument

/-- The fields of a document. -/
def fields : List (RecordField PageDocument) :=
  [.mandatory "page_count" readPageNumber fun document pageCount => { document with pageCount },
    .mandatory "pages" (Json.readArray NumberedPage.read) fun document pages => { document with pages }]

/-- A document read from JSON. -/
def read : Reader PageDocument := Json.readRecord fields false ⟨0, []⟩

/-- The document that a text holds. -/
def ofText (text : String) : Except Json.Fault PageDocument :=
  Json.readDocument read (Symbol.ofString text)

end PageDocument

/-- Pages whose number and whose cells' numbers the JSON forms have room for. -/
structure PagesFit (pages : List Page) : Prop where
  count : pages.length ≤ Json.Literal.significandLimit
  cells : ∀ page ∈ pages, ∀ cell ∈ page, cell.Fits

/-- The pages as they are numbered in the document. -/
def numberedPages (pages : List Page) : List NumberedPage :=
  pages.zipIdx.map fun entry => ⟨entry.2 + 1, entry.1⟩

theorem map_number_numberedPages (pages : List Page) :
    (numberedPages pages).map NumberedPage.number = List.range' 1 pages.length := by
  have shifted : (List.range' 0 pages.length).map (· + 1) = List.range' 1 pages.length := by
    simpa only [Nat.add_comm] using List.map_add_range' (a := 1) 0 pages.length 1
  rw [numberedPages, List.map_map, ← shifted, ← List.zipIdx_map_snd, List.map_map]
  rfl

theorem map_cells_numberedPages (pages : List Page) :
    (numberedPages pages).map NumberedPage.cells = pages := by
  rw [numberedPages, List.map_map]
  exact List.zipIdx_map_fst 0 pages

/-- The cells of a page are read one by one. -/
theorem reads_cells {page : Page} (fit : ∀ cell ∈ page, cell.Fits) :
    Reads (Json.readArray Cell.read) (Json.array (page.map Cell.json)).draft page := by
  rw [Json.draft_array, List.map_map]
  apply reads_array
  rw [List.forall₂_map_left_iff, List.forall₂_same]
  exact fun cell member => (fit cell member).reads

theorem NumberedPage.reads {page : Page} (fit : ∀ cell ∈ page, cell.Fits) {number : Nat}
    (small : number ≤ Json.Literal.significandLimit) :
    Reads NumberedPage.read (Page.json number page).draft ⟨number, page⟩ := by
  have known : Reads readPageNumber (Json.nat number).draft number := Json.reads_toNat small (Nat.le_refl _)
  rw [Page.json, Json.draft_object]
  apply reads_record (by decide)
  apply Fills.given known.storing
  apply Fills.given (reads_cells fit).storing
  exact .nil _

namespace PagesFit

variable {pages : List Page}

/-- What is known of a page and its number. -/
theorem of_mem (fit : PagesFit pages) {entry : Page × Nat} (member : entry ∈ pages.zipIdx) :
    entry.2 + 1 ≤ Json.Literal.significandLimit ∧ ∀ cell ∈ entry.1, cell.Fits := by
  obtain ⟨page, index⟩ := entry
  obtain ⟨_, below, same⟩ := List.mem_zipIdx member
  have count := fit.count
  refine ⟨by simp only; omega, fit.cells page ?_⟩
  rw [same]
  exact List.getElem_mem _

/-- The document of pages is read with all of its pages. -/
theorem reads (fit : PagesFit pages) :
    Reads PageDocument.read (pagesJson pages).draft ⟨pages.length, numberedPages pages⟩ := by
  have count : Reads readPageNumber (Json.nat pages.length).draft pages.length :=
    Json.reads_toNat fit.count (Nat.le_refl _)
  have each : Reads (Json.readArray NumberedPage.read)
      (Json.array (pages.zipIdx.map fun entry => Page.json (entry.2 + 1) entry.1)).draft
      (numberedPages pages) := by
    rw [Json.draft_array, List.map_map]
    apply reads_array
    rw [numberedPages, List.forall₂_map_left_iff, List.forall₂_map_right_iff, List.forall₂_same]
    intro entry member
    obtain ⟨small, cells⟩ := fit.of_mem member
    exact NumberedPage.reads cells small
  rw [pagesJson, Json.draft_object]
  apply reads_record (by decide)
  apply Fills.given count.storing
  apply Fills.given each.storing
  exact .nil _

/-- The document of pages is read as a tree. -/
theorem readable (fit : PagesFit pages) (levels : Nat) : Readable (levels + 6) (pagesJson pages) := by
  have each : ∀ item ∈ pages.zipIdx.map fun entry => Page.json (entry.2 + 1) entry.1,
      Readable (levels + 4) item := by
    intro item member
    obtain ⟨entry, known, rfl⟩ := List.mem_map.mp member
    obtain ⟨small, cells⟩ := fit.of_mem known
    have number : Readable (levels + 3) (Json.nat (entry.2 + 1)) := .int (Json.isWord_natCast small)
    have listed : Readable (levels + 3) (Json.array (entry.1.map Cell.json)) := by
      apply Readable.array
      intro item member
      obtain ⟨cell, known, rfl⟩ := List.mem_map.mp member
      exact (cells cell known).readable levels
    apply Readable.object
    · simp [Json.embeddedKey]
    · simpa using ⟨number, listed⟩
  have count : Readable (levels + 5) (Json.nat pages.length) := .int (Json.isWord_natCast fit.count)
  apply Readable.object
  · simp [Json.embeddedKey]
  · simpa using ⟨count, Readable.array each⟩

end PagesFit

/-- The pages as the draft of their document, with a line end behind it. -/
private theorem ofString_renderJson (pages : List Page) :
    Symbol.ofString (renderJson pages) =
      Symbol.ofChars ((pagesJson pages).draft .indented 0 ++ ['\n']) := by
  rw [renderJson, Json.indented_eq_draft, Symbol.ofString, String.toList_append, String.toList_ofList]
  rfl

private theorem lineEnd_blank : ∀ c ∈ ['\n'], Json.isBlank c = true := by
  intro c member
  rw [List.mem_singleton.mp member]
  rfl

/-- The document that is read from written pages. -/
theorem PagesFit.ofText_renderJson {pages : List Page} (fit : PagesFit pages) :
    PageDocument.ofText (renderJson pages) = .ok ⟨pages.length, numberedPages pages⟩ := by
  rw [PageDocument.ofText, ofString_renderJson]
  exact fit.reads.readDocument_append .indented 0 lineEnd_blank

/-- Nothing of the pages is lost in their JSON. The text is parsed as the document that was written. It
tells the number of pages, the pages are numbered from one, and their cells are read back in order. Other
pages are written otherwise. -/
theorem renderJson_lossless {pages : List Page} (fit : PagesFit pages) :
    Json.parse (Symbol.ofString (renderJson pages)) = .ok (pagesJson pages) ∧
    (∃ document, PageDocument.ofText (renderJson pages) = .ok document ∧
      document.pageCount = pages.length ∧
      document.pages.map NumberedPage.number = List.range' 1 pages.length ∧
      document.pages.map NumberedPage.cells = pages) ∧
    ∀ others, PagesFit others → renderJson others = renderJson pages → others = pages := by
  refine ⟨?_, ?_, ?_⟩
  · rw [ofString_renderJson]
    exact (fit.readable 121).parse_append .indented lineEnd_blank
  · exact ⟨_, fit.ofText_renderJson, rfl, map_number_numberedPages pages, map_cells_numberedPages pages⟩
  · intro others room same
    -- One text is read as one document, whose cells are the pages of both.
    have read := fit.ofText_renderJson
    rw [← same, room.ofText_renderJson] at read
    have numbered : numberedPages others = numberedPages pages :=
      congrArg PageDocument.pages (Except.ok.inj read)
    rw [← map_cells_numberedPages others, numbered, map_cells_numberedPages]

/-- A cell whose text has a quote, a backslash, a line end and a control character. -/
def escapedCell : Cell where
  text := "\"\\\n\u0001é"
  font := .standard
  bounds := ⟨-1, 0, 40, 14⟩
  padding := .uniform 1
  alignment := .right
  borders := ⟨.double, .none, .none, .single⟩

/-- An empty page and one with such a cell are read back. -/
theorem renderJson_lossless_escapedCell :
    ∃ document, PageDocument.ofText (renderJson [[], [escapedCell]]) = .ok document ∧
      document.pageCount = 2 ∧ document.pages.map NumberedPage.number = [1, 2] ∧
      document.pages.map NumberedPage.cells = [[], [escapedCell]] := by
  have fits : escapedCell.Fits :=
    ⟨⟨by decide⟩, ⟨by decide, by decide, by decide, by decide⟩,
      ⟨by decide, by decide, by decide, by decide⟩⟩
  have fit : PagesFit [[], [escapedCell]] := ⟨by decide, by simpa using fits⟩
  exact (renderJson_lossless fit).2.1

end PagedReport
