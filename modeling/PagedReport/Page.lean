import PagedReport.Cell

/-! # Pages

A page is a list of cells. A `Paginator` fills pages one after the other with batches of cells that
belong together, such as a row. A batch is never divided: it goes below what is on the page if it
ends above the page height, and else to the top of a new page. At the top of a page every batch has
its place, however tall. The height at which the next batch goes is a coordinate, and so is the end of a
batch with which the page height is compared: beyond the greatest coordinate both wrap around.
-/

namespace PagedReport

/-- The cells of a page, in the order in which they were placed. -/
abbrev Page := List Cell

/-- A batch with its top edge moved from one height to another. -/
def translate (cells : List Cell) (top target : Int) : List Cell :=
  cells.map fun cell => cell.atY (Coordinate.wrap (cell.bounds.y - top + target))

/-- Pages that are being filled from the top down. -/
structure Paginator where
  pageHeight : Int
  /-- The pages that are closed. -/
  closed : List Page
  /-- The page that is being filled. -/
  last : Page
  /-- Where the next batch goes on that page. -/
  y : Int
  /-- It is a coordinate. -/
  kept : Coordinate.wrap y = y
deriving DecidableEq, Repr

namespace Paginator

/-- One empty page. -/
def start (pageHeight : Int) : Paginator := ⟨pageHeight, [], [], 0, Coordinate.wrap_zero⟩

/-- All pages. -/
def pages (paginator : Paginator) : List Page := paginator.closed ++ [paginator.last]

/-- The index of the page that is being filled. -/
def currentPage (paginator : Paginator) : Nat := paginator.closed.length

/-- Whether a batch of this height has no place on the page. -/
def needsBreak (paginator : Paginator) (height : Int) : Bool :=
  0 < paginator.y && paginator.pageHeight ≤ Coordinate.wrap (paginator.y + height)

/-- The page closed and a new one begun. -/
def newPage (paginator : Paginator) : Paginator :=
  { paginator with closed := paginator.pages, last := [], y := 0, kept := Coordinate.wrap_zero }

/-- A gap left free on the page. -/
def skip (paginator : Paginator) (dy : Int) : Paginator :=
  { paginator with y := Coordinate.wrap (paginator.y + dy), kept := Coordinate.wrap_wrap _ }

/-- Cells put on the page as they are, with the next batch `height` further down. -/
def place (paginator : Paginator) (cells : List Cell) (height : Int) : Paginator :=
  { paginator with
    last := paginator.last ++ cells
    y := Coordinate.wrap (paginator.y + height)
    kept := Coordinate.wrap_wrap _ }

/-- A batch made for the current height placed there, or moved to the top of a new page if it does
not fit; the truth value tells which. -/
def append (paginator : Paginator) (cells : List Cell) : Bool × Paginator :=
  if cells.isEmpty then (false, paginator)
  else
    let height := batchHeight cells
    if paginator.needsBreak height then
      (true, paginator.newPage.place (translate cells paginator.y 0) height)
    else (false, paginator.place cells height)

/-- A copy of a batch made for any height, moved to the current one and appended. -/
def appendCopy (paginator : Paginator) (cells : List Cell) : Bool × Paginator :=
  match (cells.map fun cell => cell.bounds.y).min? with
  | none => (false, paginator)
  | some top => paginator.append (translate cells top paginator.y)

end Paginator

end PagedReport
