import PagedReport.Cell.Json
import PagedReport.Json.Printer
import PagedReport.Page

/-! # Pages as JSON

The pages of a report as one JSON document: their number, and each page with its own number and its
cells in order.
-/

namespace PagedReport

/-- A page with its number. -/
def Page.json (number : Nat) (page : Page) : Json :=
  .object [("number", .nat number), ("cells", .array (page.map Cell.json))]

/-- All pages, numbered from one. -/
def pagesJson (pages : List Page) : Json :=
  .object [("page_count", .nat pages.length),
    ("pages", .array (pages.zipIdx.map fun (page, index) => Page.json (index + 1) page))]

/-- Pages as the text of a JSON document. -/
def renderJson (pages : List Page) : String := (pagesJson pages).indented ++ "\n"

end PagedReport
