import PagedReport.Proofs.Placing

/-! # Packing batches onto pages

A paginator takes batches one after the other, with gaps between them. It looks neither ahead nor back:
a batch that ends above the page height goes below what is on the page, and any other one to the top of
a new page. So no cell is lost or put in another order, every batch stays together on one page, and a
page that has been begun only grows at its end.
-/

namespace PagedReport

/-- The highest cells of a batch stand at a height. -/
def StartsAt (y : Int) (cells : List Cell) : Prop :=
  (∃ cell ∈ cells, cell.bounds.y = y) ∧ ∀ cell ∈ cells, y ≤ cell.bounds.y

instance (y : Int) (cells : List Cell) : Decidable (StartsAt y cells) :=
  inferInstanceAs (Decidable (_ ∧ _))

namespace StartsAt

variable {y : Int} {cells : List Cell}

theorem ne_nil (starts : StartsAt y cells) : cells ≠ [] := by
  obtain ⟨cell, member, _⟩ := starts.1
  exact List.ne_nil_of_mem member

theorem min?_eq (starts : StartsAt y cells) : (cells.map fun cell => cell.bounds.y).min? = some y := by
  rw [List.min?_eq_some_iff]
  obtain ⟨⟨top, member, height⟩, lower⟩ := starts
  constructor
  · exact List.mem_map.mpr ⟨top, member, height⟩
  · rintro _ below
    obtain ⟨cell, member, rfl⟩ := List.mem_map.mp below
    exact lower cell member

/-- A batch that is moved down starts further down. -/
theorem lowered (starts : StartsAt y cells) (distance : Int) :
    StartsAt (y + distance) (cells.map (Cell.lowered distance)) := by
  obtain ⟨⟨top, member, rfl⟩, lower⟩ := starts
  constructor
  · exact ⟨top.lowered distance, List.mem_map_of_mem member, rfl⟩
  · intro cell moved
    obtain ⟨original, member, rfl⟩ := List.mem_map.mp moved
    exact Int.add_le_add_right (lower original member) distance

end StartsAt

/-- A batch for a paginator, or a gap below the one before. -/
inductive PackingStep where
  | append (cells : List Cell)
  | skip (dy : Int)
deriving DecidableEq, Repr

/-- The cells of a step. -/
def PackingStep.cells : PackingStep → List Cell
  | append cells => cells
  | skip _ => []

namespace Paginator

variable {paginator : Paginator} {cells : List Cell}

/-- The pages after a step. -/
def pack (paginator : Paginator) : PackingStep → Paginator
  | .append cells => (paginator.append cells).2
  | .skip dy => paginator.skip dy

/-- The pages after some steps. -/
def packAll (paginator : Paginator) (steps : List PackingStep) : Paginator :=
  steps.foldl pack paginator

/-- A batch with cells is placed at the offset, or below the top of a new page as it was below the
offset. -/
theorem append_eq (occupied : cells ≠ []) :
    paginator.append cells =
      if paginator.needsBreak (batchHeight cells) then
        (true, paginator.newPage.place (translate cells paginator.y 0) (batchHeight cells))
      else (false, paginator.place cells (batchHeight cells)) := by
  have nonempty : cells.isEmpty = false := by simpa [List.isEmpty_eq_false_iff] using occupied
  simp only [append, nonempty, Bool.false_eq_true, ↓reduceIte]

/-- A batch below the top is moved to the top as a whole. -/
theorem translate_to_top {y : Int} (starts : StartsAt y cells) (down : 0 < y)
    (high : ∀ cell ∈ cells, cell.bounds.y ≤ Coordinate.greatest) :
    translate cells y 0 = cells.map (Cell.lowered (-y)) := by
  rw [← zero_sub]
  apply translate_eq_lowered
  intro cell member
  have below := starts.2 cell member
  have bound := high cell member
  simp only [Coordinate.InRange, Coordinate.least, Coordinate.greatest] at bound ⊢
  omega

/-- A copy of a batch is appended as the batch itself would be if it had been made for the offset. -/
theorem appendCopy_eq {y : Int} (starts : StartsAt y cells)
    (high : ∀ cell ∈ cells, cell.bounds.y + (paginator.y - y) ≤ Coordinate.greatest) :
    paginator.appendCopy cells = paginator.append (cells.map (Cell.lowered (paginator.y - y))) := by
  have moved : translate cells y paginator.y = cells.map (Cell.lowered (paginator.y - y)) := by
    apply translate_eq_lowered
    intro cell member
    have below := starts.2 cell member
    have bound := high cell member
    have low := paginator.inRange_y.1
    constructor <;> omega
  simp only [appendCopy, starts.min?_eq, moved]

/-- All that a step can do: leave a gap, or place its cells on the page or, moved, on a new one. -/
theorem pack_cases (paginator : Paginator) (step : PackingStep) :
    (step.cells = [] ∧ ∃ dy, paginator.pack step = paginator.skip dy) ∨
      (∃ height, paginator.pack step = paginator.place step.cells height) ∨
      ∃ top height, paginator.pack step =
        paginator.newPage.place (translate step.cells top 0) height := by
  cases step with
  | append cells =>
    by_cases occupied : cells = []
    · refine .inl ⟨occupied, 0, ?_⟩
      rw [pack, occupied, append_nil, skip_zero]
    · rw [pack, append_eq occupied]
      split
      · exact .inr (.inr ⟨_, _, rfl⟩)
      · exact .inr (.inl ⟨_, rfl⟩)
  | skip dy => exact .inl ⟨rfl, dy, rfl⟩

/-- A step adds its cells behind all others. -/
theorem atHeight_flatten_pack (paginator : Paginator) (step : PackingStep) (y : Int) :
    atHeight y (paginator.pack step).pages.flatten =
      atHeight y (paginator.pages.flatten ++ step.cells) := by
  rcases pack_cases paginator step with ⟨none, dy, gap⟩ | ⟨height, placed⟩ | ⟨top, height, moved⟩
  · rw [gap, none, List.append_nil]
    rfl
  · simp [placed, place, pages]
  · have same := atHeight_translate y top 0 step.cells
    simp only [atHeight] at same
    simp [moved, place, newPage, pages, atHeight, same]

theorem atHeight_flatten_packAll (paginator : Paginator) (steps : List PackingStep) (y : Int) :
    atHeight y (paginator.packAll steps).pages.flatten =
      atHeight y (paginator.pages.flatten ++ steps.flatMap PackingStep.cells) := by
  induction steps generalizing paginator with
  | nil => rw [List.flatMap_nil, List.append_nil, packAll, List.foldl_nil]
  | cons step rest ih =>
    calc
      atHeight y (paginator.packAll (step :: rest)).pages.flatten
        = atHeight y ((paginator.pack step).pages.flatten ++ rest.flatMap PackingStep.cells) := ih _
      _ = atHeight y (paginator.pack step).pages.flatten ++
            atHeight y (rest.flatMap PackingStep.cells) := List.map_append
      _ = atHeight y (paginator.pages.flatten ++ step.cells) ++
            atHeight y (rest.flatMap PackingStep.cells) := by rw [atHeight_flatten_pack]
      _ = atHeight y (paginator.pages.flatten ++ (step :: rest).flatMap PackingStep.cells) := by
        simp [atHeight]

/-- Every page of the first paginator is the upper part of the page of the second one at the same
index. -/
structure Grows (paginator other : Paginator) : Prop where
  pageHeight : other.pageHeight = paginator.pageHeight
  pages : ∀ (index : Nat) (page : Page), paginator.pages[index]? = some page →
    ∃ below : List Cell, other.pages[index]? = some (page ++ below)

namespace Grows

variable {other third : Paginator}

theorem refl (paginator : Paginator) : paginator.Grows paginator :=
  ⟨rfl, fun _ page found => ⟨[], by rw [found, List.append_nil]⟩⟩

theorem trans (first : paginator.Grows other) (second : other.Grows third) :
    paginator.Grows third := by
  refine ⟨second.pageHeight.trans first.pageHeight, ?_⟩
  intro index page found
  obtain ⟨above, later⟩ := first.pages index page found
  obtain ⟨below, last⟩ := second.pages index _ later
  exact ⟨above ++ below, by rw [last, List.append_assoc]⟩

/-- Cells that are placed go to the end of the last page. -/
theorem place (paginator : Paginator) (cells : List Cell) (height : Int) :
    paginator.Grows (paginator.place cells height) := by
  refine ⟨rfl, ?_⟩
  intro index page found
  simp only [Paginator.pages, Paginator.place] at found ⊢
  by_cases earlier : index < paginator.closed.length
  · rw [List.getElem?_append_left earlier] at found ⊢
    exact ⟨[], by rw [found, List.append_nil]⟩
  · rw [List.getElem?_append_right (Nat.le_of_not_lt earlier), List.getElem?_singleton] at found ⊢
    split at found
    · next last =>
      cases found
      exact ⟨cells, if_pos last⟩
    · cases found

theorem newPage (paginator : Paginator) : paginator.Grows paginator.newPage := by
  refine ⟨rfl, ?_⟩
  intro index page found
  obtain ⟨bound, _⟩ := List.getElem?_eq_some_iff.mp found
  refine ⟨[], ?_⟩
  rw [Paginator.pages, Paginator.newPage, List.getElem?_append_left bound, found, List.append_nil]

theorem pack (paginator : Paginator) (step : PackingStep) : paginator.Grows (paginator.pack step) := by
  rcases pack_cases paginator step with ⟨_, dy, gap⟩ | ⟨height, placed⟩ | ⟨top, height, moved⟩
  · rw [gap]
    exact ⟨rfl, (refl paginator).pages⟩
  · rw [placed]
    exact place paginator _ height
  · rw [moved]
    exact (newPage paginator).trans (place _ _ height)

theorem packAll (paginator : Paginator) (steps : List PackingStep) :
    paginator.Grows (paginator.packAll steps) := by
  induction steps generalizing paginator with
  | nil => exact refl paginator
  | cons step rest ih => exact (pack paginator step).trans (ih (paginator.pack step))

end Grows

theorem getElem?_pages_place (paginator : Paginator) (cells : List Cell) (height : Int) :
    (paginator.place cells height).pages[paginator.currentPage]? = some (paginator.last ++ cells) := by
  simp [pages, place, currentPage]

theorem getElem?_pages_newPage_place (paginator : Paginator) (cells : List Cell) (height : Int) :
    (paginator.newPage.place cells height).pages[paginator.pages.length]? = some cells :=
  getElem?_pages_place paginator.newPage cells height

/-- A row of two cells, the second one a unit lower than the first. -/
def steppedRow (y : Int) : List Cell :=
  [.bare "x" .standard ⟨0, y, 10, 12⟩, .bare "y" .standard ⟨10, y + 1, 10, 10⟩]

end Paginator

end PagedReport
