import Mathlib.Algebra.Order.Ring.Int
import PagedReport.Page

/-! # Placing a batch of cells

The cells of a batch stand side by side, all at one height of the page. Such a batch is known by its
cells at any height, and this module says what becomes of it on the pages: it stays at the offset of
the paginator or moves to the top of a new page, and a copy of it is placed like the batch itself.
-/

namespace PagedReport

namespace Cell

@[simp] theorem atY_atY (cell : Cell) (y z : Int) : (cell.atY y).atY z = cell.atY z := rfl

@[simp] theorem bounds_y_atY (cell : Cell) (y : Int) : (cell.atY y).bounds.y = y := rfl

@[simp] theorem bounds_height_atY (cell : Cell) (y : Int) :
    (cell.atY y).bounds.height = cell.bounds.height := rfl

/-- The cell further down on its page, or further up if the distance is negative. -/
def lowered (distance : Int) (cell : Cell) : Cell := cell.atY (cell.bounds.y + distance)

end Cell

/-- The vertical extent of a cell is given in coordinates. -/
def Cell.InRange (cell : Cell) : Prop :=
  Coordinate.InRange cell.bounds.y ∧ Coordinate.InRange cell.bounds.height

instance (cell : Cell) : Decidable cell.InRange := inferInstanceAs (Decidable (_ ∧ _))

/-- The cells of a batch at a height of the page. -/
def atHeight (y : Int) (cells : List Cell) : List Cell := cells.map fun cell => cell.atY y

@[simp] theorem atHeight_nil (y : Int) : atHeight y [] = [] := rfl

@[simp] theorem atHeight_atHeight (y z : Int) (cells : List Cell) :
    atHeight z (atHeight y cells) = atHeight z cells := by
  simp [atHeight]

@[simp] theorem atHeight_eq_nil {y : Int} {cells : List Cell} : atHeight y cells = [] ↔ cells = [] := by
  simp [atHeight]

theorem y_of_mem_atHeight {y : Int} {cells : List Cell} {cell : Cell} (member : cell ∈ atHeight y cells) :
    cell.bounds.y = y := by
  obtain ⟨original, _, rfl⟩ := List.mem_map.mp member
  rfl

@[simp] theorem batchHeight_nil : batchHeight [] = 0 := rfl

@[simp] theorem batchHeight_atHeight (y : Int) (cells : List Cell) :
    batchHeight (atHeight y cells) = batchHeight cells := by
  simp [batchHeight, atHeight, Function.comp_def]

/-- The height of a batch is that of one of its cells, and no cell is taller. -/
theorem batchHeight_eq_iff {cells : List Cell} (occupied : cells ≠ []) {height : Int} :
    batchHeight cells = height ↔
      (∃ cell ∈ cells, cell.bounds.height = height) ∧ ∀ cell ∈ cells, cell.bounds.height ≤ height := by
  obtain ⟨top, found⟩ : ∃ top, (cells.map fun cell => cell.bounds.height).max? = some top := by
    apply Option.isSome_iff_exists.mp
    simpa [List.isSome_max?_iff] using occupied
  have unique : batchHeight cells = height ↔
      (cells.map fun cell => cell.bounds.height).max? = some height := by
    simp [batchHeight, found]
  rw [unique, List.max?_eq_some_iff]
  simp

theorem le_batchHeight {cells : List Cell} {cell : Cell} (member : cell ∈ cells) :
    cell.bounds.height ≤ batchHeight cells :=
  ((batchHeight_eq_iff (List.ne_nil_of_mem member)).mp rfl).2 cell member

theorem batchHeight_nonneg {cells : List Cell} (tall : ∀ cell ∈ cells, 0 ≤ cell.bounds.height) :
    0 ≤ batchHeight cells := by
  cases cells with
  | nil => exact le_refl _
  | cons cell rest => exact (tall cell (List.mem_cons_self ..)).trans (le_batchHeight (List.mem_cons_self ..))

theorem inRange_batchHeight {cells : List Cell}
    (range : ∀ cell ∈ cells, Coordinate.InRange cell.bounds.height) :
    Coordinate.InRange (batchHeight cells) := by
  by_cases occupied : cells = []
  · rw [occupied]
    exact Coordinate.inRange_zero
  · obtain ⟨⟨cell, member, tallest⟩, _⟩ := (batchHeight_eq_iff occupied).mp rfl
    rw [← tallest]
    exact range cell member

theorem lowered_atHeight (distance y : Int) (cells : List Cell) :
    (atHeight y cells).map (Cell.lowered distance) = atHeight (y + distance) cells := by
  simp [atHeight, Cell.lowered, Function.comp_def]

/-- A batch is moved by the distance between the two heights, as long as it stays within the range of
coordinates. -/
theorem translate_eq_lowered {cells : List Cell} {top target : Int}
    (range : ∀ cell ∈ cells, Coordinate.InRange (cell.bounds.y - top + target)) :
    translate cells top target = cells.map (Cell.lowered (target - top)) := by
  refine List.map_congr_left fun cell member => congrArg cell.atY ?_
  rw [Coordinate.wrap_of_inRange (range cell member)]
  omega

/-- A move changes nothing but heights. -/
theorem atHeight_translate (y top target : Int) (cells : List Cell) :
    atHeight y (translate cells top target) = atHeight y cells := by
  simp [translate, atHeight, Function.comp_def]

/-- A move by the distance between two heights takes a level batch from one to the other. -/
theorem translate_atHeight (y : Int) {target : Int} (kept : Coordinate.wrap target = target)
    (cells : List Cell) : translate (atHeight y cells) y target = atHeight target cells := by
  simp [translate, atHeight, Function.comp_def, kept]

namespace Paginator

/-- Where the next batch goes is a coordinate. -/
theorem inRange_y (paginator : Paginator) : Coordinate.InRange paginator.y :=
  Coordinate.wrap_eq_iff.mp paginator.kept

/-- A batch has no place if there is something on the page and the batch would reach its end. -/
theorem needsBreak_iff {paginator : Paginator} {height : Int}
    (range : Coordinate.InRange (paginator.y + height)) :
    paginator.needsBreak height = true ↔
      0 < paginator.y ∧ paginator.pageHeight ≤ paginator.y + height := by
  simp [needsBreak, Coordinate.wrap_of_inRange range]

/-- A batch that ends above the page height has room. -/
theorem room_of_lt {paginator : Paginator} {height : Int} (low : Coordinate.least ≤ height)
    (ends : paginator.y + height < paginator.pageHeight) : paginator.needsBreak height = false := by
  simp only [needsBreak, Bool.and_eq_false_imp, decide_eq_true_eq, decide_eq_false_iff_not]
  intro down
  have lower := Coordinate.wrap_le (show Coordinate.least ≤ paginator.y + height by omega)
  omega

variable (paginator : Paginator)

@[simp] theorem skip_zero : paginator.skip 0 = paginator := by
  simp [skip, paginator.kept]

@[simp] theorem append_nil : (paginator.append []).2 = paginator := rfl

/-- A batch made for the offset stays there, or stands at the top of a new page if it does not fit. -/
theorem append_atHeight {cells : List Cell} (occupied : cells ≠ []) :
    (paginator.append (atHeight paginator.y cells)).2 =
      if paginator.needsBreak (batchHeight cells) then
        paginator.newPage.place (atHeight 0 cells) (batchHeight cells)
      else paginator.place (atHeight paginator.y cells) (batchHeight cells) := by
  have nonempty : (atHeight paginator.y cells).isEmpty = false := by
    simpa [List.isEmpty_eq_false_iff] using occupied
  simp only [append, nonempty, Bool.false_eq_true, ↓reduceIte, batchHeight_atHeight,
    translate_atHeight _ Coordinate.wrap_zero]
  split <;> rfl

/-- A copy of a level batch is placed as the batch itself would be. -/
theorem appendCopy_atHeight (y : Int) (cells : List Cell) :
    paginator.appendCopy (atHeight y cells) = paginator.append (atHeight paginator.y cells) := by
  cases cells with
  | nil => rfl
  | cons cell rest =>
    have top : ((atHeight y (cell :: rest)).map fun cell => cell.bounds.y).min? = some y := by
      rw [List.min?_eq_some_iff]
      simp [atHeight]
    simp only [appendCopy, top, translate_atHeight _ paginator.kept]

end Paginator

end PagedReport
