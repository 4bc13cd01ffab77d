import Mathlib.Data.List.Chain
import Mathlib.Data.List.Nodup
import PagedReport.Proofs.History
import PagedReport.Proofs.Paint.TableRows

/-! # Columns side by side

The cells of column headers and of data rows tile the width of the table, wherever columns that are not
shown stand among the others: the first cell starts at the left edge, every other one where the one
before it ends, and the last one ends at the right edge. Where the widths add up to more than the greatest
coordinate, the ends of the cells wrap around. A total stands under the header of its column.
Neighbours in a data row agree on the line between them, and the lines at the ends of the table are drawn
by the first and the last cell, which may be the same one.
-/

namespace PagedReport

/-- What a rectangle takes up of the width of its page. -/
structure Extent where
  left : Int
  width : Int
deriving DecidableEq, Repr

/-- Where an extent ends. -/
def Extent.right (extent : Extent) : Int := extent.left + extent.width

/-- What a cell takes up of the width of its page. -/
def Cell.extent (cell : Cell) : Extent := ⟨cell.bounds.x, cell.bounds.width⟩

/-- Extents that fill the room between two coordinates, each from the end of the one before it on. The
coordinate of an end may be another number than the end. -/
structure Tiles (coordinate : Int → Int) (left right : Int) (extents : List Extent) : Prop where
  first : ∀ extent ∈ extents.head?, extent.left = left
  next : extents.IsChain fun extent next => next.left = coordinate extent.right
  last : ∀ extent ∈ extents.getLast?, coordinate extent.right = right
  empty : extents = [] → left = right

namespace Tiles

variable {coordinate : Int → Int} {left right : Int} {extents : List Extent}

theorem concat (tiles : Tiles coordinate left right extents) (extent : Extent)
    (meets : extent.left = right) :
    Tiles coordinate left (coordinate extent.right) (extents ++ [extent]) where
  first := by
    rw [List.head?_concat]
    rintro _ ⟨⟩
    cases extents with
    | nil => exact meets.trans (tiles.empty rfl).symm
    | cons first rest => exact tiles.first first rfl
  next := by
    refine tiles.next.append (List.isChain_singleton _) ?_
    rintro last known _ ⟨⟩
    exact meets.trans (tiles.last last known).symm
  last := by
    rw [List.getLast?_concat]
    rintro _ ⟨⟩
    rfl
  empty none := absurd none (List.append_ne_nil_of_right_ne_nil _ (List.cons_ne_nil _ _))

/-- Where the coordinate of every end is the end, the extents meet. -/
theorem of_kept (tiles : Tiles coordinate left right extents)
    (kept : ∀ extent ∈ extents, coordinate extent.right = extent.right) : Tiles id left right extents where
  first := tiles.first
  next := by
    refine tiles.next.imp_of_mem_imp fun extent next member _ meets => ?_
    rw [meets, kept extent member]
    rfl
  last extent member := by
    rw [← tiles.last extent member, kept extent (List.mem_of_mem_getLast? member)]
    rfl
  empty := tiles.empty

end Tiles

section Columns

/-- What a column takes up of the width of the table. -/
def columnExtent (columns : List Column) (place : Column × Nat) : Extent :=
  ⟨xOffset columns place.2, place.1.width⟩

theorem visibleColumns_concat (columns : List Column) (column : Column) :
    visibleColumns (columns ++ [column]) =
      visibleColumns columns ++ if column.isVisible then [(column, columns.length)] else [] := by
  cases shown : column.isVisible <;> simp [visibleColumns, List.zipIdx_append, shown]

/-- The columns that are shown tile the table up to the end of any part of it from the left: a column
that is not shown adds neither an extent nor a width. -/
theorem tiles_of_isPrefix {columns part : List Column} (front : part <+: columns) :
    Tiles Coordinate.wrap 0 (visibleWidth part) ((visibleColumns part).map (columnExtent columns)) := by
  induction part using List.reverseRecOn with
  | nil => exact ⟨by rintro _ ⟨⟩, .nil, by rintro _ ⟨⟩, fun _ => rfl⟩
  | append_singleton part column ih =>
    have before : part <+: columns := (List.prefix_append part [column]).trans front
    have start : xOffset columns part.length = visibleWidth part := by
      rw [xOffset, ← List.prefix_iff_eq_take.mp before]
    rw [visibleColumns_concat, visibleWidth, shownWidth_append, shownWidth_singleton]
    cases column.isVisible with
    | false => simpa [visibleWidth] using ih before
    | true =>
      have tiles := (ih before).concat (columnExtent columns (column, part.length)) start
      rw [Extent.right, columnExtent, start, visibleWidth, Coordinate.wrap_add_wrap_left] at tiles
      rw [if_pos rfl, if_pos rfl, List.map_append, List.map_singleton, columnExtent, start]
      exact tiles

/-- The columns that are shown tile the table. -/
theorem tiles_visibleColumns (columns : List Column) :
    Tiles Coordinate.wrap 0 (visibleWidth columns)
      ((visibleColumns columns).map (columnExtent columns)) :=
  tiles_of_isPrefix (List.prefix_refl columns)

/-- Whether the widths of the columns up to any one of them add up to a coordinate. -/
def WidthsInRange (columns : List Column) : Prop :=
  ∀ index ≤ columns.length, Coordinate.InRange (shownWidth (columns.take index))

instance (columns : List Column) : Decidable (WidthsInRange columns) :=
  inferInstanceAs (Decidable (∀ index ≤ columns.length, _))

/-- The end of a column in range is a coordinate. -/
theorem WidthsInRange.wrap_right {columns : List Column} (range : WidthsInRange columns)
    {place : Column × Nat} (member : place ∈ visibleColumns columns) :
    Coordinate.wrap (columnExtent columns place).right = (columnExtent columns place).right := by
  obtain ⟨inside, shown⟩ := List.mem_filter.mp member
  obtain ⟨bound, here⟩ := List.getElem?_eq_some_iff.mp (List.mem_zipIdx_iff_getElem?.mp inside)
  have start : xOffset columns place.2 = shownWidth (columns.take place.2) :=
    Coordinate.wrap_of_inRange (range place.2 (by omega))
  have stop := range (place.2 + 1) bound
  rw [List.take_add_one, List.getElem?_eq_getElem bound, here, Option.toList_some, shownWidth_append,
    shownWidth_singleton, if_pos shown, ← start] at stop
  exact Coordinate.wrap_of_inRange stop

theorem map_fst_visibleColumns (columns : List Column) :
    (visibleColumns columns).map Prod.fst = columns.filter Column.isVisible := by
  have columns' : columns = columns.zipIdx.map Prod.fst := by simp
  conv => rhs; rw [columns', List.filter_map]
  rfl

end Columns

/-- The upright lines of a row whose cells draw the line between two of them together, and its ends each
by the cell that stands there. -/
structure SharesEdges (style : BorderStyle) (borders : List Borders) : Prop where
  between : borders.IsChain fun cell next =>
    cell.has .right = style.drawsInnerVertical ∧ next.has .left = style.drawsInnerVertical
  leftEnd : ∀ first ∈ borders.head?, first.has .left = style.drawsOuterVertical
  rightEnd : ∀ last ∈ borders.getLast?, last.has .right = style.drawsOuterVertical

/-- Of two neighbours in a list without repetitions the left one is not the last item, and the right one
is not the first. -/
theorem isChain_not_ends {α : Type} {items : List α} (distinct : items.Nodup) :
    items.IsChain fun item next => items.getLast? ≠ some item ∧ items.head? ≠ some next := by
  rw [List.isChain_iff_getElem]
  intro index bound
  constructor
  · rw [List.getLast?_eq_getElem?, List.getElem?_eq_getElem (by omega), ne_eq, Option.some.injEq,
      distinct.getElem_inj_iff]
    omega
  · rw [List.head?_eq_getElem?, List.getElem?_eq_getElem (by omega), ne_eq, Option.some.injEq,
      distinct.getElem_inj_iff]
    omega

/-- Items with a result of their own are related to it, and the others are left out. -/
theorem forall₂_filterMap {α β : Type} {R : α → Option β → Prop} {S : α → β → Prop} {p : α → Bool}
    (given : ∀ a b, R a (some b) → p a = true ∧ S a b) (absent : ∀ a, R a none → p a = false)
    {items : List α} {results : List (Option β)} (pairs : List.Forall₂ R items results) :
    List.Forall₂ S (items.filter p) (results.filterMap id) := by
  induction pairs with
  | nil => exact .nil
  | @cons item result _ _ first _ ih =>
    cases result with
    | none =>
      rw [List.filter_cons_of_neg (by simp [absent item first])]
      exact ih
    | some b =>
      obtain ⟨kept, related⟩ := given item b first
      rw [List.filter_cons_of_pos kept]
      exact .cons related ih

/-- Whether a cell has the place and the alignment of a column. -/
def Cell.StandsIn (columns : List Column) (place : Column × Nat) (cell : Cell) : Prop :=
  cell.extent = columnExtent columns place ∧ cell.alignment = place.1.alignment

/-- Cells of which each belongs to one of the columns that are shown, in their order, and which tile the
table, as far as the widths are in range. -/
structure FillsColumns (columns : List Column) (cells : List Cell) : Prop where
  each : List.Forall₂
    (fun column cell => cell.bounds.width = column.width ∧ cell.alignment = column.alignment)
    (columns.filter Column.isVisible) cells
  wraps : Tiles Coordinate.wrap 0 (visibleWidth columns) (cells.map Cell.extent)
  tiles : WidthsInRange columns → Tiles id 0 (visibleWidth columns) (cells.map Cell.extent)

theorem fillsColumns_of_standsIn {columns : List Column} {cells : List Cell}
    (pairs : List.Forall₂ (Cell.StandsIn columns) (visibleColumns columns) cells) :
    FillsColumns columns cells := by
  have extents : (visibleColumns columns).map (columnExtent columns) = cells.map Cell.extent := by
    rw [← List.forall₂_eq_eq_eq, List.forall₂_map_left_iff, List.forall₂_map_right_iff]
    exact pairs.imp fun place cell stands => stands.1.symm
  have wraps := tiles_visibleColumns columns
  refine ⟨?_, extents ▸ wraps, fun range => extents ▸ ?_⟩
  · rw [← map_fst_visibleColumns, List.forall₂_map_left_iff]
    exact pairs.imp fun place cell stands => ⟨congrArg Extent.width stands.1, stands.2⟩
  · apply wraps.of_kept
    intro extent member
    obtain ⟨place, shown, rfl⟩ := List.mem_map.mp member
    exact range.wrap_right shown

namespace Design

variable {design : Design}

theorem nodup_shownIndexes (design : Design) : design.shownIndexes.Nodup := by
  have part : design.shownIndexes.Sublist (design.columns.zipIdx.map Prod.snd) :=
    List.filter_sublist.map Prod.snd
  rw [List.zipIdx_map_snd] at part
  exact part.nodup List.nodup_range'

private theorem single_ne_none (drawn : Bool) :
    ((if drawn then Line.single else .none) != .none) = drawn := by
  cases drawn <;> rfl

theorem has_left_dataBorders (design : Design) (index : Nat) :
    (design.dataBorders index).has .left =
      if design.shownIndexes.head? = some index then design.options.borderStyle.drawsOuterVertical
      else design.options.borderStyle.drawsInnerVertical := by
  refine (single_ne_none _).trans ?_
  simp only [beq_iff_eq]

theorem has_right_dataBorders (design : Design) (index : Nat) :
    (design.dataBorders index).has .right =
      if design.shownIndexes.getLast? = some index then design.options.borderStyle.drawsOuterVertical
      else design.options.borderStyle.drawsInnerVertical := by
  refine (single_ne_none _).trans ?_
  simp only [beq_iff_eq]

/-- The borders of the columns that are shown share their edges. -/
theorem sharesEdges_dataBorders (design : Design) :
    SharesEdges design.options.borderStyle (design.shownIndexes.map design.dataBorders) where
  between := by
    rw [List.isChain_map]
    refine (isChain_not_ends design.nodup_shownIndexes).imp fun index next apart => ⟨?_, ?_⟩
    · rw [has_right_dataBorders, if_neg apart.1]
    · rw [has_left_dataBorders, if_neg apart.2]
  leftEnd borders member := by
    rw [List.head?_map] at member
    obtain ⟨index, first, rfl⟩ := Option.mem_map.mp member
    rw [has_left_dataBorders, if_pos (Option.mem_def.mp first)]
  rightEnd borders member := by
    rw [List.getLast?_map] at member
    obtain ⟨index, last, rfl⟩ := Option.mem_map.mp member
    rw [has_right_dataBorders, if_pos (Option.mem_def.mp last)]

theorem standsIn_headerCell (design : Design) (place : Column × Nat) (y : Int) :
    (design.headerCell place.1 place.2 y).StandsIn design.columns place :=
  ⟨rfl, rfl⟩

theorem fillsColumns_columnHeader (design : Design) (y : Int) :
    FillsColumns design.columns (design.columnHeader y) := by
  apply fillsColumns_of_standsIn
  rw [columnHeader, List.forall₂_map_right_iff]
  exact List.forall₂_same.mpr fun place _ => design.standsIn_headerCell place y

section Rows

variable {row : Row} {previous : Option Row} {y : Int} {showRepeats : Bool}

theorem standsIn_dataCell {place : Column × Nat} {cell : Cell}
    (made : design.dataCell place.1 place.2 row previous y showRepeats = .ok cell) :
    cell.StandsIn design.columns place ∧ cell.borders = design.dataBorders place.2 := by
  obtain ⟨shown, _, same⟩ := bind_eq_ok_iff.mp made
  cases same
  exact ⟨⟨rfl, rfl⟩, rfl⟩

theorem map_borders_dataRow {cells : List Cell}
    (made : design.dataRow row previous y showRepeats = .ok cells) :
    cells.map Cell.borders = design.shownIndexes.map design.dataBorders := by
  rw [shownIndexes, List.map_map, ← List.forall₂_eq_eq_eq, List.forall₂_map_left_iff,
    List.forall₂_map_right_iff]
  exact (mapM_eq_ok_iff.mp made).flip.imp fun cell place found => (standsIn_dataCell found).2

end Rows

section Totals

variable {line : TotalsLine} {grand : Bool} {y : Int}

theorem standsIn_totalCell {place : Column × Nat} {cell : Cell}
    (made : design.totalCell line grand y place.1 place.2 = .ok (some cell)) :
    (line.sums.sum? place.2).isSome = true ∧ cell.StandsIn design.columns place := by
  rw [totalCell] at made
  split at made
  · cases made
  · next total found =>
    obtain ⟨text, _, same⟩ := bind_eq_ok_iff.mp made
    cases same
    exact ⟨by rw [found]; rfl, rfl, rfl⟩

theorem sum?_of_no_totalCell {place : Column × Nat}
    (made : design.totalCell line grand y place.1 place.2 = .ok none) :
    (line.sums.sum? place.2).isSome = false := by
  rw [totalCell] at made
  split at made
  · next found => rw [found]; rfl
  · obtain ⟨text, _, same⟩ := bind_eq_ok_iff.mp made
    cases same

/-- The cells of a line of totals are its label and the totals of the columns that are shown and have
one, each in its column. -/
theorem exists_totals_eq_label_append {cells : List Cell}
    (made : design.totals line grand y = .ok cells) :
    ∃ values, cells =
        (if line.sums.hasTotals then [design.totalsLabel line grand y] else []) ++ values ∧
      List.Forall₂ (Cell.StandsIn design.columns)
        ((visibleColumns design.columns).filter fun place => (line.sums.sum? place.2).isSome) values := by
  rw [totals] at made
  cases some : line.sums.hasTotals with
  | true =>
    rw [some, if_pos rfl] at made
    obtain ⟨found, run, same⟩ := bind_eq_ok_iff.mp made
    refine ⟨found.filterMap id, (Except.ok.inj same).symm, ?_⟩
    exact forall₂_filterMap (fun _ _ => standsIn_totalCell) (fun _ => sum?_of_no_totalCell)
      (mapM_eq_ok_iff.mp run)
  | false =>
    rw [some, if_neg Bool.false_ne_true] at made
    have empty : ((visibleColumns design.columns).filter fun place =>
        (line.sums.sum? place.2).isSome) = [] := by
      rw [List.filter_eq_nil_iff]
      intro place _ given
      rw [Sums.hasTotals_of_sum? given] at some
      cases some
    exact ⟨[], (Except.ok.inj made).symm, empty ▸ .nil⟩

end Totals

/-- Three columns, of which the two that are shown stand before and behind one that is not. -/
private def interleavedDesign : Design where
  columns :=
    [{ Column.plain "City" 50 with role := .group }, { Column.plain "Region" 90 with role := .sectionBreak },
      { Column.numeric "Amount" 30 with subtotal := true }]
  options := { borderStyle := .full }
  metrics := FixedPitch.standard.metrics

/-- A column that is shown alone draws both ends of the table. -/
example : (dataBorders
    { columns := [{ Column.plain "Region" 90 with role := .sectionBreak }, .plain "City" 50]
      options := { borderStyle := .outside }
      metrics := FixedPitch.standard.metrics } 1).edges = [.left, .right] := by
  decide

end Design

end PagedReport
